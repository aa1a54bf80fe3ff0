import Sentinel.Gateway.Identity
import Sentinel.Gateway.Server

/-!
# From the end of a call to the broker

`FinishCall` records the end of a call and queues it in one transaction; drainers (`outbox.go`), one
in each gateway process, carry it to the broker.
-/

open List Table Option

namespace Sentinel

/-! ## The queue -/

structure Delivery where
  attempt : Nat := 0
  publishedAt : Option Time := none
  nextAttemptAt : Time
  lastError : Option String := none
  deriving DecidableEq

structure OutboxEntry where
  callId : Uuid
  tenantId : String
  finalizedAt : Time
  attempt : Nat
  deriving DecidableEq

def fiveMinutes : Time := 5 * 60 * 10 ^ 9

namespace Delivery

def Claimable (now : Time) (d : Delivery) : Prop :=
  d.publishedAt = none ∧ d.nextAttemptAt ≤ now

instance (now : Time) (d : Delivery) : Decidable (d.Claimable now) :=
  inferInstanceAs (Decidable (_ ∧ _))

def backoff (attempt : Nat) : Time :=
  min fiveMinutes (2 * 10 ^ 9 * 2 ^ min attempt 8)

def claim (now : Time) (d : Delivery) : Delivery :=
  { d with attempt := d.attempt + 1, nextAttemptAt := now + backoff d.attempt }

def published (now : Time) (d : Delivery) : Delivery :=
  if d.publishedAt = none then { d with publishedAt := some now, lastError := none } else d

def failed (reason : String) (d : Delivery) : Delivery :=
  if d.publishedAt = none then { d with lastError := some (.ofList (reason.toList.take 500)) }
  else d

@[simp] theorem publishedAt_failed (reason : String) (d : Delivery) :
    (d.failed reason).publishedAt = d.publishedAt := by
  unfold failed
  split <;> rfl

@[simp] theorem nextAttemptAt_failed (reason : String) (d : Delivery) :
    (d.failed reason).nextAttemptAt = d.nextAttemptAt := by
  unfold failed
  split <;> rfl

@[simp] theorem nextAttemptAt_published (now : Time) (d : Delivery) :
    (d.published now).nextAttemptAt = d.nextAttemptAt := by
  unfold published
  split <;> rfl

end Delivery

def ClaimsBefore (a b : Uuid × Delivery) : Prop :=
  a.2.nextAttemptAt < b.2.nextAttemptAt ∨ a.2.nextAttemptAt = b.2.nextAttemptAt ∧ a.1 ≤ b.1

instance : DecidableRel ClaimsBefore := fun a b =>
  inferInstanceAs (Decidable (a.2.nextAttemptAt < b.2.nextAttemptAt ∨ _ ∧ a.1 ≤ b.1))

def claimed (t : Table Uuid Delivery) (limit : Int) (now : Time) (locked : List Uuid) :
    List Uuid :=
  (((t.rows.filter fun r => r.2.Claimable now ∧ r.1 ∉ locked).insertionSort ClaimsBefore).take
    (max 1 (min limit 500)).toNat).map Prod.fst

def entryOf (outbox : Table Uuid OutboxRow) (t : Table Uuid Delivery) (u : Uuid) :
    Option OutboxEntry :=
  match outbox.get? u, t.get? u with
  | some row, some d => some ⟨u, row.tenantId, row.finalizedAt, d.attempt⟩
  | _, _ => none

def updateRow (t : Table Uuid Delivery) (u : Uuid) (f : Delivery → Delivery) :
    Table Uuid Delivery :=
  t.mapVals fun v d => if v = u then f d else d

/-! ## The drainers -/

structure FinalizeMessage where
  callId : CallId
  tenantId : String
  attempt : Nat
  finalizedAt : Int
  deriving DecidableEq

def OutboxEntry.message (e : OutboxEntry) : Option FinalizeMessage :=
  (ulidFromUuid e.callId).map fun callId =>
    { callId, tenantId := e.tenantId, attempt := e.attempt, finalizedAt := e.finalizedAt / 10 ^ 9 }

inductive DrainTask where
  | publishing
  | marking
  | failing (reason : String)
  deriving DecidableEq

structure Drainer where
  entries : List OutboxEntry := []
  task : DrainTask := .publishing
  deriving DecidableEq

def batchSize (batch : Int) : Int := if batch ≤ 0 then 64 else batch

/-! ## Transactions of the ingest side -/

inductive Transaction where
  | ensureCall (cs : CallStart) (tenantId deviceId : String)
  | putSegment (tenant : String) (callId : CallId) (r : MediaRecord)
  | setWatermark (callId : CallId) (channel : Channel) (throughSeq : Nat)
  | finishCall (tenant : String) (ce : CallEnd)

def Transaction.commit (env : SinkEnv) (s : Sink) : Transaction → Sink
  | .ensureCall cs tenantId deviceId => (s.ensureCall env cs tenantId deviceId).1
  | .putSegment tenant callId r => (s.putSegment env tenant callId r).1
  | .setWatermark callId channel throughSeq => (s.setWatermark env callId channel throughSeq).1
  | .finishCall tenant ce => (s.finishCall env tenant ce).1

/-! ## The system -/

structure Relay where
  sink : Sink := {}
  delivery : Table Uuid Delivery := ∅
  drainers : Nat → Drainer := fun _ => {}
  accepted : List FinalizeMessage := []
  claimedAt : Uuid → Option Time := fun _ => none

inductive RelayEvent where
  | ingest (t : Transaction) (faults : List Fault) (now : Time)
  | claim (k : Nat) (batch : Int) (now : Time) (locked : List Uuid) (fault : Fault)
  | publish (k : Nat) (fault : Fault) (error : String)
  | mark (k : Nat) (now : Time) (fault : Fault)
  | fail (k : Nat) (fault : Fault)
  | crash (k : Nat)

namespace Relay

def setDrainer (w : Relay) (k : Nat) (d : Drainer) : Relay :=
  { w with drainers := Function.update w.drainers k d }

def step (env : SinkEnv) (w : Relay) : RelayEvent → Relay
  | .ingest t faults now =>
    let sink := t.commit env { w.sink with faults }
    -- A row of the queue that is new has the defaults of its table.
    { w with sink
             delivery := sink.outbox.mapVals fun u _ =>
               (w.delivery.get? u).getD { nextAttemptAt := now } }
  | .claim k batch now locked fault =>
    if (w.drainers k).entries = [] ∧ fault ≠ .refused then
      let us := claimed w.delivery (batchSize batch) now locked
      let delivery := w.delivery.mapVals fun u d => if u ∈ us then d.claim now else d
      let entries := if fault = .unreported then [] else
        us.filterMap (entryOf w.sink.outbox delivery)
      { w with delivery
               claimedAt := fun u => if u ∈ us then some now else w.claimedAt u
               drainers := Function.update w.drainers k { entries } }
    else w
  | .publish k fault error =>
    match w.drainers k with
    | ⟨e :: rest, .publishing⟩ =>
      match e.message with
      | none => w.setDrainer k ⟨e :: rest, .failing "unusable call id"⟩
      | some m =>
        { w.setDrainer k ⟨e :: rest, if fault = .none then .marking else .failing error⟩ with
          accepted := if fault = .refused then w.accepted else w.accepted ++ [m] }
    | _ => w
  | .mark k now fault =>
    match w.drainers k with
    | ⟨e :: rest, .marking⟩ =>
      { w.setDrainer k { entries := rest } with
        delivery := if fault = .refused then w.delivery
          else updateRow w.delivery e.callId (·.published now) }
    | _ => w
  | .fail k fault =>
    match w.drainers k with
    | ⟨e :: rest, .failing reason⟩ =>
      { w.setDrainer k { entries := rest } with
        delivery := if fault = .refused then w.delivery
          else updateRow w.delivery e.callId (·.failed reason) }
    | _ => w
  | .crash k => w.setDrainer k {}

end Relay

/-! ## What a transaction does to the queue -/

section Transactions

variable {env : SinkEnv} {s : Sink}

theorem Transaction.commit_cases (env : SinkEnv) (s : Sink) (t : Transaction) :
    ((t.commit env s).calls = s.calls ∧ (t.commit env s).outbox = s.outbox) ∨
    (∃ u row, u ∉ s.calls.keys ∧ row.ended = none ∧
      (t.commit env s).calls = s.calls.insertNew u row ∧ (t.commit env s).outbox = s.outbox) ∨
    ∃ c u row ended queued, env.callUuid c = some u ∧ s.calls.get? u = some row ∧
      (t.commit env s).calls = s.calls.put u { row with ended := some ended } ∧
      (t.commit env s).outbox = s.outbox.insertNew u queued := by
  cases t with
  | ensureCall cs tenantId deviceId =>
    obtain ⟨calls, fs, he, hcases, -⟩ := Sink.ensureCall_spec env s cs tenantId deviceId
    rw [commit, he]
    rcases hcases with rfl | ⟨u, startedAt, -, hnew, rfl⟩
    · exact .inl ⟨rfl, rfl⟩
    · exact .inr (.inl ⟨u, _, hnew, rfl, rfl, rfl⟩)
  | putSegment tenant callId r =>
    obtain ⟨segments, fs, puts, writes, he, -⟩ := Sink.putSegment_spec env s tenant callId r
    rw [commit, he]
    exact .inl ⟨rfl, rfl⟩
  | setWatermark callId channel throughSeq =>
    obtain ⟨marks, fs, writes, he, -⟩ := Sink.setWatermark_spec env s callId channel throughSeq
    rw [commit, he]
    exact .inl ⟨rfl, rfl⟩
  | finishCall tenant ce =>
    obtain ⟨calls, outbox, fs, writes, he, hcases⟩ := Sink.finishCall_spec env s tenant ce
    rw [commit, he]
    rcases hcases with ⟨rfl, rfl, rfl⟩ | ⟨u, row, endedAt, hu, hrow, -, -, rfl, rfl, -⟩
    · exact .inl ⟨rfl, rfl⟩
    · exact .inr (.inr ⟨ce.callId, u, row, _, _, hu, hrow, rfl, rfl⟩)

structure Sink.Queues (env : SinkEnv) (s : Sink) : Prop where
  ended : ∀ u row, s.calls.get? u = some row → (u ∈ s.outbox.keys ↔ row.ended.isSome)
  known : ∀ u ∈ s.outbox.keys, u ∈ s.calls.keys
  named : ∀ u ∈ s.outbox.keys, ∃ c, env.callUuid c = some u

theorem Sink.Queues.commit (h : s.Queues env) (t : Transaction) : (t.commit env s).Queues env := by
  rcases t.commit_cases env s with ⟨hcalls, houtbox⟩ | ⟨u, row, hnew, hopen, hcalls, houtbox⟩ |
    ⟨c, u, row, ended, queued, hu, hrow, hcalls, houtbox⟩
  · refine ⟨?_, ?_, ?_⟩ <;> rw [houtbox] <;> try rw [hcalls]
    exacts [h.ended, h.known, h.named]
  · refine ⟨fun v row' hrow' => ?_, fun v hv => ?_, houtbox ▸ h.named⟩
    · rw [hcalls] at hrow'
      rw [houtbox]
      by_cases hvu : v = u
      · rw [hvu, get?_insertNew_self, get?_eq_none.mpr hnew, getD_none, some.injEq] at hrow'
        rw [hvu, ← hrow', hopen]
        exact iff_of_false (fun hv => hnew (h.known u hv)) (by decide)
      rw [get?_insertNew_of_ne _ hvu] at hrow'
      exact h.ended v row' hrow'
    rw [hcalls]
    rw [houtbox] at hv
    exact mem_keys_insertNew.mpr (.inr (h.known v hv))
  refine ⟨fun v row' hrow' => ?_, fun v hv => ?_, fun v hv => ?_⟩
  · rw [hcalls, get?_put] at hrow'
    rw [houtbox, mem_keys_insertNew]
    by_cases hvu : v = u
    · rw [if_pos hvu, some.injEq] at hrow'
      rw [← hrow']
      exact iff_of_true (.inl hvu) rfl
    rw [if_neg hvu] at hrow'
    rw [← h.ended v row' hrow']
    exact or_iff_right hvu
  · rw [houtbox, mem_keys_insertNew] at hv
    rw [hcalls, mem_keys_put]
    exact hv.imp_right (h.known v)
  rw [houtbox, mem_keys_insertNew] at hv
  rcases hv with rfl | hv
  · exact ⟨c, hu⟩
  · exact h.named v hv

theorem Transaction.keys_commit (t : Transaction) {u : Uuid} (hu : u ∈ s.outbox.keys) :
    u ∈ (t.commit env s).outbox.keys := by
  rcases t.commit_cases env s with ⟨_, houtbox⟩ | ⟨_, _, _, _, _, houtbox⟩ |
    ⟨_, _, _, _, _, _, _, _, houtbox⟩ <;> rw [houtbox]
  · exact hu
  · exact hu
  · exact mem_keys_insertNew.mpr (.inr hu)

variable {now : Time} {i : Input} {x : Ctx}

theorem Move.commits {src : MediaRecord → Prop} {y : Ctx} (h : Move env now i src x y) :
    y.sink = x.sink ∨ ∃ t : Transaction, y.sink = t.commit env x.sink := by
  cases h with
  | ensureFails cs | opens cs =>
    exact .inr ⟨.ensureCall cs x.session.peer.tenantId x.session.peer.deviceId, rfl⟩
  | store rec | storeFails rec =>
    exact .inr ⟨.putSegment x.session.peer.tenantId rec.callId rec, rfl⟩
  | acknowledge c ch _ cst | markFails c ch _ cst =>
    exact .inr ⟨.setWatermark c ch cst.through, rfl⟩
  | finish ce st hi hst => exact .inr ⟨.finishCall x.session.peer.tenantId ce, rfl⟩
  | _ => exact .inl rfl

/-- **The gateway keeps calls and queue in step.**  Whatever its connections send and whichever
store operations fail, a call has ended exactly when its message is in the outbox. -/
theorem Server.queues_run (env : SinkEnv) (es : List ServerEvent) :
    (Runs.run (Server.step env) {} es).sink.Queues env := by
  refine Runs.run_invariant (I := fun srv : Server => srv.sink.Queues env)
    ⟨fun _ _ h => (by cases h), forall_mem_nil _, forall_mem_nil _⟩ (fun srv e h => ?_) es
  cases e with
  | accept | hangup => exact h
  | input k i now faults =>
    refine Server.sink_step_input h ⟨h.ended, h.known, h.named⟩ fun _ x y hm hx => ?_
    rcases hm.commits with hsame | ⟨t, ht⟩
    · rwa [hsame]
    · exact ht ▸ hx.commit t

end Transactions

/-! ## The invariant -/

namespace Relay

def Carried (w : Relay) (u : Uuid) : Prop :=
  ∃ m ∈ w.accepted, callUuidFromUlid m.callId = some u

structure Sound (env : SinkEnv) (w : Relay) : Prop where
  queues : w.sink.Queues env
  keys : w.delivery.keys = w.sink.outbox.keys
  held : ∀ k, ∀ e ∈ (w.drainers k).entries, e.callId ∈ w.delivery.keys
  marking : ∀ k e rest, w.drainers k = ⟨e :: rest, .marking⟩ → w.Carried e.callId
  published : ∀ u d, w.delivery.get? u = some d → d.publishedAt.isSome → w.Carried u
  claimedAt : ∀ u t, w.claimedAt u = some t → u ∈ w.delivery.keys
  next : ∀ u d t, w.delivery.get? u = some d → w.claimedAt u = some t →
    d.nextAttemptAt ≤ t + fiveMinutes

variable {env : SinkEnv} {w : Relay}

variable {k : Nat} {t : Table Uuid Delivery}

theorem Sound.setDrainer (h : w.Sound env) {d : Drainer}
    (hheld : ∀ e ∈ d.entries, e.callId ∈ w.delivery.keys)
    (hmarking : ∀ e rest, d = ⟨e :: rest, .marking⟩ → w.Carried e.callId) :
    (w.setDrainer k d).Sound env := by
  have hdrainer : ∀ j, (w.setDrainer k d).drainers j = d ∨
      (w.setDrainer k d).drainers j = w.drainers j := by
    intro j
    by_cases hj : j = k
    · exact .inl (by simp [Relay.setDrainer, hj])
    · exact .inr (by simp [Relay.setDrainer, hj])
  refine ⟨h.queues, h.keys, fun j e he => ?_, fun j e rest hj => ?_, h.published, h.claimedAt,
    h.next⟩
  · rcases hdrainer j with hd | hd <;> rw [hd] at he
    · exact hheld e he
    · exact h.held j e he
  rcases hdrainer j with hd | hd <;> rw [hd] at hj
  · exact hmarking e rest hj
  · exact h.marking j e rest hj

theorem Sound.accept (h : w.Sound env) (m : FinalizeMessage) :
    Sound env { w with accepted := w.accepted ++ [m] } := by
  have hmono : ∀ u, w.Carried u → Carried { w with accepted := w.accepted ++ [m] } u :=
    fun u ⟨x, hx, hu⟩ => ⟨x, mem_append_left _ hx, hu⟩
  exact ⟨h.queues, h.keys, h.held, fun k e rest hk => hmono _ (h.marking k e rest hk),
    fun u d hd hp => hmono _ (h.published u d hd hp), h.claimedAt, h.next⟩

variable {u : Uuid} {e : OutboxEntry}

theorem Sound.updateRow (h : w.Sound env) {f : Delivery → Delivery}
    (hnext : ∀ d, (f d).nextAttemptAt = d.nextAttemptAt)
    (hpublished : ∀ d, (f d).publishedAt.isSome → d.publishedAt.isSome ∨ w.Carried u) :
    Sound env { w with delivery := Sentinel.updateRow w.delivery u f } := by
  have hkeys : (Sentinel.updateRow w.delivery u f).keys = w.delivery.keys := keys_mapVals _ _
  refine ⟨h.queues, hkeys.trans h.keys, ?_, h.marking, fun v d hd hp => ?_, ?_,
    fun v d t hd ht => ?_⟩
  · exact hkeys ▸ h.held
  · rw [Sentinel.updateRow, get?_mapVals] at hd
    obtain ⟨d₀, hd₀, rfl⟩ := map_eq_some_iff.mp hd
    split at hp
    next hvu =>
      rcases hpublished d₀ hp with hp | hcarried
      · exact h.published v d₀ hd₀ hp
      · exact hvu ▸ hcarried
    · exact h.published v d₀ hd₀ hp
  · exact hkeys ▸ h.claimedAt
  rw [Sentinel.updateRow, get?_mapVals] at hd
  obtain ⟨d₀, hd₀, rfl⟩ := map_eq_some_iff.mp hd
  have hle : d₀.nextAttemptAt ≤ t + fiveMinutes := h.next v d₀ t hd₀ ht
  split
  · rwa [hnext]
  · exact hle

theorem Sound.ingest (h : w.Sound env) (t : Transaction) (faults : List Fault) (now : Time) :
    (w.step env (.ingest t faults now)).Sound env := by
  have hsink : Sink.Queues env { w.sink with faults } :=
    ⟨h.queues.ended, h.queues.known, h.queues.named⟩
  have hkeys : (w.step env (.ingest t faults now)).delivery.keys =
      (t.commit env { w.sink with faults }).outbox.keys := keys_mapVals _ _
  have hmono : ∀ u ∈ w.delivery.keys, u ∈ (w.step env (.ingest t faults now)).delivery.keys := by
    intro u hu
    rw [hkeys]
    exact t.keys_commit (h.keys ▸ hu)
  have hrow : ∀ u d, (w.step env (.ingest t faults now)).delivery.get? u = some d →
      w.delivery.get? u = some d ∨ w.delivery.get? u = none ∧ d = { nextAttemptAt := now } := by
    intro u d hd
    rw [step, get?_mapVals] at hd
    obtain ⟨row, -, rfl⟩ := map_eq_some_iff.mp hd
    cases w.delivery.get? u with
    | none => exact .inr ⟨rfl, rfl⟩
    | some d => exact .inl rfl
  refine ⟨hsink.commit t, hkeys, fun k e he => hmono _ (h.held k e he), h.marking,
    fun u d hd hp => ?_, fun u t ht => hmono _ (h.claimedAt u t ht), fun u d t hd ht => ?_⟩
  · rcases hrow u d hd with hd | ⟨-, rfl⟩
    · exact h.published u d hd hp
    · cases hp
  rcases hrow u d hd with hd | ⟨hnone, -⟩
  · exact h.next u d t hd ht
  · exact absurd (h.claimedAt u t ht) (get?_eq_none.mp hnone)

theorem claimable_of_mem_claimed {limit : Int} {now : Time}
    {locked : List Uuid} (h : u ∈ Sentinel.claimed t limit now locked) :
    ∃ d, t.get? u = some d ∧ d.Claimable now := by
  obtain ⟨r, hr, rfl⟩ := mem_map.mp h
  have hmem := mem_filter.mp ((perm_insertionSort _ _).mem_iff.mp (mem_of_mem_take hr))
  exact ⟨r.2, get?_eq_some.mpr hmem.1, (of_decide_eq_true hmem.2).1⟩

theorem callId_of_entryOf {outbox : Table Uuid OutboxRow}
    (h : entryOf outbox t u = some e) : e.callId = u := by
  unfold entryOf at h
  split at h
  · cases h
    rfl
  · cases h

theorem Sound.claim (h : w.Sound env) (k : Nat) (batch : Int) (now : Time) (locked : List Uuid)
    (fault : Fault) : (w.step env (.claim k batch now locked fault)).Sound env := by
  unfold step
  dsimp only
  split
  · set us := Sentinel.claimed w.delivery (batchSize batch) now locked with hus
    set delivery := w.delivery.mapVals fun u d => if u ∈ us then d.claim now else d with hdelivery
    have hkeys : delivery.keys = w.delivery.keys := keys_mapVals _ _
    have hmem : ∀ u ∈ us, u ∈ w.delivery.keys := by
      intro u hu
      obtain ⟨d, hd, -⟩ := claimable_of_mem_claimed hu
      exact mem_keys_of_get? hd
    have hrow : ∀ u d, delivery.get? u = some d → ∃ d₀, w.delivery.get? u = some d₀ ∧
        d = if u ∈ us then d₀.claim now else d₀ := by
      intro u d hd
      rw [hdelivery, get?_mapVals] at hd
      obtain ⟨d₀, hd₀, rfl⟩ := map_eq_some_iff.mp hd
      exact ⟨d₀, hd₀, rfl⟩
    have hclaimed : Sound env { w with
        delivery, claimedAt := fun u => if u ∈ us then some now else w.claimedAt u } := by
      refine ⟨h.queues, hkeys.trans h.keys, hkeys ▸ h.held, h.marking, fun u d hd hp => ?_,
        fun u t ht => ?_, fun u d t hd ht => ?_⟩
      · obtain ⟨d₀, hd₀, rfl⟩ := hrow u d hd
        refine h.published u d₀ hd₀ ?_
        split at hp
        · exact hp
        · exact hp
      · rw [hkeys]
        by_cases hu : u ∈ us
        · exact hmem u hu
        · exact h.claimedAt u t (by simpa only [if_neg hu] using ht)
      obtain ⟨d₀, hd₀, rfl⟩ := hrow u d hd
      by_cases hu : u ∈ us
      · simp only [if_pos hu, some.injEq] at ht ⊢
        rw [← ht]
        exact Int.add_le_add_left (min_le_left _ _) now
      simp only [if_neg hu] at ht ⊢
      exact h.next u d₀ t hd₀ ht
    refine hclaimed.setDrainer (fun e he => ?_) (fun e rest hd => nomatch congrArg Drainer.task hd)
    rw [hkeys]
    split at he
    · exact absurd he not_mem_nil
    obtain ⟨u, hu, he⟩ := mem_filterMap.mp he
    exact callId_of_entryOf he ▸ hmem u hu
  · exact h

theorem Sound.message (h : w.Sound env) (henv : env.callUuid = callUuidFromUlid)
    (he : e.callId ∈ w.delivery.keys) {m : FinalizeMessage} (hm : e.message = some m) :
    callUuidFromUlid m.callId = some e.callId := by
  obtain ⟨c, hc⟩ := h.queues.named e.callId (h.keys ▸ he)
  obtain ⟨t, ht, rfl⟩ := map_eq_some_iff.mp hm
  exact callUuidFromUlid_ulidFromUuid (henv ▸ hc) ht

theorem Sound.publish (h : w.Sound env) (henv : env.callUuid = callUuidFromUlid) (k : Nat)
    (fault : Fault) (error : String) : (w.step env (.publish k fault error)).Sound env := by
  unfold step
  dsimp only
  split
  next e rest hk =>
    have hheld : ∀ x ∈ e :: rest, x.callId ∈ w.delivery.keys := by
      have hall := h.held k
      rwa [hk] at hall
    split
    · exact h.setDrainer hheld fun x xs hd => nomatch congrArg Drainer.task hd
    next m hm =>
      have hnamed : callUuidFromUlid m.callId = some e.callId :=
        h.message henv (hheld e mem_cons_self) hm
      cases fault with
      | none =>
        refine (h.accept m).setDrainer hheld fun x xs hd => ?_
        obtain ⟨rfl, -⟩ := cons.inj (congrArg Drainer.entries hd)
        exact ⟨m, mem_append_right _ mem_cons_self, hnamed⟩
      | refused => exact h.setDrainer hheld fun x xs hd => nomatch congrArg Drainer.task hd
      | unreported =>
        exact (h.accept m).setDrainer hheld fun x xs hd => nomatch congrArg Drainer.task hd
  · exact h

theorem Sound.advance (h : w.Sound env) {rest : List OutboxEntry} {task : DrainTask}
    (hk : w.drainers k = ⟨e :: rest, task⟩) : (w.setDrainer k { entries := rest }).Sound env := by
  refine h.setDrainer (fun x hx => h.held k x ?_) fun x xs hd => nomatch congrArg Drainer.task hd
  rw [hk]
  exact mem_cons_of_mem e hx

theorem Sound.mark (h : w.Sound env) (k : Nat) (now : Time) (fault : Fault) :
    (w.step env (.mark k now fault)).Sound env := by
  unfold step
  dsimp only
  split
  next e rest hk =>
    split
    · exact h.advance hk
    refine Sound.advance (h.updateRow (fun d => d.nextAttemptAt_published now) ?_) hk
    exact fun d _ => .inr (h.marking k e rest hk)
  · exact h

theorem Sound.fail (h : w.Sound env) (k : Nat) (fault : Fault) :
    (w.step env (.fail k fault)).Sound env := by
  unfold step
  dsimp only
  split
  next e rest reason hk =>
    split
    · exact h.advance hk
    refine Sound.advance (h.updateRow (fun d => d.nextAttemptAt_failed reason) ?_) hk
    exact fun d hp => .inl (d.publishedAt_failed reason ▸ hp)
  · exact h

theorem Sound.step (h : w.Sound env) (henv : env.callUuid = callUuidFromUlid) (ev : RelayEvent) :
    (w.step env ev).Sound env := by
  cases ev with
  | ingest t faults now => exact h.ingest t faults now
  | claim k batch now locked fault => exact h.claim k batch now locked fault
  | publish k fault error => exact h.publish henv k fault error
  | mark k now fault => exact h.mark k now fault
  | fail k fault => exact h.fail k fault
  | crash k =>
    exact h.setDrainer (forall_mem_nil _) fun e rest hd =>
      nomatch congrArg Drainer.entries hd

theorem sound_empty : Sound env {} where
  queues := ⟨nofun, forall_mem_nil _, forall_mem_nil _⟩
  keys := rfl
  held := fun _ _ he => absurd he not_mem_nil
  marking := fun _ _ _ hd => nomatch congrArg Drainer.entries hd
  published := nofun
  claimedAt := nofun
  next := nofun

end Relay

/-- **The outbox loses no call and announces none in vain.** -/
theorem outbox_hands_over (parseTime : String → Option Time) (hasUser : String → String → Bool)
    (es : List RelayEvent) :
    let w := Runs.run (Relay.step (gatewayEnv parseTime hasUser)) {} es
    (∀ u row, w.sink.calls.get? u = some row →
      w.sink.outbox.keys.count u = (if row.ended.isSome then 1 else 0) ∧
      w.delivery.keys.count u = if row.ended.isSome then 1 else 0) ∧
    (∀ u d, w.delivery.get? u = some d → d.publishedAt.isSome →
      ∃ m ∈ w.accepted, callUuidFromUlid m.callId = some u) ∧
    ∀ u d, w.delivery.get? u = some d → d.publishedAt = none → ∀ t, w.claimedAt u = some t →
      ∀ now, t + fiveMinutes ≤ now → d.Claimable now := by
  intro w
  have h : w.Sound (gatewayEnv parseTime hasUser) :=
    Runs.run_invariant Relay.sound_empty (fun _ ev hw => hw.step rfl ev) es
  have hone : ∀ u row, w.sink.calls.get? u = some row →
      w.sink.outbox.keys.count u = if row.ended.isSome then 1 else 0 := by
    intro u row hrow
    split
    next hended =>
      exact count_eq_one_of_mem w.sink.outbox.nodup ((h.queues.ended u row hrow).mpr hended)
    next hopen => exact count_eq_zero.mpr fun hu => hopen ((h.queues.ended u row hrow).mp hu)
  refine ⟨fun u row hrow => ⟨hone u row hrow, h.keys ▸ hone u row hrow⟩, h.published, ?_⟩
  intro u d hd hopen t ht now hnow
  exact ⟨hopen, (h.next u d t hd ht).trans hnow⟩

def handedOverTwice : List RelayEvent :=
  let c := "01J6Q8X4Z0000000000000000A"
  [.ingest (.ensureCall (startBy alice c) "tenant-1" "device-1") [] 0,
    .ingest (.finishCall "tenant-1" (endOf c)) [.unreported] 0,
    .ingest (.finishCall "tenant-1" (endOf c)) [] 0,
    .claim 0 0 0 [] .none, .publish 0 .unreported "timeout", .crash 0,
    .claim 1 0 (2 * 10 ^ 9) [] .none, .publish 1 .none "", .mark 1 (3 * 10 ^ 9) .none]
where
  endOf (c : CallId) : CallEnd :=
    { callId := c, endedAt := "2026-09-01T10:20:00Z", reason := .hangup, lastSeq := fun _ => none }

example :
    let w := Runs.run (Relay.step (gatewayEnv (fun _ => some 0) fun _ _ => true)) {} handedOverTwice
    w.delivery.rows = [("0191ae8e-93e0-0000-0000-00000000000a",
      { attempt := 2, publishedAt := some (3 * 10 ^ 9), nextAttemptAt := 6 * 10 ^ 9 })] ∧
    w.accepted.map (·.callId) = ["01J6Q8X4Z0000000000000000A", "01J6Q8X4Z0000000000000000A"] := by
  decide +kernel

end Sentinel
