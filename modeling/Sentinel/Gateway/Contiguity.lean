import Sentinel.Lib.Contiguous
import Sentinel.Gateway.OneCall

/-!
# The watermark of a channel is exact

The gateway moves a channel's watermark as records are stored, with a set of those stored past a gap
and a buffer for records that overtake their `call.start`.
-/

open List Option Table

namespace Sentinel

open Runs Contiguous ChannelState Incoming

/-! ## One channel -/

namespace ChannelState

def next (cst : ChannelState) : Nat := if cst.started then cst.through + 1 else 0

def taken (cst : ChannelState) (q : Nat) : ChannelState :=
  if cst.started && q ≤ cst.through then cst else advance cst q

structure Exact (base : Option ℕ) (R : Set ℕ) (cst : ChannelState) : Prop where
  held : cst.held = {q | ∃ b ∈ base, q ≤ b} ∪ R
  resumed : ∀ b ∈ base, cst.started = true ∧ b ≤ cst.through
  gap : cst.next ∉ cst.ahead

variable {base : Option ℕ} {R : Set ℕ} {cst : ChannelState}

theorem exact_bare : cst.bare.Exact base R ↔ cst.Exact base R :=
  ⟨fun h => ⟨h.held, h.resumed, h.gap⟩, fun h => ⟨h.held, h.resumed, h.gap⟩⟩

theorem exact_resumed (base : Option ℕ) : (({} : ChannelState).resumed base).Exact base ∅ := by
  cases base with
  | none =>
    refine ⟨by ext q; simp [resumed, held], fun b hb => ?_, not_mem_nil⟩
    cases hb
  | some w =>
    refine ⟨by ext q; simp [resumed, held], fun b hb => ?_, not_mem_nil⟩
    cases hb
    exact ⟨rfl, le_rfl⟩

theorem Exact.mem_iff (h : cst.Exact base R) {q : ℕ} (hq : ∀ b ∈ base, b < q) :
    q ∈ R ↔ (cst.started = true ∧ q ≤ cst.through) ∨ q ∈ cst.ahead := by
  have hheld : q ∈ cst.held ↔ q ∈ {q | ∃ b ∈ base, q ≤ b} ∪ R := by rw [h.held]
  have hbase : ¬ ∃ b ∈ base, q ≤ b := fun ⟨b, hb, hle⟩ => absurd hle (not_le.mpr (hq b hb))
  refine Iff.trans ?_ hheld.symm
  exact ⟨.inr, fun hmem => hmem.resolve_left hbase⟩

theorem Exact.mem_watermark (h : cst.Exact base R) {t : ℕ} :
    t ∈ cst.watermark ↔ IsGreatest {t | Reaches base R t} t := by
  rw [ChannelState.mem_watermark]
  have hgap := h.gap
  unfold next at hgap
  cases hs : cst.started with
  | true =>
    rw [hs, if_pos rfl] at hgap
    have hgreatest : IsGreatest {t | Reaches base R t} cst.through := by
      refine isGreatest_iff.mpr
        ⟨⟨fun b hb => (h.resumed b hb).2, fun q hq hbase => ?_⟩, fun hR => ?_⟩
      · exact (h.mem_iff hbase).mpr (.inl ⟨hs, hq⟩)
      rcases (h.mem_iff fun b hb => Nat.lt_succ_of_le (h.resumed b hb).2).mp hR with hle | hahead
      · exact Nat.not_succ_le_self _ hle.2
      · exact hgap hahead
    exact ⟨fun ht => ht.2 ▸ hgreatest, fun ht => ⟨rfl, hgreatest.unique ht⟩⟩
  | false =>
    rw [hs, if_neg Bool.false_ne_true] at hgap
    have hnone : base = none := by
      refine eq_none_iff_forall_ne_some.mpr fun b hb => ?_
      exact Bool.false_ne_true (hs.symm.trans (h.resumed b hb).1)
    subst hnone
    refine iff_of_false (fun ht => Bool.false_ne_true ht.1) fun ht => ?_
    rcases (h.mem_iff fun b hb => by cases hb).mp
      (ht.1.2 0 (Nat.zero_le _) fun _ hb => by cases hb) with hle | hahead
    · exact Bool.false_ne_true (hs.symm.trans hle.1)
    · exact hgap hahead

end ChannelState

theorem absorb_gap (n : Nat) (cst : ChannelState) (h : cst.ahead.length ≤ n) :
    (absorb n cst).through + 1 ∉ (absorb n cst).ahead := by
  induction n generalizing cst with
  | zero =>
    rw [absorb, length_eq_zero_iff.mp (Nat.le_zero.mp h)]
    exact not_mem_nil
  | succ n ih =>
    rw [absorb]
    split
    · rename_i hnext
      refine ih _ ?_
      rw [length_erase_of_mem hnext]
      omega
    · assumption

theorem advance_gap {cst : ChannelState} (h : cst.next ∉ cst.ahead) (q : Nat) :
    (advance cst q).next ∉ (advance cst q).ahead := by
  have habsorb : ∀ cst : ChannelState, cst.started = true →
      (absorb cst.ahead.length cst).next ∉ (absorb cst.ahead.length cst).ahead := by
    intro cst hs
    obtain ⟨-, -, hstarted, -⟩ := absorb_spec cst.ahead.length cst
    rw [ChannelState.next, hstarted, hs, if_pos rfl]
    exact absorb_gap _ cst le_rfl
  unfold ChannelState.next at h
  unfold advance
  split
  · rename_i hs
    have hs : cst.started = false := by simpa using hs
    split
    · exact habsorb { cst with through := 0, started := true } rfl
    rename_i hq
    rw [hs, if_neg Bool.false_ne_true] at h
    rw [ChannelState.next]
    rw [hs, if_neg Bool.false_ne_true, mem_insert_iff, not_or]
    exact ⟨fun he => hq he.symm, h⟩
  rename_i hs
  have hs : cst.started = true := by simpa using hs
  split
  · exact habsorb { cst with through := q } hs
  rename_i hq
  rw [hs, if_pos rfl] at h
  rw [ChannelState.next]
  rw [hs, if_pos rfl, mem_insert_iff, not_or]
  exact ⟨fun he => hq he.symm, h⟩

namespace ChannelState

variable {base : Option ℕ} {R : Set ℕ} {cst : ChannelState}

theorem Exact.taken (h : cst.Exact base R) (q : ℕ) : (cst.taken q).Exact base (insert q R) := by
  have hinsert : insert q cst.held = {q | ∃ b ∈ base, q ≤ b} ∪ insert q R := by
    rw [h.held, Set.union_insert]
  unfold ChannelState.taken
  split
  · rename_i hold
    rw [Bool.and_eq_true, decide_eq_true_iff] at hold
    refine ⟨?_, h.resumed, h.gap⟩
    rw [← hinsert, Set.insert_eq_of_mem (.inl hold)]
  refine ⟨(held_advance cst q).trans hinsert, fun b hb => ?_, advance_gap h.gap q⟩
  obtain ⟨hs, hle⟩ := h.resumed b hb
  obtain ⟨-, -, honward⟩ := advance_spec cst q
  exact ⟨(honward hs).1, hle.trans (honward hs).2⟩

end ChannelState

/-! ## Runs -/

def seqsOf (os : List Orphan) (ch : Channel) : Set ℕ :=
  {q | ∃ o ∈ os, o.record.channel = ch ∧ o.record.seq = q}

def received (es : List Incoming) (c : CallId) (ch : Channel) : Set ℕ :=
  seqsOf (es.filterMap (Incoming.brings c)) ch

theorem seqsOf_nil (ch : Channel) : seqsOf [] ch = ∅ := by
  ext q
  simp [seqsOf]

theorem seqsOf_append (os ps : List Orphan) (ch : Channel) :
    seqsOf (os ++ ps) ch = seqsOf os ch ∪ seqsOf ps ch := by
  ext q
  simp only [seqsOf, mem_append, Set.mem_union, Set.mem_ofPred_eq, or_and_right, exists_or]

namespace Ctx

variable {env : SinkEnv} {now : Time} {x : Ctx} {a : Incoming} {c : CallId} {ch : Channel}
  {base : Option ℕ} {R : Set ℕ}

theorem exact_congr {s s' : Session} (h : s'.standing c = s.standing c)
    (hs : (s.channel c ch).Exact base R) : (s'.channel c ch).Exact base R := by
  rw [← exact_bare, Session.channel_bare] at hs ⊢
  rwa [h]

theorem setChannel_exact {o : Orphan} {st : CallState} {cst : ChannelState}
    (hst : x.session.calls.get? o.record.callId = some st)
    (hcst : cst.bare = ((channelOf st o.record.channel).taken o.record.seq).bare)
    (h : (x.session.channel o.record.callId ch).Exact base R) :
    ((x.setChannel o.record.callId st o.record.channel cst).session.channel o.record.callId
      ch).Exact base (R ∪ seqsOf [o] ch) := by
  rw [Session.channel_setChannel hst]
  by_cases hch : ch = o.record.channel
  · have hR : R ∪ seqsOf [o] ch = insert o.record.seq R := by
      ext q
      simp [seqsOf, hch, or_comm, eq_comm]
    rw [if_pos ⟨rfl, hch⟩, hR, ← exact_bare, hcst, exact_bare]
    rw [Session.channel_of_get? hst, hch] at h
    exact h.taken _
  have hR : R ∪ seqsOf [o] ch = R := by
    ext q
    simp [seqsOf, Ne.symm hch]
  rwa [if_neg fun he => hch he.2, hR]

theorem storeRecord_exact {o : Orphan} (hc : o.record.callId = c)
    (hopen : c ∈ x.session.calls.keys) (hok : (x.storeRecord env o.record).2 = true)
    (h : (x.session.channel c ch).Exact base R) :
    ((x.storeRecord env o.record).1.session.channel c ch).Exact base (R ∪ seqsOf [o] ch) := by
  subst hc
  have hs := x.storeRecord_stored env o.record
  generalize x.storeRecord env o.record = w at hs hok
  cases hs with
  | absent hst => exact absurd hopen (get?_eq_none.mp hst)
  | dropped st hst hstarted hold =>
    refine setChannel_exact hst ?_ h
    rw [taken, if_pos (by rw [hstarted]; exact decide_eq_true hold)]
    rfl
  | stored st hst hnew =>
    refine setChannel_exact (x := { x with sink := _ }) hst ?_ h
    have hnot : ¬ ((channelOf st o.record.channel).started &&
        decide (o.record.seq ≤ (channelOf st o.record.channel).through)) = true := by
      rw [Bool.and_eq_true, decide_eq_true_iff]
      exact fun hold => absurd hold.2 (not_le.mpr (hnew hold.1))
    rw [taken, if_neg hnot, advance_bare, advance_bare]
    rfl
  | failed => cases hok

theorem storeAll_exact {os : List Orphan} (hc : ∀ o ∈ os, o.record.callId = c)
    (hopen : c ∈ x.session.calls.keys) (hok : (storeAll env os x).2 = true)
    (h : (x.session.channel c ch).Exact base R) :
    ((storeAll env os x).1.session.channel c ch).Exact base (R ∪ seqsOf os ch) := by
  induction os generalizing x R with
  | nil => rwa [seqsOf_nil, Set.union_empty]
  | cons o os ih =>
    obtain ⟨ho, hos⟩ := forall_mem_cons.mp hc
    unfold storeAll at hok ⊢
    dsimp only at hok ⊢
    split at hok
    · rename_i hstored
      rw [if_pos hstored, ← singleton_append, seqsOf_append, ← Set.union_assoc]
      have hpart : Part env 0 (.media o.record) x (x.storeRecord env o.record).1 :=
        .store x o.record rfl
      exact ih hos (hpart.grows.2 c hopen) hok (storeRecord_exact ho hopen hstored h)
    · cases hok

theorem onMedia_exact {rec : MediaRecord} (hopen : rec.callId ∈ x.session.calls.keys)
    (hok : (x.onMedia env rec now).2 = true) (h : (x.session.channel rec.callId ch).Exact base R) :
    ((x.onMedia env rec now).1.session.channel rec.callId ch).Exact base
      (R ∪ seqsOf [⟨rec, now⟩] ch) := by
  obtain ⟨st, hst⟩ := isSome_iff_exists.mp (isSome_get?.mpr hopen)
  rw [onMedia_of_open env now hst] at hok ⊢
  split at hok
  · rename_i hstored
    rw [if_pos hstored]
    refine exact_congr (ackSelected_standing isDue_started _ rec.callId) ?_
    exact storeRecord_exact (x := x.active now) (o := ⟨rec, now⟩) rfl hopen hstored h
  · cases hok

theorem onCallEnd_exact {ce : CallEnd} (hopen : ce.callId ∈ x.session.calls.keys)
    (h : (x.session.channel ce.callId ch).Exact base R) :
    ((x.onCallEnd env ce now).1.session.channel ce.callId ch).Exact base R := by
  obtain ⟨st, hst⟩ := isSome_iff_exists.mp (isSome_get?.mpr hopen)
  have he := x.onCallEnd_ending env now hst
  generalize x.onCallEnd env ce now = w at he
  cases he with
  | finished =>
    refine exact_congr (ackSelected_standing (fun _ hs => hs) _ ce.callId) ?_
    rwa [Session.channel_endedAt (x := (x.active now).finished env ce) hst]
  | failed => exact h

theorem exact_step (hfiled : x.session.Filed) (hopen : c ∈ x.session.calls.keys)
    (hstart : a.starts ≠ some c) (hok : a.request.call = some c → (x.answer env a).2 = true)
    (h : (x.session.channel c ch).Exact base R) :
    ((x.step env a).session.channel c ch).Exact base (R ∪ seqsOf (a.brings c).toList ch) := by
  rw [step_session]
  by_cases hcall : a.request.call = some c
  · replace hok := hok hcall
    rcases media_or_callEnd hcall hstart with ⟨rec, hr, rfl⟩ | ⟨ce, hr, rfl⟩
    · rw [answer_media hr] at hok ⊢
      rw [brings_eq_some.mpr ⟨rec, hr, rfl, rfl⟩]
      exact onMedia_exact (x := x.facing a) hopen hok h
    have hbrings : a.brings ce.callId = none := by rw [brings, hr]
    rw [answer_callEnd hr, hbrings, toList_none, seqsOf_nil, Set.union_empty]
    exact onCallEnd_exact (x := x.facing a) hopen h
  rw [brings_of_call_ne hcall, toList_none, seqsOf_nil, Set.union_empty]
  refine exact_congr (s := x.session) ?_ h
  exact (answer_parts hfiled a).keeps (I := fun y => y.session.standing c = x.session.standing c)
    (fun _ _ hp hy => (hp.standing hcall).trans hy) rfl

def Unfailing (env : SinkEnv) (c : CallId) (x : Ctx) (a : Incoming) : Prop :=
  a.request.call = some c → (x.answer env a).2 = true

instance (env : SinkEnv) (c : CallId) (x : Ctx) (a : Incoming) : Decidable (Unfailing env c x a) :=
  inferInstanceAs (Decidable (_ → _))

theorem exact_run {es : List Incoming} (hfiled : x.session.Filed)
    (hopen : c ∈ x.session.calls.keys) (hstart : ∀ a ∈ es, a.starts ≠ some c)
    (hok : Along (step env) (Unfailing env c) x es) (h : (x.session.channel c ch).Exact base R) :
    ((run (step env) x es).session.channel c ch).Exact base (R ∪ received es c ch) := by
  induction es generalizing x R with
  | nil => rwa [received, filterMap_nil, seqsOf_nil, Set.union_empty]
  | cons a es ih =>
    obtain ⟨ha, hrest⟩ := forall_mem_cons.mp hstart
    have hreceived : received (a :: es) c ch =
        seqsOf (a.brings c).toList ch ∪ received es c ch := by
      rw [received, received, ← seqsOf_append, filterMap_cons]
      cases a.brings c <;> rfl
    rw [run_cons, hreceived, ← Set.union_assoc]
    exact ih (step_filed hfiled a) ((step_grows hfiled a).2 c hopen) hrest hok.2
      (exact_step hfiled hopen ha hok.1 h)

theorem afterOpen_exact {st : CallState} {existed : Bool} (hopen : c ∈ x.session.calls.keys)
    (hpending : ∀ o ∈ x.session.pending c, o.record.callId = c)
    (hok : (x.afterOpen env c st existed now).2 = true)
    (h : (x.session.channel c ch).Exact base R) :
    ((x.afterOpen env c st existed now).1.session.channel c ch).Exact base
      (R ∪ seqsOf (x.session.pending c) ch) := by
  rw [afterOpen_eq] at hok ⊢
  split at hok
  · rename_i hstored
    rw [if_pos hstored]
    refine exact_congr (ackSelected_standing isDue_started _ c) ?_
    refine storeAll_exact hpending ?_ hstored ?_
    · rwa [readied_session]
    · rwa [readied_session]
  · cases hok

theorem exact_start (hawaited : Awaited c x) (hstart : a.starts = some c)
    (hopen : c ∈ (x.step env a).session.calls.keys) (hok : (x.answer env a).2 = true)
    (ch : Channel) :
    ((x.step env a).session.channel c ch).Exact (x.sink.mark env c ch)
      (seqsOf (x.session.pending c) ch) := by
  obtain ⟨cs, hr, rfl⟩ := starts_eq_some.mp hstart
  rw [step_session] at hopen ⊢
  have hs := (x.facing a).onCallStart_started env a.now cs
  rw [← answer_callStart hr] at hs
  generalize x.answer env a = w at hs hopen hok
  cases hs with
  | mismatched | full | failed => exact absurd hopen hawaited.closed
  | opens _ _ existed =>
    have hkeys : cs.callId ∈ ((((x.facing a).active a.now).ensured env cs).opened env cs
        a.now).session.calls.keys :=
      mem_keys_put.mpr (.inl rfl)
    have hresumed : (((((x.facing a).active a.now).ensured env cs).opened env cs
        a.now).session.channel cs.callId ch).Exact (x.sink.mark env cs.callId ch) ∅ := by
      rw [channel_opened_fresh (x := x.facing a) env a.now hawaited.closed ch]
      exact exact_resumed _
    have hafter := afterOpen_exact hkeys (hawaited.filed.pending cs.callId) hok hresumed
    rwa [Set.empty_union] at hafter

end Ctx

/-! ## Exactness -/

structure Uploads (env : SinkEnv) (x : Ctx) (c : CallId) (pre : List Incoming) (e : Incoming)
    (post : List Incoming) : Prop where
  starts : e.starts = some c
  once : ∀ a ∈ pre ++ post, a.starts ≠ some c
  inTime : InTime x.session.cfg.orphanGrace c (pre ++ [e])
  opens : c ∈ (run (Ctx.step env) x (pre ++ [e])).session.calls.keys
  unfailing : Along (Ctx.step env) (Ctx.Unfailing env c) x (pre ++ e :: post)

variable {env : SinkEnv} {c : CallId} {pre post : List Incoming} {e : Incoming}

theorem Uploads.exact {peer : Peer} {cfg : Config} {v : Int} {t : Time} {sink : Sink}
    (h : Uploads env (opening peer cfg v t sink) c pre e post) (ch : Channel) :
    ((run (Ctx.step env) (opening peer cfg v t sink) (pre ++ e :: post)).session.channel c ch).Exact
      ((run (Ctx.step env) (opening peer cfg v t sink) pre).sink.mark env c ch)
      (received (pre ++ e :: post) c ch) := by
  have hawaited : Ctx.Awaited c (opening peer cfg v t sink) :=
    ⟨opening_filed peer cfg v t sink, not_mem_nil⟩
  have hnone : (opening peer cfg v t sink).session.pending c = [] := rfl
  generalize opening peer cfg v t sink = x at *
  have hpre : ∀ a ∈ pre, a.starts ≠ some c := fun a ha => h.once a (mem_append_left post ha)
  have hpost : ∀ a ∈ post, a.starts ≠ some c := fun a ha => h.once a (mem_append_right pre ha)
  have hbefore : Ctx.Awaited c (run (Ctx.step env) x pre) :=
    run_invariant_of_mem hawaited fun _ a ha hy => hy.step (hpre a ha)
  have hpending : (run (Ctx.step env) x pre).session.pending c =
      pre.filterMap (brings c) :=
    Ctx.pending_run hawaited hpre hnone h.inTime.of_append
  have hbrings : e.brings c = none := by
    obtain ⟨cs, hr, -⟩ := starts_eq_some.mp h.starts
    rw [brings, hr]
  obtain ⟨-, hok, hrest⟩ := along_append.mp h.unfailing
  have hopen := h.opens
  rw [run_concat] at hopen
  have hcall : e.request.call = some c := by
    obtain ⟨cs, hr, hc⟩ := starts_eq_some.mp h.starts
    rw [hr, ← hc]
    rfl
  have hstart := Ctx.exact_start hbefore h.starts hopen (hok hcall) ch
  have hrun := Ctx.exact_run (Ctx.step_filed hbefore.filed e) hopen hpost hrest hstart
  rw [run_append, run_cons]
  have hreceived : received (pre ++ e :: post) c ch =
      seqsOf (pre.filterMap (brings c)) ch ∪ received post c ch := by
    rw [received, received, filterMap_append, filterMap_cons_none hbrings, seqsOf_append]
  rwa [hreceived, ← hpending]

/-- **The watermark is exact.** -/
theorem watermark_exact (env : SinkEnv) (peer : Peer) (cfg : Config) (policyVersion : Int)
    (t : Time) (sink : Sink) (c : CallId) (pre : List Incoming) (e : Incoming)
    (post : List Incoming)
    (h : Uploads env (opening peer cfg policyVersion t sink) c pre e post) (ch : Channel) :
    (∀ q, (run (Ctx.step env) (opening peer cfg policyVersion t sink)
        (pre ++ e :: post)).session.watermark c ch = some q ↔
      IsGreatest {q | Reaches
        ((run (Ctx.step env) (opening peer cfg policyVersion t sink) pre).sink.mark env c ch)
        (received (pre ++ e :: post) c ch) q} q) ∧
      ∀ (peer' : Peer) (cfg' : Config) (policyVersion' : Int) (t' : Time) (sink' : Sink)
        (pre' : List Incoming) (e' : Incoming) (post' : List Incoming),
        Uploads env (opening peer' cfg' policyVersion' t' sink') c pre' e' post' →
        (run (Ctx.step env) (opening peer' cfg' policyVersion' t' sink') pre').sink.mark env c ch =
          (run (Ctx.step env) (opening peer cfg policyVersion t sink) pre).sink.mark env c ch →
        received (pre' ++ e' :: post') c ch = received (pre ++ e :: post) c ch →
        (run (Ctx.step env) (opening peer' cfg' policyVersion' t' sink')
            (pre' ++ e' :: post')).session.watermark c ch =
          (run (Ctx.step env) (opening peer cfg policyVersion t sink)
            (pre ++ e :: post)).session.watermark c ch := by
  refine ⟨fun q => (h.exact ch).mem_watermark, ?_⟩
  intro peer' cfg' policyVersion' t' sink' pre' e' post' h' hmark hreceived
  ext q
  refine ((h'.exact ch).mem_watermark).trans ?_
  rw [hmark, hreceived]
  exact ((h.exact ch).mem_watermark).symm

def startFirst : Incoming := { request := .callStart (startBy alice "call-1"), now := 2 }

def recordsAt (now : Time) (seqs : List Nat) : List Incoming :=
  seqs.map fun q => { request := .media (recordOf "call-1" q), now := now }

theorem received_recordsAt (s t : Time) (qs ps : List Nat) :
    received (recordsAt s qs ++ startFirst :: recordsAt t ps) "call-1" .far =
      {q | q ∈ qs ∨ q ∈ ps} := by
  ext q
  simp [received, seqsOf, recordsAt, startFirst, brings, recordOf, or_and_right, exists_or]

theorem uploads_overtaken :
    Uploads anyEnv (opening alice {} 0 0 {}) "call-1" (recordsAt 0 [2, 0]) startFirst
      (recordsAt 3 [0, 1, 4]) :=
  ⟨by decide, by decide, by decide, by decide, by decide⟩

theorem uploads_inOrder :
    Uploads anyEnv (opening alice {} 0 0 {}) "call-1" [] startFirst (recordsAt 3 [0, 1, 2, 4]) :=
  ⟨by decide, by decide, by decide, by decide, by decide⟩

/-- Out of order, with one sequence twice and the `call.start` in between, or in order: the
watermark ends at 2. -/
theorem watermark_exact_overtaken :
    (run (Ctx.step anyEnv) (opening alice {} 0 0 {})
        (recordsAt 0 [2, 0] ++ startFirst :: recordsAt 3 [0, 1, 4])).session.watermark
        "call-1" .far = some 2 ∧
    IsGreatest {q | Reaches
      ((run (Ctx.step anyEnv) (opening alice {} 0 0 {}) (recordsAt 0 [2, 0])).sink.mark anyEnv
        "call-1" .far)
      (received (recordsAt 0 [2, 0] ++ startFirst :: recordsAt 3 [0, 1, 4]) "call-1" .far) q} 2 ∧
    (run (Ctx.step anyEnv) (opening alice {} 0 0 {})
        ([] ++ startFirst :: recordsAt 3 [0, 1, 2, 4])).session.watermark "call-1" .far =
      (run (Ctx.step anyEnv) (opening alice {} 0 0 {})
        (recordsAt 0 [2, 0] ++ startFirst :: recordsAt 3 [0, 1, 4])).session.watermark
        "call-1" .far := by
  have h := watermark_exact anyEnv alice {} 0 0 {} "call-1" (recordsAt 0 [2, 0]) startFirst
    (recordsAt 3 [0, 1, 4]) uploads_overtaken .far
  refine ⟨by decide, (h.1 2).mp (by decide), h.2 alice {} 0 0 {} [] startFirst
    (recordsAt 3 [0, 1, 2, 4]) uploads_inOrder (by decide) ?_⟩
  refine (received_recordsAt 0 3 [] [0, 1, 2, 4]).trans ?_
  rw [received_recordsAt]
  ext q
  grind

end Sentinel
