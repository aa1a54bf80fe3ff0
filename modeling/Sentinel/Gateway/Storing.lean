import Sentinel.Gateway.Fatal
import Sentinel.Gateway.Watermark

/-!
# When every record is stored

`PutSegment` is reached if the call is open on the connection, and succeeds if the call has a row of
the connection's tenant.
-/

open Table

open Option

namespace Sentinel

open Sink

def Untroubled (faults : List Fault) : Prop := ∀ f ∈ faults, f = .none

instance (faults : List Fault) : Decidable (Untroubled faults) :=
  inferInstanceAs (Decidable (∀ f ∈ faults, _))

namespace Sink

def visible (env : SinkEnv) (s : Sink) (tenant : String) (c : CallId) : Bool :=
  ((env.callUuid c).bind s.calls.get?).any (·.tenantId = tenant)

def admits (env : SinkEnv) (s : Sink) (tenant : String) (cs : CallStart) : Bool :=
  (env.parseTime cs.startedAt).isSome && (env.callUuid cs.callId).any fun u =>
    match s.calls.get? u with
    | some row => row.tenantId = tenant
    | none => env.hasUser cs.userUid tenant

variable {env : SinkEnv} {s : Sink} {tenant device : String} {c : CallId} {cs : CallStart}

theorem visible_iff : s.visible env tenant c = true ↔
      ∃ u row, env.callUuid c = some u ∧ s.calls.get? u = some row ∧ row.tenantId = tenant := by
  simp only [visible, any_row_iff, decide_eq_true_iff]

theorem admits_iff : s.admits env tenant cs = true ↔ ∃ u at_, env.callUuid cs.callId = some u ∧
      env.parseTime cs.startedAt = some at_ ∧
      (s.visible env tenant cs.callId = true ∨
        u ∉ s.calls.keys ∧ env.hasUser cs.userUid tenant = true) := by
  unfold admits
  rw [Bool.and_eq_true, isSome_iff_exists, any_eq_true]
  constructor
  · rintro ⟨⟨at_, hat⟩, u, hu, hcase⟩
    refine ⟨u, at_, hu, hat, ?_⟩
    split at hcase
    · rename_i row hrow
      exact .inl (visible_iff.mpr ⟨u, row, hu, hrow, of_decide_eq_true hcase⟩)
    rename_i hnone
    exact .inr ⟨get?_eq_none.mp hnone, hcase⟩
  rintro ⟨u, at_, hu, hat, hcase⟩
  refine ⟨⟨at_, hat⟩, u, hu, ?_⟩
  rcases hcase with hvisible | ⟨hnew, huser⟩
  · obtain ⟨v, row, hv, hrow, htenant⟩ := visible_iff.mp hvisible
    obtain rfl : u = v := some.inj (hu.symm.trans hv)
    rw [hrow]
    exact decide_eq_true htenant
  · rwa [get?_eq_none.mpr hnew]

/-! ## Faults are used up -/

theorem nextFault_fst (s : Sink) : s.nextFault.1 = s.faults.headD .none := by
  unfold nextFault
  split <;> simp [*]

theorem nextFault_faults (s : Sink) : s.nextFault.2.faults ⊆ s.faults := by
  unfold nextFault
  split
  · exact List.Subset.refl _
  rename_i f fs hfs
  rw [hfs]
  exact List.subset_cons_self f fs

theorem headD_of_untroubled {faults : List Fault} (h : Untroubled faults) :
    faults.headD .none = .none := by
  cases faults with
  | nil => rfl
  | cons f fs => exact h f List.mem_cons_self

theorem ensureCall_faults (env : SinkEnv) (s : Sink) (cs : CallStart) (tenant device : String) :
    (s.ensureCall env cs tenant device).1.faults ⊆ s.faults := by
  unfold ensureCall
  split
  · dsimp only
    split
    · exact s.nextFault_faults
    · split <;> exact s.nextFault_faults
  · exact List.Subset.refl _

theorem putSegment_faults (env : SinkEnv) (s : Sink) (tenant : String) (c : CallId)
    (r : MediaRecord) : (s.putSegment env tenant c r).1.faults ⊆ s.faults := by
  unfold putSegment
  split
  · dsimp only
    split
    · exact s.nextFault_faults
    split
    · exact s.nextFault_faults
    · split <;> exact s.nextFault_faults
  · exact List.Subset.refl _

theorem setWatermark_faults (env : SinkEnv) (s : Sink) (c : CallId) (ch : Channel) (t : Nat) :
    (s.setWatermark env c ch t).1.faults ⊆ s.faults := by
  unfold setWatermark
  split
  · dsimp only
    split
    · exact s.nextFault_faults
    · split <;> exact s.nextFault_faults
  · exact List.Subset.refl _

theorem finishCall_faults (env : SinkEnv) (s : Sink) (tenant : String) (ce : CallEnd) :
    (s.finishCall env tenant ce).1.faults ⊆ s.faults := by
  unfold finishCall
  split
  · dsimp only
    split
    · exact s.nextFault_faults
    split
    · split <;> exact s.nextFault_faults
    · exact s.nextFault_faults
  · exact List.Subset.refl _

/-! ## Transactions that succeed -/

theorem ensureCall_visible (h : s.admits env tenant cs = true)
    (hr : (s.ensureCall env cs tenant device).2 ≠ none) :
    (s.ensureCall env cs tenant device).1.visible env tenant cs.callId = true := by
  obtain ⟨u, at_, hu, hat, hcase⟩ := admits_iff.mp h
  obtain ⟨fs, hfs⟩ := nextFault_spec s
  unfold ensureCall at hr ⊢
  rw [hu, hat] at hr ⊢
  dsimp only at hr ⊢
  rw [hfs] at hr ⊢
  by_cases hrefused : s.nextFault.1 = .refused
  · rw [if_pos hrefused] at hr
    exact absurd rfl hr
  rw [if_neg hrefused] at hr ⊢
  by_cases hunreported : s.nextFault.1 = .unreported
  · rw [if_pos hunreported] at hr
    exact absurd rfl hr
  rw [if_neg hunreported]
  rcases hcase with hvisible | ⟨hnew, huser⟩
  · obtain ⟨v, row, hv, hrow, htenant⟩ := visible_iff.mp hvisible
    obtain rfl : u = v := some.inj (hu.symm.trans hv)
    have hkey : u ∈ s.calls.keys := mem_keys_of_get? hrow
    rw [if_neg (by simp [hkey])]
    exact visible_iff.mpr ⟨u, row, hu, hrow, htenant⟩
  rw [if_pos (by simp [hnew, huser])]
  refine visible_iff.mpr ⟨u, newCallRow cs tenant device at_, hu, ?_, rfl⟩
  rw [get?_insertNew_self, get?_eq_none.mpr hnew]
  rfl

theorem ensureCall_succeeds (h : s.admits env tenant cs = true)
    (hfault : s.faults.headD .none = .none) : (s.ensureCall env cs tenant device).2 ≠ none := by
  obtain ⟨u, at_, hu, hat, -⟩ := admits_iff.mp h
  unfold ensureCall
  rw [hu, hat]
  dsimp only
  rw [nextFault_fst, hfault, if_neg (by decide), if_neg (by decide)]
  exact some_ne_none _

theorem putSegment_succeeds (hfault : s.faults.headD .none = .none)
    (h : s.visible env tenant c = true) (r : MediaRecord) :
    (s.putSegment env tenant c r).2 = true := by
  obtain ⟨u, row, hu, hrow, htenant⟩ := visible_iff.mp h
  obtain ⟨fs, hfs⟩ := nextFault_spec s
  unfold putSegment
  rw [hu]
  dsimp only
  rw [nextFault_fst, hfault, if_neg (by decide), hfs]
  rw [hrow, if_neg (by simp [htenant]), if_neg (by decide)]

end Sink

namespace SinkEffect

variable {env : SinkEnv} {i : Input} {s : Session} {a b : Sink} {tenant : String} {c : CallId}

theorem visible_mono (h : SinkEffect env i s a b) (hc : a.visible env tenant c = true) :
    b.visible env tenant c = true := by
  obtain ⟨u, row, hu, hget, htenant⟩ := visible_iff.mp hc
  obtain ⟨row', hget', hsame, -⟩ := h.row_mono hget
  exact visible_iff.mpr ⟨u, row', hu, hget', hsame.trans htenant⟩

theorem admits_mono {cs : CallStart} (h : SinkEffect env i s a b)
    (hcs : a.admits env s.peer.tenantId cs = true) : b.admits env s.peer.tenantId cs = true := by
  obtain ⟨u, at_, hu, hat, hcase⟩ := admits_iff.mp hcs
  refine admits_iff.mpr ⟨u, at_, hu, hat, ?_⟩
  rcases hcase with hvisible | ⟨hnew, huser⟩
  · exact .inl (h.visible_mono hvisible)
  cases h with
  | create cs' v at' fs hi hpeer hv hnew' =>
    by_cases hne : u = v
    · subst hne
      refine .inl (visible_iff.mpr
        ⟨u, newCallRow cs' s.peer.tenantId s.peer.deviceId at', hu, ?_, rfl⟩)
      rw [get?_insertNew_self, get?_eq_none.mpr hnew']
      rfl
    refine .inr ⟨fun hkey => hnew ?_, huser⟩
    have hget := isSome_get?.mpr hkey
    rw [get?_insertNew_of_ne _ hne] at hget
    exact isSome_get?.mp hget
  | finish ce v row' at' fs hi hkey hv hrow _ hopen =>
    refine .inr ⟨fun hkey' => hnew ?_, huser⟩
    rcases mem_keys_put.mp hkey' with rfl | hkey'
    · exact mem_keys_of_get? hrow
    · exact hkey'
  | _ => exact .inr ⟨hnew, huser⟩

end SinkEffect

theorem Move.faults {env : SinkEnv} {now : Time} {i : Input} {src : MediaRecord → Prop} {x y : Ctx}
    (h : Move env now i src x y) : y.sink.faults ⊆ x.sink.faults := by
  cases h with
  | ensureFails | opens => exact ensureCall_faults ..
  | store | storeFails => exact putSegment_faults ..
  | acknowledge | markFails => exact setWatermark_faults ..
  | finish => exact finishCall_faults ..
  | _ => exact List.Subset.refl _

/-! ## A session that nothing stands in the way of -/

structure Ready (env : SinkEnv) (i : Input) (x : Ctx) : Prop where
  visible : ∀ c ∈ x.session.calls.keys, x.sink.visible env x.session.peer.tenantId c = true
  admits : ∀ cs, i = .frame (.callStart cs) → x.sink.admits env x.session.peer.tenantId cs = true
  opened : ∀ records, i = .frame (.media records) →
    ∀ r ∈ records, r.callId ∈ x.session.calls.keys
  orphans : x.session.orphans.rows = []

namespace Ready

variable {env : SinkEnv} {now : Time} {i : Input} {src : MediaRecord → Prop} {x y : Ctx}

theorem move (hm : Move env now i src x y) (h : Ready env i x) : Ready env i y where
  visible := by
    intro c hc
    rw [hm.peer_cfg.1]
    rcases hm.keys_new hc with hc | ⟨cs, r, hi, rfl, -, hr, he⟩
    · exact hm.sinkEffect.visible_mono (h.visible c hc)
    rw [he]
    exact ensureCall_visible (h.admits cs hi) (by rw [hr]; exact some_ne_none _)
  admits := by
    intro cs hi
    rw [hm.peer_cfg.1]
    exact hm.sinkEffect.admits_mono (h.admits cs hi)
  opened := fun records hi r hr => hm.keys_mono (h.opened records hi r hr)
  orphans := by
    have hnone := h.orphans
    cases hm with
    | buffer rec records hi hrec hsrc hst =>
      exact absurd (h.opened records hi rec hrec) (get?_eq_none.mp hst)
    | take c => simp [erase, hnone]
    | expire | expireQuietly => simp [Ctx.expireOrphans, hnone]
    | _ => exact hnone

end Ready

section Stored

variable {env : SinkEnv} {now : Time} {i : Input} {src R : MediaRecord → Prop} {x y : Ctx}
  {rec : MediaRecord}

structure Flows (env : SinkEnv) (R : MediaRecord → Prop) (i : Input) (x : Ctx) : Prop where
  ready : Ready env i x
  safe : x.Safe env R
  faults : Untroubled x.sink.faults

theorem Flows.move (henv : env.Faithful) (hR : ∀ r, R r → r.seq < 2 ^ 31)
    (hsrc : ∀ r, src r → R r) (hm : Move env now i src x y) (h : Flows env R i x) :
    Flows env R i y where
  ready := h.ready.move hm
  safe := Ctx.Safe.move henv hR hsrc hm h.safe
  faults := fun f hf => h.faults f (hm.faults hf)

theorem Moves.puts_mono (h : Moves env now i src x y) : x.sink.puts ⊆ y.sink.puts :=
  h.keeps (I := fun z => x.sink.puts ⊆ z.sink.puts)
    (fun _ _ hm hsub => List.Subset.trans hsub hm.sinkEffect.puts_mono) (List.Subset.refl _)

def OnePerKey (R : MediaRecord → Prop) : Prop :=
  ∀ r r', R r → R r' → r.callId = r'.callId → r.channel = r'.channel → r.seq = r'.seq → r = r'

theorem Ctx.storeRecord_stores (hone : OnePerKey R) (h : Flows env R i x) (hrec : R rec)
    (hopen : rec.callId ∈ x.session.calls.keys) :
    (x.storeRecord env rec).2 = true ∧ rec ∈ (x.storeRecord env rec).1.sink.puts := by
  obtain ⟨st, hst⟩ := isSome_iff_exists.mp (isSome_get?.mpr hopen)
  unfold Ctx.storeRecord
  rw [hst]
  dsimp only
  split
  · -- The watermark covers it, and what it covers is stored.
    rename_i hdurable
    simp only [Bool.and_eq_true, decide_eq_true_eq] at hdurable
    obtain ⟨r, hr, hcall, hchannel, hseq⟩ :=
      h.safe.session.channelOf hst rec.channel (Or.inl hdurable)
    refine ⟨rfl, ?_⟩
    rwa [hone rec r hrec (h.safe.sink.puts r hr) hcall.symm hchannel.symm hseq.symm]
  have hok : (x.sink.putSegment env x.session.peer.tenantId rec.callId rec).2 = true :=
    putSegment_succeeds (headD_of_untroubled h.faults) (h.ready.visible _ hopen) rec
  obtain ⟨segments, fs, puts, writes, he, -, ⟨-, hputs⟩ | ⟨hfail, -⟩⟩ :=
    putSegment_spec env x.sink x.session.peer.tenantId rec.callId rec
  · rw [hok, if_pos rfl, he, hputs]
    exact ⟨rfl, List.mem_append_right _ (List.mem_singleton.mpr rfl)⟩
  · cases hok.symm.trans hfail

theorem Ctx.onMedia_stores (now : Time) (hone : OnePerKey R) (h : Flows env R i x) (hrec : R rec)
    (hopen : rec.callId ∈ x.session.calls.keys) :
    (x.onMedia env rec now).2 = true ∧ rec ∈ (x.onMedia env rec now).1.sink.puts := by
  have hactive : Flows env R i { x with session := { x.session with lastActivity := now } } :=
    ⟨⟨h.ready.visible, h.ready.admits, h.ready.opened, h.ready.orphans⟩,
      ⟨h.safe.sink, ⟨h.safe.session.1, h.safe.session.2⟩, h.safe.out⟩, h.faults⟩
  obtain ⟨st, hst⟩ := isSome_iff_exists.mp (isSome_get?.mpr hopen)
  obtain ⟨hok, hmem⟩ := Ctx.storeRecord_stores hone hactive hrec hopen
  unfold Ctx.onMedia
  dsimp only
  rw [hst]
  rw [if_pos hok]
  have hacks : ∀ y : Ctx, Moves env now i R y (y.emitDueAcks env now) :=
    fun _ => Ctx.emitDueAcks_moves
  exact ⟨rfl, (hacks _).puts_mono hmem⟩

theorem Ctx.onRecords_stores (henv : env.Faithful) (hR : ∀ r, R r → r.seq < 2 ^ 31)
    (hone : OnePerKey R) {records : List MediaRecord} (hi : i = .frame (.media records))
    (hrecords : ∀ r ∈ records, R r) {rs : List MediaRecord} (hrs : rs ⊆ records)
    (h : Flows env R i x) : ∀ r ∈ rs, r ∈ (x.onRecords env now rs).sink.puts := by
  induction rs generalizing x with
  | nil => simp
  | cons rec rs ih =>
    have hrec := hrs List.mem_cons_self
    obtain ⟨hok, hmem⟩ := Ctx.onMedia_stores now hone h (hrecords rec hrec)
      (h.ready.opened records hi rec hrec)
    have hmoves : Moves env now i R x (x.onMedia env rec now).1 :=
      Ctx.onMedia_moves rec hi hrec (hrecords rec hrec)
    have hnext : Flows env R i (x.onMedia env rec now).1 :=
      hmoves.keeps (fun _ _ hm => Flows.move henv hR (fun _ hr => hr) hm) h
    have hrest : Moves env now i R (x.onMedia env rec now).1
        ((x.onMedia env rec now).1.onRecords env now rs) :=
      Ctx.onRecords_moves hi hrecords (List.subset_of_cons_subset hrs)
    unfold Ctx.onRecords
    dsimp only
    rw [if_pos hok]
    intro r hr
    rcases List.mem_cons.mp hr with rfl | hr
    · exact hrest.puts_mono hmem
    · exact ih (List.subset_of_cons_subset hrs) hnext r hr

end Stored

end Sentinel
