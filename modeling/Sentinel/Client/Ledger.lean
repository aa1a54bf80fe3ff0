import Sentinel.Lib.Runs
import Sentinel.Client.Spool

/-!
# The books of the spool

Rows leave the spool by four statements, each of which reports a count.
-/

open List Table

namespace Sentinel

open Runs

/-! ## Counting rows -/

inductive SpoolOp where
  | beginCall (callId : CallId) (start : CallStart) (nowMs : Nat)
  | push (seg : SegmentRow)
  | ack (callId : CallId) (channel : Channel) (throughSeq : Nat)
  | sealCall (callId : CallId) (reason : ErrorCode) (nowMs : Nat)
  | endCall (callId : CallId) (ce : CallEnd)
  | vacuum

structure Spool.Ledger where
  spool : Spool
  inserted : Nat := 0
  acked : Nat := 0
  evicted : Nat := 0

namespace Spool.Ledger

def lost (ev : Option ClientEvent) : Nat := (ev.bind (·.count)).getD 0

def step (l : Ledger) : SpoolOp → Ledger
  | .beginCall c start now => { l with spool := l.spool.beginCall c start now }
  | .push seg =>
    match l.spool.push seg with
    | .error _ => l
    | .ok (s, ev) =>
      { l with
        spool := s
        inserted := l.inserted + if seg.1 ∈ l.spool.segments.keys then 0 else 1
        evicted := l.evicted + lost ev }
  | .ack c ch t =>
    { l with spool := (l.spool.ack c ch t).1, acked := l.acked + (l.spool.ack c ch t).2 }
  | .sealCall c reason now =>
    { l with
      spool := (l.spool.sealCall c reason now).1
      evicted := l.evicted + lost (some (l.spool.sealCall c reason now).2) }
  | .endCall c ce => { l with spool := l.spool.endCall c ce }
  | .vacuum => { l with spool := l.spool.vacuumFinishedCalls.1 }

def accounted (l : Ledger) : Nat := l.spool.segments.rows.length + l.acked + l.evicted

theorem length_insert (s : Spool) (seg : SegmentRow) : (s.insert seg).segments.rows.length =
      s.segments.rows.length + if seg.1 ∈ s.segments.keys then 0 else 1 := by
  rw [Spool.insert]
  by_cases hk : seg.1 ∈ s.segments.keys
  · rw [insertNew_of_mem hk, if_pos hk, Nat.add_zero]
  · rw [rows_insertNew_of_not_mem hk, if_neg hk, length_append, length_singleton]

theorem lost_ite {k : Nat} {e : ClientEvent} (h : e.count = some k) :
    lost (if k = 0 then none else some e) = k := by
  split
  · rename_i hk
    rw [hk]
    rfl
  · simp [lost, h]

theorem step_accounted (l : Ledger) (op : SpoolOp) :
    (l.step op).accounted + l.inserted = l.accounted + (l.step op).inserted := by
  cases op with
  | beginCall | vacuum => rfl
  | push seg =>
    rw [step]
    cases hpush : l.spool.push seg with
    | error e => rfl
    | ok r =>
      obtain ⟨s, ev⟩ := r
      obtain ⟨-, -, -, k, hshrinks, hev⟩ := Spool.push_ok hpush
      have hrows := hshrinks.length
      rw [length_insert] at hrows
      have hlost : lost ev = k := by rw [hev, lost_ite rfl]
      simp only [accounted, hlost]
      omega
  | ack c ch t =>
    have hrows : l.spool.segments.rows.length = (l.spool.ack c ch t).1.segments.rows.length +
        (l.spool.ack c ch t).2 := (shrinks_filter _ _).length
    simp only [step, accounted]
    omega
  | sealCall c reason now =>
    obtain ⟨k, hshrinks, hev⟩ := l.spool.sealCall_spec c reason now
    have hrows := hshrinks.length
    have hlost : lost (some (l.spool.sealCall c reason now).2) = k := by rw [hev]; rfl
    simp only [step, accounted, hlost]
    omega
  | endCall c ce => simp only [step, accounted, Spool.endCall_segments]

theorem run_accounted (l : Ledger) (ops : List SpoolOp) :
    (run step l ops).accounted + l.inserted = l.accounted + (run step l ops).inserted := by
  induction ops generalizing l with
  | nil => rfl
  | cons op ops ih =>
    have hstep := l.step_accounted op
    have hrun := ih (l.step op)
    rw [run_cons]
    omega

end Spool.Ledger

/-! ## Acknowledgements in any order -/

abbrev Acknowledgement := (CallId × Channel) × Nat

def highest (as : List Acknowledgement) (k : CallId × Channel) : Option Nat :=
  ((as.filter fun a => a.1 = k).map Prod.snd).max?

theorem max?_concat (l : List Nat) (x : Nat) :
    (l ++ [x]).max? = some (l.max?.elim x fun m => max m x) := by
  cases l with
  | nil => rfl
  | cons a l => rw [cons_append, max?_cons', max?_cons', foldl_append]; rfl

theorem highest_concat_self (as : List Acknowledgement) (k : CallId × Channel) (t : Nat) :
    highest (as ++ [(k, t)]) k = some ((highest as k).elim t fun m => max m t) := by
  simp [highest, filter_append, max?_concat]

theorem highest_concat_ne (as : List Acknowledgement) {k j : CallId × Channel} (h : j ≠ k)
    (t : Nat) : highest (as ++ [(j, t)]) k = highest as k := by
  simp [highest, filter_append, h]

namespace Spool

def ackAll (s : Spool) (as : List Acknowledgement) : Spool :=
  run (fun s a => (s.ack a.1.1 a.1.2 a.2).1) s as

variable (s : Spool)

variable (as : List Acknowledgement)

theorem ackAll_concat (k : CallId × Channel) (t : Nat) :
    s.ackAll (as ++ [(k, t)]) = ((s.ackAll as).ack k.1 k.2 t).1 :=
  run_concat

theorem ackAll_calls : (s.ackAll as).calls = s.calls ∧ (s.ackAll as).limits = s.limits := by
  induction as using reverseRecOn with
  | nil => exact ⟨rfl, rfl⟩
  | append_singleton as a ih => exact (s.ackAll_concat as a.1 a.2).symm ▸ ih

theorem effectiveAck_mono (c : CallId) (ch : Channel) {t u : Nat} (h : t ≤ u) :
    s.effectiveAck c ch t ≤ s.effectiveAck c ch u := by
  unfold effectiveAck
  split
  · exact max_le_max le_rfl h
  · exact h

theorem effectiveAck_of_acks {s s' : Spool} {k : CallId × Channel} {h : Option Nat}
    (hacks : s'.acks.get? k = h.elim (s.acks.get? k) fun t => some (s.effectiveAck k.1 k.2 t))
    (t : Nat) : s'.effectiveAck k.1 k.2 t = s.effectiveAck k.1 k.2 (h.elim t fun m => max m t) := by
  rw [effectiveAck, hacks]
  cases h with
  | none => rfl
  | some m =>
    simp only [Option.elim_some, effectiveAck]
    cases s.acks.get? (k.1, k.2) with
    | none => rfl
    | some old => simp only [Nat.max_assoc]

theorem ackAll_acks (k : CallId × Channel) : (s.ackAll as).acks.get? k =
      (highest as k).elim (s.acks.get? k) fun t => some (s.effectiveAck k.1 k.2 t) := by
  induction as using reverseRecOn with
  | nil => rfl
  | append_singleton as a ih =>
    obtain ⟨j, t⟩ := a
    rw [ackAll_concat, ack_get?]
    by_cases hj : k = (j.1, j.2)
    · obtain rfl : k = j := hj
      rw [if_pos rfl, highest_concat_self, Option.elim_some, effectiveAck_of_acks ih]
    · rw [if_neg hj, ih, highest_concat_ne as (fun he => hj he.symm)]

def survives (s : Spool) (as : List Acknowledgement) (r : SegmentRow) : Bool :=
  (highest as (r.1.callId, r.1.channel)).elim true fun t =>
    s.effectiveAck r.1.callId r.1.channel t < r.1.seq

theorem ackAll_segments : (s.ackAll as).segments = s.segments.filter (s.survives as) := by
  induction as using reverseRecOn with
  | nil => exact Table.ext (filter_eq_self.mpr fun _ _ => rfl).symm
  | append_singleton as a ih =>
    obtain ⟨k, t⟩ := a
    refine Table.ext ?_
    rw [ackAll_concat, ack, rows_filter, ih, rows_filter, filter_filter, rows_filter]
    refine filter_congr fun r _ => ?_
    by_cases hk : k = (r.1.callId, r.1.channel)
    · -- What survived the earlier ones is cut at the higher mark.
      subst hk
      have heff := effectiveAck_of_acks (s.ackAll_acks as (r.1.callId, r.1.channel)) t
      rw [survives, survives, highest_concat_self, Option.elim_some, heff]
      cases highest as (r.1.callId, r.1.channel) with
      | none =>
        simp only [Option.elim_none, true_and, not_le, Bool.and_true]
        exact decide_eq_decide.mpr Iff.rfl
      | some m =>
        have hmono := s.effectiveAck_mono r.1.callId r.1.channel (Nat.le_max_left m t)
        simp only [Option.elim_some, true_and, not_le, ← Bool.decide_and]
        exact decide_eq_decide.mpr ⟨fun h => h.1, fun h => ⟨h, hmono.trans_lt h⟩⟩
    have hne : ¬ (r.1.callId = k.1 ∧ r.1.channel = k.2 ∧
        r.1.seq ≤ (s.ackAll as).effectiveAck k.1 k.2 t) :=
      fun h => hk (Prod.ext h.1.symm h.2.1.symm)
    rw [survives, survives, highest_concat_ne as hk, decide_eq_true hne, Bool.true_and]

structure SameRows (s s' : Spool) : Prop where
  segments : s.segments = s'.segments
  calls : s.calls = s'.calls
  acks : s.acks.rows.Perm s'.acks.rows
  limits : s.limits = s'.limits

theorem sameRows_ackAll {as bs : List Acknowledgement}
    (h : ∀ k, highest as k = highest bs k) : SameRows (s.ackAll as) (s.ackAll bs) where
  segments := by
    have hsurvives : s.survives as = s.survives bs := by
      funext r
      rw [survives, survives, h]
    rw [ackAll_segments, ackAll_segments, hsurvives]
  calls := (s.ackAll_calls as).1.trans (s.ackAll_calls bs).1.symm
  acks := by
    refine (perm_ext_iff_of_nodup (nodup _).of_map (nodup _).of_map).mpr ?_
    rintro ⟨k, t⟩
    rw [← get?_eq_some, ← get?_eq_some, ackAll_acks, ackAll_acks, h]
  limits := (s.ackAll_calls as).2.trans (s.ackAll_calls bs).2.symm

/-- **The books of the spool.** -/
theorem books (s : Spool) (ops : List SpoolOp) (as bs : List Acknowledgement)
    (h : ∀ k, highest as k = highest bs k) :
    s.segments.rows.length + (run Ledger.step { spool := s } ops).inserted =
        (run Ledger.step { spool := s } ops).spool.segments.rows.length +
          (run Ledger.step { spool := s } ops).acked +
          (run Ledger.step { spool := s } ops).evicted ∧
      SameRows (s.ackAll as) (s.ackAll bs) :=
  ⟨(Ledger.run_accounted { spool := s } ops).symm, s.sameRows_ackAll h⟩

/-- Three segments; acknowledgements of the first two, one of them late and one repeated. -/
theorem books_outOfOrder :
    (run Ledger.step { spool := {} } [.push (⟨"call-1", .far, 0⟩, ⟨0, {}, [0], 0⟩),
        .push (⟨"call-1", .far, 1⟩, ⟨1000, {}, [0], 1000⟩), .ack "call-1" .far 0,
        .push (⟨"call-1", .near, 0⟩, ⟨0, {}, [0], 1000⟩), .sealCall "call-1" .quotaExceeded 2000,
        .vacuum]).inserted = 3 ∧
      SameRows (ackAll {} [(("call-1", .far), 1), (("call-1", .far), 0), (("call-1", .near), 0)])
        (ackAll {} [(("call-1", .near), 0), (("call-1", .far), 1), (("call-1", .far), 1)]) := by
  refine ⟨by decide, (books {} [] _ _ fun k => ?_).2⟩
  by_cases hfar : ("call-1", Channel.far) = k
  · subst hfar
    decide
  · by_cases hnear : ("call-1", Channel.near) = k
    · subst hnear
      decide
    · simp [highest, hfar, hnear]

end Spool

end Sentinel
