import Sentinel.Client.Ledger

/-!
# Segments that nobody will send

`pending_calls` lists the calls with work left, and `take_pending` reads a call's segments that are
not acknowledged.
-/

open List

namespace Sentinel.Spool

open Runs

variable {s s' : Spool} {r : SegmentRow} {c : CallId}

/-! ## Reading a segment -/

theorem isUnacked_of_mem_takePending {n : Nat} (h : r ∈ s.takePending c n) :
    s.isUnacked r = true := by
  have hr := mem_of_mem_take h
  rw [mem_insertionSort, mem_filter] at hr
  exact (Bool.and_eq_true_iff.mp hr.2).2

theorem mem_takePending_of_le {limit : Nat} (hr : r ∈ s.segments.rows)
    (hunacked : s.isUnacked r = true) (hlimit : s.segments.rows.length ≤ limit) :
    r ∈ s.takePending r.1.callId limit := by
  unfold takePending
  rw [take_of_length_le, mem_insertionSort, mem_filter]
  · exact ⟨hr, by simp [hunacked]⟩
  rw [length_insertionSort]
  exact (length_filter_le _ _).trans hlimit

def Found (s : Spool) (r : SegmentRow) : Prop :=
  r.1.callId ∈ s.pendingCalls ∧ ∃ n, ∀ limit, n ≤ limit → r ∈ s.takePending r.1.callId limit

structure Placed (s : Spool) (r : SegmentRow) : Prop where
  call : r.1.callId ∈ s.calls.keys
  unsealed : s.isSealed r.1.callId = false
  unacked : s.isUnacked r = true

theorem found_iff_placed (hr : r ∈ s.segments.rows) : s.Found r ↔ s.Placed r := by
  constructor
  · rintro ⟨hlisted, n, hread⟩
    obtain ⟨-, hcall, hunsealed⟩ := mem_pendingCalls.mp hlisted
    exact ⟨hcall, hunsealed, isUnacked_of_mem_takePending (hread n le_rfl)⟩
  rintro ⟨hcall, hunsealed, hunacked⟩
  exact ⟨mem_pendingCalls.mpr ⟨⟨r, hr, rfl⟩, hcall, hunsealed⟩, s.segments.rows.length,
    fun limit hlimit => mem_takePending_of_le hr hunacked hlimit⟩

def NoneStranded (ops : List SpoolOp) (s : Spool) : Prop :=
  (∀ r ∈ s.segments.rows, (∀ reason now, .sealCall r.1.callId reason now ∉ ops) → s.Found r) ∧
    ∀ c ∈ s.pendingCalls, ∃ limit, s.takePending c limit ≠ []

def BeginsFirst (ops : List SpoolOp) : Prop :=
  History.Each (fun before op => ∀ seg, op = .push seg →
    ∃ start now, .beginCall seg.1.callId start now ∈ before) ops

theorem noneStranded_of_placed (ops : List SpoolOp) (h : ∀ r ∈ s.segments.rows, s.Placed r) :
    NoneStranded ops s := by
  refine ⟨fun r hr _ => (found_iff_placed hr).mpr (h r hr), fun c hc => ?_⟩
  obtain ⟨⟨r, hr, rfl⟩, -, -⟩ := mem_pendingCalls.mp hc
  exact ⟨s.segments.rows.length, ne_nil_of_mem (mem_takePending_of_le hr (h r hr).unacked le_rfl)⟩

/-! ## What each operation does to the place of a segment -/

namespace Placed

theorem of_calls (h : s.Placed r) (hacks : s'.acks = s.acks) (hcall : r.1.callId ∈ s'.calls.keys)
    (hsealed : s'.isSealed r.1.callId = s.isSealed r.1.callId) : s'.Placed r where
  call := hcall
  unsealed := hsealed.trans h.unsealed
  unacked := by
    rw [isUnacked, hacks]
    exact h.unacked

theorem beginCall (h : s.Placed r) (c : CallId) (start : CallStart) (now : Nat) :
    (s.beginCall c start now).Placed r :=
  h.of_calls rfl ((s.beginCall_frames c start now r.1.callId).2.2.mpr (.inr h.call))
    (s.isSealed_beginCall c start now r.1.callId)

theorem endCall (h : s.Placed r) (c : CallId) (ce : CallEnd) : (s.endCall c ce).Placed r :=
  h.of_calls (s.endCall_acks c ce) ((s.endCall_frames c ce r.1.callId).2.2.mpr h.call)
    (s.isSealed_endCall c ce r.1.callId)

theorem ack (h : s.Placed r) (ch : Channel) (t : Nat) (hr : r ∈ (s.ack c ch t).1.segments.rows) :
    (s.ack c ch t).1.Placed r where
  call := h.call
  unsealed := h.unsealed
  unacked := by
    have hunacked := h.unacked
    unfold isUnacked at hunacked ⊢
    rw [ack_get?]
    by_cases hkey : (r.1.callId, r.1.channel) = (c, ch)
    · -- Whatever the acknowledgement covers, it has just deleted.
      obtain ⟨hc, hch⟩ := Prod.mk.inj hkey
      have habove := (mem_ack.mp hr).2
      rw [if_pos hkey]
      simp only [hc, hch, true_and, not_le] at habove
      simpa using habove
    · rwa [if_neg hkey]

theorem sealCall (h : s.Placed r) (code : ErrorCode) (now : Nat) (hne : r.1.callId ≠ c) :
    (s.sealCall c code now).1.Placed r :=
  h.of_calls rfl ((s.sealCall_frames c code now r.1.callId).2.2.mpr h.call) (by
    rw [isSealed_sealCall]
    simp [hne])

theorem vacuum (h : s.Placed r) (hr : r ∈ s.segments.rows) : s.vacuumFinishedCalls.1.Placed r := by
  have hkept : s.vacuumFinishedCalls.1.calls.get? r.1.callId = s.calls.get? r.1.callId := by
    rw [vacuumFinishedCalls, Table.get?_filter]
    cases hget : s.calls.get? r.1.callId with
    | none => rfl
    | some call =>
      have hmem : r.1.callId ∈ s.segments.rows.map fun r => r.1.callId :=
        mem_map_of_mem hr
      simp [hmem]
  refine h.of_calls rfl ?_ ?_
  · rw [← Table.isSome_get?, hkept, Table.isSome_get?]
    exact h.call
  rw [isSealed, hkept]
  rfl

end Placed

/-! ## Runs -/

def Lands (l : Ledger) : SpoolOp → Prop
  | .push seg => l.spool.isSealed seg.1.callId = false →
      seg.1.callId ∈ l.spool.calls.keys ∧ l.spool.isUnacked seg = true
  | _ => True

instance (l : Ledger) : ∀ op, Decidable (Lands l op)
  | .push _ => inferInstanceAs (Decidable (_ → _ ∧ _))
  | .beginCall .. | .ack .. | .sealCall .. | .endCall .. | .vacuum => .isTrue trivial

theorem push_placed {seg : SegmentRow} {ev : Option ClientEvent} (h : s.push seg = .ok (s', ev))
    (hr : r ∈ s'.segments.rows) :
    (r ∈ s.segments.rows ∨ r = seg) ∧ s.isSealed seg.1.callId = false ∧
      (s'.Placed r ↔ s.Placed r) := by
  obtain ⟨hsealed, hcalls, hacks, k, hshrinks, -⟩ := push_ok h
  refine ⟨(mem_insert.mp (hshrinks.mem hr)).imp id And.left, hsealed, ?_⟩
  have hsame : ∀ d, s'.isSealed d = s.isSealed d := fun d => by rw [isSealed, hcalls]; rfl
  exact ⟨fun hp => hp.of_calls hacks.symm (hcalls ▸ hp.call) (hsame _).symm,
    fun hp => hp.of_calls hacks (hcalls ▸ hp.call) (hsame _)⟩

theorem step_placed {l : Ledger} {op : SpoolOp} (h : ∀ r ∈ l.spool.segments.rows, l.spool.Placed r)
    (hop : Lands l op) : ∀ r ∈ (l.step op).spool.segments.rows, (l.step op).spool.Placed r := by
  intro r hr
  cases op with
  | beginCall c start now => exact (h r hr).beginCall c start now
  | push seg =>
    rw [Ledger.step] at hr ⊢
    cases hpush : l.spool.push seg with
    | error e =>
      rw [hpush] at hr
      exact h r hr
    | ok result =>
      obtain ⟨s', ev⟩ := result
      rw [hpush] at hr
      obtain ⟨hmem, hsealed, hplaced⟩ := push_placed hpush hr
      refine hplaced.mpr ?_
      rcases hmem with hmem | rfl
      · exact h r hmem
      obtain ⟨hcall, hunacked⟩ := hop hsealed
      exact ⟨hcall, hsealed, hunacked⟩
  | ack c ch t => exact (h r (mem_ack.mp hr).1).ack ch t hr
  | sealCall c reason now =>
    obtain ⟨hmem, hne⟩ := (mem_sealCall c reason now).mp hr
    exact (h r hmem).sealCall reason now hne
  | endCall c ce =>
    have hmem : r ∈ l.spool.segments.rows := by
      rwa [Ledger.step, endCall_segments] at hr
    exact (h r hmem).endCall c ce
  | vacuum => exact (h r hr).vacuum hr

def Ledger.opened (limits : SpoolLimits) : Ledger := { spool := { limits } }

/-- **Nothing is stranded in a run in which every push lands.** -/
theorem noneStranded_of_lands (limits : SpoolLimits) (ops : List SpoolOp) :
    (Along Ledger.step Lands (.opened limits) ops →
      NoneStranded ops (run Ledger.step (.opened limits) ops).spool) ∧
    ∀ seg, (∀ reason now, .sealCall seg.1.callId reason now ∉ ops) →
      seg ∈ (run Ledger.step (.opened limits) (ops ++ [.push seg])).spool.segments.rows →
      ¬ Lands (run Ledger.step (.opened limits) ops) (.push seg) →
      ¬ NoneStranded (ops ++ [.push seg])
        (run Ledger.step (.opened limits) (ops ++ [.push seg])).spool := by
  constructor
  · intro h
    refine noneStranded_of_placed ops (h.invariant (I := fun l : Ledger =>
      ∀ r ∈ l.spool.segments.rows, l.spool.Placed r) ?_ fun l op => step_placed)
    exact forall_mem_nil _
  · intro seg hsealed hstored hnot hnone
    have hfound := hnone.1 seg hstored (by simpa using hsealed)
    have hplaced := (found_iff_placed hstored).mp hfound
    rw [run_concat, Ledger.step] at hstored hplaced
    set l := run Ledger.step (.opened limits) ops
    cases hpush : l.spool.push seg with
    | error e =>
      rw [hpush] at hplaced
      exact hnot fun _ => ⟨hplaced.call, hplaced.unacked⟩
    | ok result =>
      obtain ⟨s', ev⟩ := result
      rw [hpush] at hstored hplaced
      have hbefore := (push_placed hpush hstored).2.2.mp hplaced
      exact hnot fun _ => ⟨hbefore.call, hbefore.unacked⟩

/-! ## Concrete runs -/

def callOne : CallStart where
  callId := "call-1"
  startedAt := ""
  userUid := "alice"
  deviceId := "device-1"

def oneByte (q : Nat) : SegmentRow :=
  (⟨"call-1", .far, q⟩, { timestampMs := 0, flags := {}, payload := [0], createdMs := q })

def ackedRun : List SpoolOp :=
  [.beginCall "call-1" callOne 0, .push (oneByte 0), .push (oneByte 1), .ack "call-1" .far 0]

theorem ackedRun_noneStranded :
    (run Ledger.step (.opened {}) ackedRun).spool.segments.rows = [oneByte 1] ∧
      NoneStranded ackedRun (run Ledger.step (.opened {}) ackedRun).spool :=
  ⟨by decide, (noneStranded_of_lands {} ackedRun).1 (by decide)⟩

def pushedAgain : List SpoolOp :=
  [.beginCall "call-1" callOne 0, .push (oneByte 0), .ack "call-1" .far 0, .push (oneByte 0)]

def pushedLate : List SpoolOp :=
  [.beginCall "call-1" callOne 0, .endCall "call-1" ⟨"call-1", "", .hangup, fun _ => none⟩,
    .vacuum, .push (oneByte 0)]

/-- Both strand a segment; after the first, the call is listed and has nothing to send. -/
theorem pushedAgain_strands :
    (BeginsFirst pushedAgain ∧
        "call-1" ∈ (run Ledger.step (.opened {}) pushedAgain).spool.pendingCalls ∧
        (∀ limit,
          (run Ledger.step (.opened {}) pushedAgain).spool.takePending "call-1" limit = []) ∧
        ¬ NoneStranded pushedAgain (run Ledger.step (.opened {}) pushedAgain).spool) ∧
      BeginsFirst pushedLate ∧
        ¬ NoneStranded pushedLate (run Ledger.step (.opened {}) pushedLate).spool := by
  have hagain : ∀ limit,
      (run Ledger.step (.opened {}) pushedAgain).spool.takePending "call-1" limit = [] := by
    intro limit
    exact take_nil
  have hlisted : "call-1" ∈ (run Ledger.step (.opened {}) pushedAgain).spool.pendingCalls := by
    decide
  refine ⟨⟨?_, hlisted, hagain, fun h => ?_⟩, ?_, fun h => ?_⟩
  · refine (((History.each_nil.concat ?_).concat ?_).concat ?_).concat ?_ <;> rintro seg ⟨⟩
    all_goals exact ⟨callOne, 0, by simp [oneByte]⟩
  · obtain ⟨limit, hlimit⟩ := h.2 "call-1" hlisted
    exact hlimit (hagain limit)
  · refine (((History.each_nil.concat ?_).concat ?_).concat ?_).concat ?_ <;> rintro seg ⟨⟩
    exact ⟨callOne, 0, by simp [oneByte]⟩
  · have hfound := h.1 (oneByte 0) (by decide) (by simp [pushedLate])
    exact absurd (mem_pendingCalls.mp hfound.1).2.1 (by decide)

end Sentinel.Spool
