import Mathlib.Algebra.GroupWithZero.Nat
import Sentinel.Lib.Table
import Sentinel.Protocol

/-!
# The disk spool

The spool (`spool.rs`) is a SQLite database of three tables: the segments, the calls with their
control frames, and the acknowledgements.
-/

open Table

open List Bool

namespace Sentinel

structure SegmentKey where
  callId : CallId
  channel : Channel
  seq : Nat
  deriving DecidableEq, Repr

structure SegmentBody where
  timestampMs : Nat
  flags : MediaFlags
  payload : List UInt8
  createdMs : Nat
  deriving DecidableEq, Repr

abbrev SegmentRow := SegmentKey × SegmentBody

def toRecord (row : SegmentRow) : MediaRecord where
  callId := row.1.callId
  channel := row.1.channel
  seq := row.1.seq
  timestampMs := row.2.timestampMs
  flags := row.2.flags
  payload := row.2.payload

structure SpoolCall where
  startJson : CallStart
  endJson : Option CallEnd := none
  isSealed : Bool := false
  createdMs : Nat

structure SpoolLimits where
  maxBytes : Nat := 2 * 1024 * 1024 * 1024
  maxAgeMs : Nat := 72 * 3600000

structure Spool where
  segments : Table SegmentKey SegmentBody := ∅
  calls : Table CallId SpoolCall := ∅
  acks : Table (CallId × Channel) Nat := ∅
  limits : SpoolLimits := {}

inductive SpoolError where
  | sealed (callId : CallId)
  deriving DecidableEq, Repr

def asI64 (n : Nat) : Int := Int.bmod n (2 ^ 64)

namespace Spool

/-! ## Calls -/

def beginCall (s : Spool) (callId : CallId) (start : CallStart) (nowMs : Nat) : Spool :=
  { s with calls := s.calls.insertNew callId { startJson := start, createdMs := nowMs } }

def endCall (s : Spool) (callId : CallId) (ce : CallEnd) : Spool :=
  match s.calls.get? callId with
  | some c => { s with calls := s.calls.put callId { c with endJson := some ce } }
  | none => s

def callStartJson (s : Spool) (callId : CallId) : Option CallStart :=
  (s.calls.get? callId).map (·.startJson)

def callEndJson (s : Spool) (callId : CallId) : Option CallEnd :=
  (s.calls.get? callId).bind (·.endJson)

def isSealed (s : Spool) (callId : CallId) : Bool :=
  ((s.calls.get? callId).map (·.isSealed)).getD false

def oldestOf (s : Spool) (callId : CallId) : Option Int :=
  ((s.segments.rows.filter fun r => r.1.callId = callId).map fun r => asI64 r.2.createdMs).min?

def pendingCalls (s : Spool) : List CallId :=
  let ids := (s.segments.rows.map fun r => r.1.callId).dedup.filter fun c =>
    c ∈ s.calls.keys ∧ !s.isSealed c
  ids.insertionSort fun c d => (s.oldestOf c).getD 0 ≤ (s.oldestOf d).getD 0

/-! ## Segments -/

def bytes (t : Table SegmentKey SegmentBody) : Nat :=
  (t.rows.map fun r => r.2.payload.length).sum

def evictOrder (a b : SegmentRow) : Bool :=
  let ca := asI64 a.2.createdMs
  let cb := asI64 b.2.createdMs
  ca < cb || (ca = cb && (a.1.callId < b.1.callId || (a.1.callId = b.1.callId &&
    (a.1.channel.asU8 < b.1.channel.asU8 || (a.1.channel = b.1.channel &&
      a.1.seq ≤ b.1.seq)))))

def evictOldest (t : Table SegmentKey SegmentBody) (batch : Nat) :
    Table SegmentKey SegmentBody :=
  let victims := ((t.rows.insertionSort fun a b => evictOrder a b).take batch).map Prod.fst
  t.filter fun r => r.1 ∉ victims

def evictLoop (maxBytes : Nat) :
    Nat → Table SegmentKey SegmentBody → Nat → Table SegmentKey SegmentBody × Nat
  | 0, t, evicted => (t, evicted)
  | fuel + 1, t, evicted =>
    if bytes t ≤ maxBytes then (t, evicted)
    else
      let excess := bytes t - maxBytes
      let t' := evictOldest t (min (max (excess / 3000) 1) 1000)
      let n := t.rows.length - t'.rows.length
      if n = 0 then (t, evicted) else evictLoop maxBytes fuel t' (evicted + n)

def enforceLimits (s : Spool) (nowMs : Nat) : Spool × Option ClientEvent :=
  let cutoff := nowMs - s.limits.maxAgeMs
  let young := s.segments.filter fun r => ¬ asI64 r.2.createdMs < asI64 cutoff
  let aged := s.segments.rows.length - young.rows.length
  let (kept, evicted) := evictLoop s.limits.maxBytes (young.rows.length + 1) young aged
  ({ s with segments := kept },
    if evicted = 0 then none
    else some { kind := .spoolEviction, atMs := nowMs, count := some evicted,
                detail := some "spool cap reached" })

def insert (s : Spool) (seg : SegmentRow) : Spool :=
  { s with segments := s.segments.insertNew seg.1 seg.2 }

def push (s : Spool) (seg : SegmentRow) : Except SpoolError (Spool × Option ClientEvent) :=
  if s.isSealed seg.1.callId then .error (.sealed seg.1.callId)
  else .ok ((s.insert seg).enforceLimits seg.2.createdMs)

def isUnacked (s : Spool) (r : SegmentRow) : Bool :=
  match s.acks.get? (r.1.callId, r.1.channel) with
  | some through => through < r.1.seq
  | none => true

def sendOrder (a b : SegmentRow) : Bool :=
  a.1.channel.asU8 < b.1.channel.asU8 || (a.1.channel = b.1.channel && a.1.seq ≤ b.1.seq)

def takePending (s : Spool) (callId : CallId) (limit : Nat) : List SegmentRow :=
  let rows := s.segments.rows.filter fun r => r.1.callId = callId && s.isUnacked r
  (rows.insertionSort fun a b => sendOrder a b).take limit

def effectiveAck (s : Spool) (callId : CallId) (channel : Channel) (throughSeq : Nat) : Nat :=
  match s.acks.get? (callId, channel) with
  | some old => max old throughSeq
  | none => throughSeq

def ack (s : Spool) (callId : CallId) (channel : Channel) (throughSeq : Nat) : Spool × Nat :=
  let effective := s.effectiveAck callId channel throughSeq
  let kept := s.segments.filter fun r =>
    ¬ (r.1.callId = callId ∧ r.1.channel = channel ∧ r.1.seq ≤ effective)
  ({ s with acks := s.acks.put (callId, channel) effective, segments := kept },
    s.segments.rows.length - kept.rows.length)

def ackedThrough (s : Spool) (callId : CallId) : Channel → Option Nat :=
  fun ch => s.acks.get? (callId, ch)

def sealCall (s : Spool) (callId : CallId) (reason : ErrorCode) (nowMs : Nat) :
    Spool × ClientEvent :=
  let kept := s.segments.filter fun r => r.1.callId ≠ callId
  let calls := match s.calls.get? callId with
    | some c => s.calls.put callId { c with isSealed := true }
    | none => s.calls
  ({ s with segments := kept, calls := calls },
    { kind := .spoolEviction, atMs := nowMs,
      count := some (s.segments.rows.length - kept.rows.length),
      detail := some ("call rejected: " ++ reason.text) })

def vacuumFinishedCalls (s : Spool) : Spool × Nat :=
  let kept := s.calls.filter fun c =>
    ¬ (c.2.endJson.isSome ∧ c.1 ∉ s.segments.rows.map fun r => r.1.callId)
  ({ s with calls := kept }, s.calls.rows.length - kept.rows.length)

/-! ## What each statement does to the three tables -/

theorem evictOldest_shrinks (t : Table SegmentKey SegmentBody) (batch : Nat) :
    t.Shrinks (evictOldest t batch) (t.rows.length - (evictOldest t batch).rows.length) :=
  shrinks_filter _ t

theorem evictLoop_shrinks (maxBytes fuel : Nat) (t : Table SegmentKey SegmentBody)
    (evicted : Nat) : ∃ k, (evictLoop maxBytes fuel t evicted).2 = evicted + k ∧
      t.Shrinks (evictLoop maxBytes fuel t evicted).1 k := by
  induction fuel generalizing t evicted with
  | zero => exact ⟨0, rfl, .refl t⟩
  | succ fuel ih =>
    rw [evictLoop]
    split
    · exact ⟨0, rfl, .refl t⟩
    dsimp only
    split
    · exact ⟨0, rfl, .refl t⟩
    obtain ⟨k, hk, hs⟩ := ih _ _
    exact ⟨_, by rw [hk, Nat.add_assoc], (evictOldest_shrinks t _).trans hs⟩

theorem enforceLimits_spec (s : Spool) (now : Nat) :
    ∃ k, s.segments.Shrinks (s.enforceLimits now).1.segments k ∧
      (s.enforceLimits now).2 = if k = 0 then none
        else some { kind := .spoolEviction, atMs := now, count := some k,
                    detail := some "spool cap reached" } := by
  have haged := shrinks_filter
    (fun r => decide ¬ asI64 r.2.createdMs < asI64 (now - s.limits.maxAgeMs)) s.segments
  obtain ⟨k, hk, hs⟩ := evictLoop_shrinks s.limits.maxBytes
    ((s.segments.filter fun r =>
      ¬ asI64 r.2.createdMs < asI64 (now - s.limits.maxAgeMs)).rows.length + 1) _ _
  refine ⟨_, haged.trans hs, ?_⟩
  rw [← hk]
  rfl

variable {s : Spool} {r : SegmentRow} {c : CallId}

theorem push_ok {s' : Spool} {seg : SegmentRow} {ev : Option ClientEvent}
    (h : s.push seg = .ok (s', ev)) :
    s.isSealed seg.1.callId = false ∧ s'.calls = s.calls ∧ s'.acks = s.acks ∧
      ∃ k, (s.insert seg).segments.Shrinks s'.segments k ∧ ev = if k = 0 then none
          else some { kind := .spoolEviction, atMs := seg.2.createdMs, count := some k,
                      detail := some "spool cap reached" } := by
  unfold push at h
  split at h
  · cases h
  rename_i hsealed
  obtain ⟨rfl, rfl⟩ := Prod.mk.inj (Except.ok.inj h)
  exact ⟨by simpa using hsealed, rfl, rfl, enforceLimits_spec _ _⟩

theorem mem_insert {seg : SegmentRow} : r ∈ (s.insert seg).segments.rows ↔
      r ∈ s.segments.rows ∨ (r = seg ∧ seg.1 ∉ s.segments.keys) :=
  mem_rows_insertNew

theorem ack_get? (s : Spool) (c : CallId) (ch : Channel) (t : Nat) (k : CallId × Channel) :
    (s.ack c ch t).1.acks.get? k =
      if k = (c, ch) then some (s.effectiveAck c ch t) else s.acks.get? k :=
  get?_put ..

theorem mem_ack {ch : Channel} {t : Nat} :
    r ∈ (s.ack c ch t).1.segments.rows ↔ r ∈ s.segments.rows ∧
      ¬ (r.1.callId = c ∧ r.1.channel = ch ∧ r.1.seq ≤ s.effectiveAck c ch t) := by
  rw [ack, rows_filter, mem_filter, decide_eq_true_iff]

theorem sealCall_spec (s : Spool) (c : CallId) (code : ErrorCode) (now : Nat) :
    ∃ k, s.segments.Shrinks (s.sealCall c code now).1.segments k ∧ (s.sealCall c code now).2 =
        { kind := .spoolEviction, atMs := now, count := some k,
          detail := some ("call rejected: " ++ code.text) } :=
  ⟨_, shrinks_filter _ _, rfl⟩

theorem mem_sealCall (c : CallId) (code : ErrorCode) (now : Nat) :
    r ∈ (s.sealCall c code now).1.segments.rows ↔ r ∈ s.segments.rows ∧ r.1.callId ≠ c := by
  simp [sealCall]

theorem sealCall_frames (s : Spool) (c : CallId) (code : ErrorCode) (now : Nat) (d : CallId) :
    (s.sealCall c code now).1.callStartJson d = s.callStartJson d ∧
      (s.sealCall c code now).1.callEndJson d = s.callEndJson d ∧
      (d ∈ (s.sealCall c code now).1.calls.keys ↔ d ∈ s.calls.keys) := by
  simp only [sealCall, callStartJson, callEndJson]
  cases hc : s.calls.get? c with
  | none => exact ⟨rfl, rfl, Iff.rfl⟩
  | some call =>
    refine ⟨map_get?_put hc ?_ d, bind_get?_put hc ?_ d, mem_keys_put_of_get? hc⟩ <;> rfl

@[simp] theorem endCall_segments (s : Spool) (c : CallId) (ce : CallEnd) :
    (s.endCall c ce).segments = s.segments := by
  unfold endCall
  split <;> rfl

@[simp] theorem endCall_acks (s : Spool) (c : CallId) (ce : CallEnd) :
    (s.endCall c ce).acks = s.acks := by
  unfold endCall
  split <;> rfl

theorem endCall_frames (s : Spool) (c : CallId) (ce : CallEnd) (d : CallId) :
    (s.endCall c ce).callStartJson d = s.callStartJson d ∧
      ((s.endCall c ce).callEndJson d = s.callEndJson d ∨
        d = c ∧ (s.endCall c ce).callEndJson d = some ce) ∧
      (d ∈ (s.endCall c ce).calls.keys ↔ d ∈ s.calls.keys) := by
  simp only [endCall, callStartJson, callEndJson]
  cases hc : s.calls.get? c with
  | none => exact ⟨rfl, Or.inl rfl, Iff.rfl⟩
  | some call =>
    refine ⟨map_get?_put hc (by rfl) d, ?_, mem_keys_put_of_get? hc⟩
    by_cases hd : d = c
    · exact Or.inr ⟨hd, by rw [hd, get?_put_self]; rfl⟩
    · exact Or.inl (by rw [get?_put_ne _ hd])

theorem beginCall_frames (s : Spool) (c : CallId) (start : CallStart) (now : Nat) (d : CallId) :
    ((s.beginCall c start now).callStartJson d = s.callStartJson d ∨
        d = c ∧ (s.beginCall c start now).callStartJson d = some start) ∧
      (s.beginCall c start now).callEndJson d = s.callEndJson d ∧
      (d ∈ (s.beginCall c start now).calls.keys ↔ d = c ∨ d ∈ s.calls.keys) := by
  simp only [beginCall, callStartJson, callEndJson, ← isSome_get?]
  by_cases hd : d = c
  · rw [hd, get?_insertNew_self]
    cases s.calls.get? c <;> simp
  rw [get?_insertNew_of_ne _ hd]
  simp [hd]

/-! ## Which calls are given up -/

@[simp] theorem isSealed_beginCall (s : Spool) (c : CallId) (start : CallStart) (now : Nat)
    (d : CallId) : (s.beginCall c start now).isSealed d = s.isSealed d := by
  simp only [beginCall, isSealed]
  by_cases hd : d = c
  · rw [hd, get?_insertNew_self]
    cases s.calls.get? c <;> rfl
  · rw [get?_insertNew_of_ne _ hd]

@[simp] theorem isSealed_endCall (s : Spool) (c : CallId) (ce : CallEnd) (d : CallId) :
    (s.endCall c ce).isSealed d = s.isSealed d := by
  simp only [endCall, isSealed]
  cases hc : s.calls.get? c with
  | none => rfl
  | some call =>
    simp only [get?_put]
    split
    · rename_i hd
      rw [hd, hc]
      rfl
    · rfl

theorem isSealed_sealCall (s : Spool) (c : CallId) (code : ErrorCode) (now : Nat) (d : CallId) :
    (s.sealCall c code now).1.isSealed d =
      (s.isSealed d || (decide (d = c) && (s.calls.get? c).isSome)) := by
  simp only [sealCall, isSealed]
  cases hc : s.calls.get? c with
  | none => simp
  | some call =>
    simp only [get?_put]
    split
    · rename_i hd
      simp [hd]
    rename_i hd
    simp [hd]

theorem mem_pendingCalls : c ∈ s.pendingCalls ↔
      (∃ r ∈ s.segments.rows, r.1.callId = c) ∧ c ∈ s.calls.keys ∧ s.isSealed c = false := by
  simp [pendingCalls, mem_insertionSort]

theorem isSome_callStartJson : (s.callStartJson c).isSome ↔ c ∈ s.calls.keys := by
  rw [callStartJson, Option.isSome_map, isSome_get?]

theorem mem_takePending {n : Nat} (h : r ∈ s.takePending c n) :
    r ∈ s.segments.rows ∧ r.1.callId = c := by
  have hr := mem_of_mem_take h
  rw [mem_insertionSort, mem_filter] at hr
  exact ⟨hr.1, by simpa using (and_eq_true_iff.mp hr.2).1⟩

theorem sendOrder_total (a b : SegmentRow) : sendOrder a b ∨ sendOrder b a := by
  simp only [sendOrder, or_eq_true, and_eq_true, decide_eq_true_iff]
  rcases lt_trichotomy a.1.channel.asU8 b.1.channel.asU8 with h | h | h
  · exact .inl (.inl h)
  · have hch : a.1.channel = b.1.channel := by
      revert h
      cases a.1.channel <;> cases b.1.channel <;> decide
    rcases le_total a.1.seq b.1.seq with hle | hle
    · exact .inl (.inr ⟨hch, hle⟩)
    · exact .inr (.inr ⟨hch.symm, hle⟩)
  · exact .inr (.inl h)

theorem sendOrder_trans {a b d : SegmentRow} (hab : sendOrder a b) (hbd : sendOrder b d) :
    sendOrder a d := by
  simp only [sendOrder, or_eq_true, and_eq_true, decide_eq_true_iff] at *
  rcases hab with hab | ⟨hch, hab⟩
  · rcases hbd with hbd | ⟨hch, -⟩
    · exact .inl (hab.trans hbd)
    · exact .inl (hch ▸ hab)
  rcases hbd with hbd | ⟨hch', hbd⟩
  · exact .inl (hch ▸ hbd)
  · exact .inr ⟨hch.trans hch', hab.trans hbd⟩

theorem takePending_increasing (s : Spool) (c : CallId) (n : Nat) :
    (s.takePending c n).Pairwise fun a b => a.1.channel = b.1.channel → a.1.seq < b.1.seq := by
  have : Std.Total fun a b => (sendOrder a b : Prop) := ⟨sendOrder_total⟩
  have : IsTrans SegmentRow fun a b => (sendOrder a b : Prop) := ⟨fun _ _ _ => sendOrder_trans⟩
  set rows := s.segments.rows.filter fun r => r.1.callId = c && s.isUnacked r with hrows
  have hsorted := pairwise_insertionSort (fun a b => (sendOrder a b : Prop)) rows
  have hkeys : (rows.insertionSort fun a b => sendOrder a b).Pairwise fun a b => a.1 ≠ b.1 := by
    have hnd : (rows.map Prod.fst).Nodup :=
      (filter_sublist.map Prod.fst).nodup s.segments.nodup
    have hperm := (perm_insertionSort (fun a b => (sendOrder a b : Prop)) rows).map Prod.fst
    exact pairwise_map.mp (hperm.nodup_iff.mpr hnd)
  have hboth := (hsorted.and hkeys).take (i := n)
  refine hboth.imp_of_mem fun {a b} ha hb hab hch => ?_
  have hmem : ∀ r ∈ (rows.insertionSort fun a b => sendOrder a b).take n, r.1.callId = c :=
    fun r hr => (mem_takePending (s := s) (n := n) hr).2
  have hle : a.1.seq ≤ b.1.seq := by
    have hord := hab.1
    simp only [sendOrder, hch, lt_irrefl, decide_false, Bool.false_or, Bool.and_eq_true,
      decide_eq_true_iff] at hord
    exact hord.2
  have hne : a.1.seq ≠ b.1.seq := fun hseq => hab.2 <| by
    have hcall : a.1.callId = b.1.callId := (hmem a ha).trans (hmem b hb).symm
    revert hcall hch hseq
    rcases a.1 with ⟨c₁, ch₁, q₁⟩
    rcases b.1 with ⟨c₂, ch₂, q₂⟩
    rintro rfl rfl rfl
    rfl
  omega

end Spool

end Sentinel
