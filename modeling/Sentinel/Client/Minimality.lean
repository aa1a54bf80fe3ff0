import Mathlib.Algebra.Order.BigOperators.Group.List
import Mathlib.Order.Bounds.Basic
import Sentinel.Client.Caps

/-!
# How much the size cap evicts

The loop of `enforce_limits` deletes batches, as many rows as the overshoot holds times 3000 bytes,
and rows may be larger than that: a batch of two whose first row is as large as the overshoot
deletes one that could have been kept.
-/

open List

namespace Sentinel.Spool

variable {s s' : Spool} {seg : SegmentRow}

/-! ## Bytes of a list of rows -/

def weight (rows : List SegmentRow) : Nat := (rows.map fun r => r.2.payload.length).sum

theorem weight_take_add_drop (rows : List SegmentRow) (k : Nat) :
    weight (rows.take k) + weight (rows.drop k) = weight rows := by
  rw [weight, weight, ← sum_append, ← map_append, take_append_drop, weight]

variable {rows : List SegmentRow} {maxBytes : Nat}

theorem weight_le_of_sublist {more : List SegmentRow} (h : rows.Sublist more) :
    weight rows ≤ weight more :=
  Sublist.sum_le_sum (h.map _) fun _ _ => Nat.zero_le _

theorem weight_byAge (t : Table SegmentKey SegmentBody) : weight (byAge t) = bytes t :=
  ((byAge_perm t).map _).sum_eq

/-! ## The batches -/

def batchSize (excess : Nat) : Nat := min (max (excess / 3000) 1) 1000

def passes (maxBytes : Nat) : Nat → List SegmentRow → List (Nat × List SegmentRow)
  | 0, _ => []
  | fuel + 1, rows =>
    if weight rows ≤ maxBytes then []
    else
      let excess := weight rows - maxBytes
      (excess, rows.take (batchSize excess)) :: passes maxBytes fuel (rows.drop (batchSize excess))

theorem passes_of_le (h : weight rows ≤ maxBytes) (fuel : Nat) :
    passes maxBytes fuel rows = [] := by
  cases fuel with
  | zero => rfl
  | succ fuel => rw [passes, if_pos h]

theorem passes_succ (h : ¬ weight rows ≤ maxBytes) (fuel : Nat) : passes maxBytes (fuel + 1) rows =
      (weight rows - maxBytes, rows.take (batchSize (weight rows - maxBytes))) ::
        passes maxBytes fuel (rows.drop (batchSize (weight rows - maxBytes))) := by
  rw [passes, if_neg h]

theorem batchSize_pos (excess : Nat) : 0 < batchSize excess := by
  unfold batchSize
  omega

theorem evictLoop_succ {t : Table SegmentKey SegmentBody} (h : ¬ bytes t ≤ maxBytes)
    (fuel evicted : Nat) :
    ∃ n, evictLoop maxBytes (fuel + 1) t evicted =
      evictLoop maxBytes fuel (evictOldest t (batchSize (bytes t - maxBytes))) n := by
  have hlength := length_evictOldest t (batchSize (bytes t - maxBytes))
  have hrows := length_pos_of_bytes h
  have hone := batchSize_pos (bytes t - maxBytes)
  refine ⟨evicted + (t.rows.length -
    (evictOldest t (batchSize (bytes t - maxBytes))).rows.length), ?_⟩
  rw [evictLoop, if_neg h]
  exact if_neg (by unfold batchSize at hlength hone; omega)

theorem byAge_evictLoop (maxBytes fuel : Nat) (t : Table SegmentKey SegmentBody) (evicted : Nat) :
    byAge t = (passes maxBytes fuel (byAge t)).flatMap Prod.snd ++
      byAge (evictLoop maxBytes fuel t evicted).1 := by
  induction fuel generalizing t evicted with
  | zero => rfl
  | succ fuel ih =>
    by_cases hfits : bytes t ≤ maxBytes
    · rw [evictLoop, if_pos hfits, passes_of_le (by rwa [weight_byAge])]
      rfl
    obtain ⟨n, hloop⟩ := evictLoop_succ hfits fuel evicted
    rw [hloop, passes_succ (by rwa [weight_byAge]), weight_byAge, flatMap_cons,
      append_assoc, ← byAge_evictOldest, ← ih, byAge_evictOldest]
    exact (take_append_drop _ _).symm

theorem mem_passes {fuel : Nat} {p : Nat × List SegmentRow} (hp : p ∈ passes maxBytes fuel rows) :
    0 < p.1 ∧ p.1 ≤ weight rows - maxBytes ∧ p.2.length ≤ batchSize p.1 := by
  induction fuel generalizing rows with
  | zero => exact absurd hp not_mem_nil
  | succ fuel ih =>
    by_cases hfits : weight rows ≤ maxBytes
    · rw [passes_of_le hfits] at hp
      exact absurd hp not_mem_nil
    rw [passes_succ hfits] at hp
    rcases mem_cons.mp hp with rfl | hp
    · exact ⟨by dsimp only; omega, le_rfl, length_take_le _ _⟩
    obtain ⟨hpos, hle, hlength⟩ := ih hp
    have hdrop := weight_le_of_sublist (drop_sublist (batchSize (weight rows - maxBytes)) rows)
    exact ⟨hpos, by omega, hlength⟩

theorem forall_lt_weight_drop_iff (maxBytes fuel : Nat) (rows : List SegmentRow) :
    (∀ j < ((passes maxBytes fuel rows).flatMap Prod.snd).length, maxBytes < weight (rows.drop j)) ↔
      ∀ p ∈ passes maxBytes fuel rows, weight p.2.dropLast < p.1 := by
  induction fuel generalizing rows with
  | zero => simp [passes]
  | succ fuel ih =>
    by_cases hfits : weight rows ≤ maxBytes
    · simp [passes_of_le hfits]
    rw [passes_succ hfits, flatMap_cons, length_append, forall_mem_cons, ← ih]
    dsimp only
    set batch := batchSize (weight rows - maxBytes) with hbatch
    have hne : rows ≠ [] := by
      rintro rfl
      exact hfits (Nat.zero_le _)
    have hfirst : 0 < (rows.take batch).length := by
      have hrows := length_pos_iff.mpr hne
      have hpos : 0 < batch := batchSize_pos _
      rw [length_take]
      omega
    have hrest : rows.drop batch = rows.drop (rows.take batch).length := by
      have hsplit := congrArg (drop (rows.take batch).length) (take_append_drop batch rows)
      rwa [drop_left] at hsplit
    -- All of the batch but its last row, as a beginning of the rows.
    have hlast : (rows.take batch).dropLast = rows.take ((rows.take batch).length - 1) := by
      rw [dropLast_eq_take, take_take, min_eq_left]
      have hle := length_take_le batch rows
      omega
    rw [hlast, hrest]
    have hsum := weight_take_add_drop rows
    constructor
    · intro hall
      refine ⟨?_, fun j hj => ?_⟩
      · have hj := hall ((rows.take batch).length - 1) (by omega)
        have := hsum ((rows.take batch).length - 1)
        omega
      rw [drop_drop]
      exact hall _ (by omega)
    rintro ⟨hbefore, hall⟩ j hj
    by_cases hin : j < (rows.take batch).length
    · have hle : j ≤ (rows.take batch).length - 1 := by omega
      have hmono := weight_le_of_sublist (take_prefix_take_left (l := rows) hle).sublist
      have := hsum j
      omega
    have hj' := hall (j - (rows.take batch).length) (by omega)
    rwa [drop_drop, Nat.add_sub_cancel' (by omega)] at hj'

/-! ## What a push evicts -/

def sizePasses (s : Spool) (seg : SegmentRow) : List (Nat × List SegmentRow) :=
  let young := (s.insert seg).young seg.2.createdMs
  passes s.limits.maxBytes (young.rows.length + 1) (byAge young)

def EvictsLeast (s : Spool) (seg : SegmentRow) (s' : Spool) : Prop :=
  let rows := byAge ((s.insert seg).young seg.2.createdMs)
  ∃ k, byAge s'.segments = rows.drop k ∧
    IsLeast {j | weight (rows.drop j) ≤ s.limits.maxBytes} k

theorem evictsLeast_iff_of_split {gone : List SegmentRow}
    (hsplit : byAge ((s.insert seg).young seg.2.createdMs) = gone ++ byAge s'.segments)
    (hfits : bytes s'.segments ≤ s.limits.maxBytes) :
    s.EvictsLeast seg s' ↔ ∀ j < gone.length, s.limits.maxBytes <
      weight ((byAge ((s.insert seg).young seg.2.createdMs)).drop j) := by
  unfold EvictsLeast
  set rows := byAge ((s.insert seg).young seg.2.createdMs)
  have hkept : rows.drop gone.length = byAge s'.segments := by rw [hsplit, drop_left]
  have hgone : weight (rows.drop gone.length) ≤ s.limits.maxBytes := by
    rwa [hkept, weight_byAge]
  constructor
  · rintro ⟨k, hk, -, hleast⟩ j hj
    by_contra hle
    have hkj : k ≤ j := hleast (not_lt.mp hle)
    -- Fewer rows than are gone would leave more rows than there are.
    have hlength := congrArg length (hkept.trans hk)
    have hrows := congrArg length hsplit
    rw [length_append] at hrows
    rw [length_drop, length_drop] at hlength
    omega
  intro hall
  refine ⟨gone.length, hkept.symm, hgone, fun j hj => not_lt.mp fun hlt => ?_⟩
  exact absurd (hall j hlt) (not_lt.mpr hj)

theorem weight_byAge_young_le (s : Spool) (seg : SegmentRow) (now : Nat) :
    weight (byAge ((s.insert seg).young now)) ≤ bytes s.segments + seg.2.payload.length := by
  have hyoung : bytes ((s.insert seg).young now) ≤ bytes (s.insert seg).segments :=
    weight_le_of_sublist filter_sublist
  have hinsert : bytes (s.insert seg).segments ≤ bytes s.segments + seg.2.payload.length := by
    rw [Spool.insert]
    by_cases hk : seg.1 ∈ s.segments.keys
    · rw [Table.insertNew_of_mem hk]
      exact Nat.le_add_right _ _
    · simp [bytes, Table.rows_insertNew_of_not_mem hk]
  rw [weight_byAge]
  exact hyoung.trans hinsert

/-- **How much the size cap evicts.** -/
theorem push_evictsLeast_iff (s s' : Spool) (seg : SegmentRow) (ev : Option ClientEvent)
    (h : s.push seg = .ok (s', ev)) :
    (s.EvictsLeast seg s' ↔ ∀ p ∈ s.sizePasses seg, weight p.2.dropLast < p.1) ∧
      (bytes s.segments ≤ s.limits.maxBytes → seg.2.payload.length < 6000 →
        s.EvictsLeast seg s') := by
  have hpushed : s' = s.pushed seg := eq_pushed_of_push h
  have hiff : s.EvictsLeast seg s' ↔ ∀ p ∈ s.sizePasses seg, weight p.2.dropLast < p.1 := by
    rw [sizePasses, ← forall_lt_weight_drop_iff]
    refine evictsLeast_iff_of_split ?_ ?_
    · rw [hpushed]
      exact byAge_evictLoop ..
    · rw [hpushed]
      exact ((s.insert seg).enforceLimits_caps seg.2.createdMs).1
  refine ⟨hiff, fun hcap hsmall => hiff.mpr fun p hp => ?_⟩
  obtain ⟨hpos, hover, hlength⟩ := mem_passes hp
  have hyoung := s.weight_byAge_young_le seg seg.2.createdMs
  have hone : p.2.length ≤ 1 := by
    unfold batchSize at hlength
    omega
  have hnil : p.2.dropLast = [] := by
    rw [← length_eq_zero_iff, length_dropLast]
    omega
  rwa [hnil]

def rowOf (q createdMs bytes : Nat) : SegmentRow :=
  (⟨"call-1", .far, q⟩,
    { timestampMs := 0, flags := {}, payload := List.replicate bytes 0, createdMs })

/-- The second row of two bytes evicts the first, in a spool with room for three. -/
theorem threeBytes_evictsLeast :
    threeBytes.EvictsLeast (twoBytes 1 20) (threeBytes.pushed (twoBytes 1 20)) :=
  (push_evictsLeast_iff threeBytes _ (twoBytes 1 20) _ rfl).2 (by decide) (by decide)

def largeAndSmall : Spool where
  segments := Table.insertNew (Table.insertNew ∅ (rowOf 0 10 6000).1 (rowOf 0 10 6000).2)
    (rowOf 1 20 1).1 (rowOf 1 20 1).2
  limits := { maxBytes := 6001 }

/-- Another large row evicts both, and the large one was enough. -/
theorem largeAndSmall_evicts_more :
    bytes largeAndSmall.segments ≤ largeAndSmall.limits.maxBytes ∧
      largeAndSmall.push (rowOf 2 30 6000) =
        .ok ((largeAndSmall.insert (rowOf 2 30 6000)).enforceLimits 30) ∧
      ¬ largeAndSmall.EvictsLeast (rowOf 2 30 6000)
        ((largeAndSmall.insert (rowOf 2 30 6000)).enforceLimits 30).1 := by
  refine ⟨by decide +kernel, rfl, ?_⟩
  rintro ⟨k, hk, -, hleast⟩
  have hone : k ≤ 1 := hleast (show weight _ ≤ _ by decide +kernel)
  have hlength := congrArg List.length hk
  rw [length_drop] at hlength
  have hkept : (byAge ((largeAndSmall.insert (rowOf 2 30 6000)).enforceLimits 30).1.segments).length
    = 1 := by decide +kernel
  have hrows : (byAge ((largeAndSmall.insert (rowOf 2 30 6000)).young 30)).length = 3 := by
    decide +kernel
  have hyoung : (rowOf 2 30 6000).2.createdMs = 30 := rfl
  rw [hyoung, hkept, hrows] at hlength
  omega

end Sentinel.Spool
