import Mathlib.Data.Prod.Lex
import Mathlib.Data.String.Basic
import Sentinel.Client.Eviction

/-!
# What a push leaves behind

A push writes its row and enforces the two caps: the age cap by one `DELETE`, the size cap by a loop
that deletes batches of the oldest rows.
-/

open List

namespace Sentinel.Spool

variable {s s' : Spool} {t : Table SegmentKey SegmentBody} {seg : SegmentRow}

/-! ## The order of eviction -/

def evictKey (r : SegmentRow) : ℤ ×ₗ String ×ₗ ℕ ×ₗ ℕ :=
  toLex (asI64 r.2.createdMs, toLex (r.1.callId, toLex (r.1.channel.asU8, r.1.seq)))

theorem evictOrder_iff {a b : SegmentRow} : evictOrder a b = true ↔ evictKey a ≤ evictKey b := by
  simp only [evictOrder, evictKey, Prod.Lex.toLex_le_toLex, Bool.or_eq_true, Bool.and_eq_true,
    decide_eq_true_iff, Channel.asU8_inj]

instance : Std.Total fun a b => (evictOrder a b : Prop) :=
  ⟨fun a b => by simpa only [evictOrder_iff] using le_total (evictKey a) (evictKey b)⟩

instance : IsTrans SegmentRow fun a b => (evictOrder a b : Prop) :=
  ⟨fun _ _ _ hab hbd => evictOrder_iff.mpr ((evictOrder_iff.mp hab).trans (evictOrder_iff.mp hbd))⟩

def byAge (t : Table SegmentKey SegmentBody) : List SegmentRow :=
  t.rows.insertionSort fun a b => evictOrder a b

theorem byAge_perm (t : Table SegmentKey SegmentBody) : (byAge t).Perm t.rows :=
  perm_insertionSort _ _

theorem byAge_nodup (t : Table SegmentKey SegmentBody) : ((byAge t).map Prod.fst).Nodup :=
  ((byAge_perm t).map Prod.fst).nodup_iff.mpr t.nodup

theorem byAge_evictOldest (t : Table SegmentKey SegmentBody) (n : Nat) :
    byAge (evictOldest t n) = (byAge t).drop n := by
  rw [← filter_not_mem_take (byAge_nodup t) n]
  exact (filter_insertionSort _ t.rows).symm

theorem length_evictOldest (t : Table SegmentKey SegmentBody) (n : Nat) :
    (evictOldest t n).rows.length = t.rows.length - n := by
  rw [← (byAge_perm _).length_eq, byAge_evictOldest, length_drop, (byAge_perm t).length_eq]

/-! ## The loop -/

theorem length_pos_of_bytes {maxBytes : Nat} (h : ¬ bytes t ≤ maxBytes) : 0 < t.rows.length := by
  rw [length_pos_iff]
  intro hnil
  rw [bytes, hnil] at h
  exact h (Nat.zero_le _)

theorem evictLoop_spec (maxBytes fuel : Nat) (t : Table SegmentKey SegmentBody) (evicted : Nat)
    (hfuel : t.rows.length < fuel) :
    bytes (evictLoop maxBytes fuel t evicted).1 ≤ maxBytes ∧
      ∃ k, byAge (evictLoop maxBytes fuel t evicted).1 = (byAge t).drop k := by
  induction fuel generalizing t evicted with
  | zero => exact absurd hfuel (Nat.not_lt_zero _)
  | succ fuel ih =>
    rw [evictLoop]
    split
    · rename_i hfits
      exact ⟨hfits, 0, rfl⟩
    rename_i hover
    dsimp only
    set batch := min (max ((bytes t - maxBytes) / 3000) 1) 1000 with hbatch
    have hlength := length_evictOldest t batch
    have hpos := length_pos_of_bytes hover
    -- A spool over its cap has a row, and so the batch is not empty.
    rw [if_neg (by omega)]
    obtain ⟨hfits, k, hrows⟩ := ih (evictOldest t batch)
      (evicted + (t.rows.length - (evictOldest t batch).rows.length)) (by omega)
    exact ⟨hfits, batch + k, by rw [hrows, byAge_evictOldest, drop_drop]⟩

/-! ## What is gone -/

def Expired (s : Spool) (nowMs : Nat) (r : SegmentRow) : Prop :=
  asI64 r.2.createdMs < asI64 (nowMs - s.limits.maxAgeMs)

instance (s : Spool) (nowMs : Nat) (r : SegmentRow) : Decidable (s.Expired nowMs r) :=
  inferInstanceAs (Decidable (_ < _))

variable {now : Nat} {r : SegmentRow}

theorem expired_iff_of_lt (hnow : now < 2 ^ 63) (hr : r.2.createdMs < 2 ^ 63) :
    s.Expired now r ↔ r.2.createdMs < now - s.limits.maxAgeMs := by
  rw [Expired, asI64_of_lt hr, asI64_of_lt (by omega)]
  omega

theorem mem_young : r ∈ (s.young now).rows ↔ r ∈ s.segments.rows ∧ ¬ s.Expired now r := by
  rw [young, Table.rows_filter, mem_filter, decide_eq_true_iff]
  rfl

def lostTo (s s' : Spool) : List SegmentRow :=
  s.segments.rows.filter fun r => r ∉ s'.segments.rows

theorem mem_drop_iff {l : List SegmentRow} (h : l.Nodup) {k : Nat} :
    r ∈ l.drop k ↔ r ∈ l ∧ r ∉ l.take k := by
  have hsplit := take_append_drop k l
  rw [← hsplit, nodup_append] at h
  constructor
  · intro hr
    exact ⟨mem_of_mem_drop hr, fun hr' => h.2.2 r hr' r hr rfl⟩
  rintro ⟨hr, hnot⟩
  rw [← hsplit, mem_append] at hr
  exact hr.resolve_left hnot

theorem lostTo_perm {k : Nat} (h : byAge s'.segments = (byAge (s.young now)).drop k) :
    (s.lostTo s').Perm
      (s.segments.rows.filter (fun r => s.Expired now r) ++ (byAge (s.young now)).take k) := by
  have hyoung : (byAge (s.young now)).Nodup := (byAge_nodup _).of_map
  have hkept : ∀ r, r ∈ s'.segments.rows ↔
      r ∈ (s.young now).rows ∧ r ∉ (byAge (s.young now)).take k := fun r => by
    rw [← (byAge_perm s'.segments).mem_iff, h, mem_drop_iff hyoung, (byAge_perm _).mem_iff]
  have hfirst : ∀ r ∈ (byAge (s.young now)).take k, r ∈ s.segments.rows ∧ ¬ s.Expired now r :=
    fun r hr => mem_young.mp ((byAge_perm _).mem_iff.mp (mem_of_mem_take hr))
  have hrows : s.segments.rows.Nodup := s.segments.nodup.of_map
  refine (perm_ext_iff_of_nodup (hrows.filter _) ?_).mpr fun r => ?_
  · rw [nodup_append]
    refine ⟨hrows.filter _, hyoung.sublist (take_sublist _ _), fun a ha b hb hab => ?_⟩
    have hexpired := (mem_filter.mp ha).2
    rw [hab, decide_eq_true_iff] at hexpired
    exact (hfirst b hb).2 hexpired
  rw [mem_filter, decide_eq_true_iff, hkept, mem_young, mem_append, mem_filter,
    decide_eq_true_iff]
  constructor
  · rintro ⟨hr, hnot⟩
    by_cases hexpired : s.Expired now r
    · exact .inl ⟨hr, hexpired⟩
    · exact .inr (not_not.mp fun hlast => hnot ⟨⟨hr, hexpired⟩, hlast⟩)
  rintro (⟨hr, hexpired⟩ | hr)
  · exact ⟨hr, fun hkept => hkept.1.2 hexpired⟩
  · exact ⟨(hfirst r hr).1, fun hkept => hkept.2 hr⟩

theorem enforceLimits_caps (s : Spool) (now : Nat) :
    bytes (s.enforceLimits now).1.segments ≤ s.limits.maxBytes ∧
      ∃ k, byAge (s.enforceLimits now).1.segments = (byAge (s.young now)).drop k :=
  evictLoop_spec s.limits.maxBytes ((s.young now).rows.length + 1) (s.young now)
    (s.segments.rows.length - (s.young now).rows.length) (Nat.lt_succ_self _)

theorem enforceLimits_event (s : Spool) (now : Nat) :
    (s.enforceLimits now).2 = if s.lostTo (s.enforceLimits now).1 = [] then none
      else some { kind := .spoolEviction, atMs := now,
                  count := some (s.lostTo (s.enforceLimits now).1).length,
                  detail := some "spool cap reached" } := by
  obtain ⟨n, hshrinks, hev⟩ := s.enforceLimits_spec now
  have hlength : (s.lostTo (s.enforceLimits now).1).length = n := hshrinks.length_removed
  rw [hev, hlength]
  exact if_congr (hlength ▸ length_eq_zero_iff) rfl rfl

/-- **What a push leaves.** -/
theorem push_spec (s s' : Spool) (seg : SegmentRow) (ev : Option ClientEvent)
    (h : s.push seg = .ok (s', ev)) :
    bytes s'.segments ≤ s.limits.maxBytes ∧
      (∀ r ∈ s'.segments.rows, ¬ s.Expired seg.2.createdMs r) ∧
      (seg.2.createdMs < 2 ^ 63 → ∀ r ∈ s'.segments.rows, r.2.createdMs < 2 ^ 63 →
        seg.2.createdMs - s.limits.maxAgeMs ≤ r.2.createdMs) ∧
      s'.segments.rows.Sublist (s.insert seg).segments.rows ∧
      (∃ k, ((s.insert seg).lostTo s').Perm
        ((s.insert seg).segments.rows.filter (fun r => s.Expired seg.2.createdMs r) ++
          (byAge ((s.insert seg).young seg.2.createdMs)).take k)) ∧
      ev = if (s.insert seg).lostTo s' = [] then none
        else some { kind := .spoolEviction, atMs := seg.2.createdMs,
                    count := some ((s.insert seg).lostTo s').length,
                    detail := some "spool cap reached" } := by
  unfold push at h
  split at h
  · cases h
  · have hs' : ((s.insert seg).enforceLimits seg.2.createdMs).1 = s' :=
      congrArg Prod.fst (Except.ok.inj h)
    have hev : ((s.insert seg).enforceLimits seg.2.createdMs).2 = ev :=
      congrArg Prod.snd (Except.ok.inj h)
    obtain ⟨hfits, k, hrows⟩ := (s.insert seg).enforceLimits_caps seg.2.createdMs
    have hevent := (s.insert seg).enforceLimits_event seg.2.createdMs
    have hsublist := (s.insert seg).enforceLimits_sublist seg.2.createdMs
    rw [hs'] at hfits hrows hevent hsublist
    have hyoung : ∀ r ∈ s'.segments.rows, ¬ s.Expired seg.2.createdMs r := fun r hr => by
      rw [← (byAge_perm _).mem_iff, hrows] at hr
      exact (mem_young.mp ((byAge_perm _).mem_iff.mp (mem_of_mem_drop hr))).2
    refine ⟨hfits, hyoung, fun hseg r hr hlt => ?_, hsublist, ⟨k, lostTo_perm hrows⟩, hev ▸ hevent⟩
    have hage := hyoung r hr
    rw [expired_iff_of_lt hseg hlt] at hage
    exact not_lt.mp hage

def twoBytes (q createdMs : Nat) : SegmentRow :=
  (⟨"call-1", .far, q⟩, { timestampMs := 0, flags := {}, payload := [0, 0], createdMs })

def threeBytes : Spool := { insert {} (twoBytes 0 10) with limits := { maxBytes := 3 } }

/-- The second row of two evicts the first. -/
theorem push_spec_threeBytes :
    threeBytes.push (twoBytes 1 20) = .ok (threeBytes.pushed (twoBytes 1 20),
        some { kind := .spoolEviction, atMs := 20, count := some 1,
               detail := some "spool cap reached" }) ∧
      bytes (threeBytes.pushed (twoBytes 1 20)).segments ≤ 3 :=
  ⟨rfl, (push_spec threeBytes _ (twoBytes 1 20) _ rfl).1⟩

/-- A row `2 ^ 63` milliseconds ahead of the one in the spool, which is to keep none that is older
than the last: the older one is kept. -/
theorem push_farFuture : ∃ s' ev,
    push { (insert {} (twoBytes 0 0)) with limits := { maxAgeMs := 0 } } (twoBytes 1 (2 ^ 63)) =
        .ok (s', ev) ∧
      ∃ r ∈ s'.segments.rows, r.2.createdMs < (twoBytes 1 (2 ^ 63)).2.createdMs - 0 :=
  ⟨_, _, rfl, twoBytes 0 0, by decide, by decide⟩

end Sentinel.Spool
