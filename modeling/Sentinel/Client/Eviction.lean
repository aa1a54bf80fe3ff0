import Sentinel.Lib.Runs
import Sentinel.Lib.Sorting
import Sentinel.Client.Spool

/-!
# Eviction and the order of pushing

The spool evicts what is oldest by creation time.
-/

open List Function Runs

namespace Sentinel

theorem asI64_of_lt {n : Nat} (h : n < 2 ^ 63) : asI64 n = n := by
  unfold asI64 Int.bmod
  dsimp only
  split <;> omega

namespace Spool

variable {s s' : Spool} {t : Table SegmentKey SegmentBody} {seg : SegmentRow}

def young (s : Spool) (nowMs : Nat) : Table SegmentKey SegmentBody :=
  s.segments.filter fun r => ¬ asI64 r.2.createdMs < asI64 (nowMs - s.limits.maxAgeMs)

def pushed (s : Spool) (seg : SegmentRow) : Spool :=
  ((s.insert seg).enforceLimits seg.2.createdMs).1

theorem eq_pushed_of_push {ev : Option ClientEvent} (h : s.push seg = .ok (s', ev)) :
    s' = s.pushed seg := by
  unfold push at h
  split at h
  · cases h
  · exact (Prod.mk.inj (Except.ok.inj h)).1.symm

theorem evictOldest_rows (h : t.rows.Pairwise fun a b => evictOrder a b = true) (n : Nat) :
    (evictOldest t n).rows = t.rows.drop n := by
  have hsorted : (t.rows.insertionSort fun a b => evictOrder a b) = t.rows :=
    Pairwise.insertionSort_eq h
  rw [evictOldest, hsorted, Table.rows_filter]
  exact filter_not_mem_take t.nodup n

theorem evictLoop_suffix (h : t.rows.Pairwise fun a b => evictOrder a b = true)
    (maxBytes fuel evicted : Nat) : (evictLoop maxBytes fuel t evicted).1.rows <:+ t.rows := by
  induction fuel generalizing t evicted with
  | zero => exact suffix_refl _
  | succ fuel ih =>
    rw [evictLoop]
    split
    · exact suffix_refl _
    dsimp only
    split
    · exact suffix_refl _
    have hrows := evictOldest_rows h (min (max ((bytes t - maxBytes) / 3000) 1) 1000)
    refine (ih ?_ _).trans ?_
    · rw [hrows]
      exact h.sublist (drop_sublist _ _)
    rw [hrows]
    exact drop_suffix _ _

theorem enforceLimits_suffix (now : Nat)
    (h : s.segments.rows.Pairwise fun a b => evictOrder a b = true) :
    (s.enforceLimits now).1.segments.rows <:+ (s.young now).rows := by
  have hyoung : (s.young now).rows.Pairwise fun a b => evictOrder a b = true :=
    h.sublist filter_sublist
  exact evictLoop_suffix hyoung s.limits.maxBytes ((s.young now).rows.length + 1)
    (s.segments.rows.length - (s.young now).rows.length)

theorem enforceLimits_sublist (s : Spool) (now : Nat) :
    (s.enforceLimits now).1.segments.rows.Sublist s.segments.rows := by
  obtain ⟨k, hk, -⟩ := s.enforceLimits_spec now
  exact hk.1

structure SameSegments (s s' : Spool) : Prop where
  segments : s'.segments = s.segments
  limits : s'.limits = s.limits

namespace SameSegments

theorem refl (s : Spool) : SameSegments s s := ⟨rfl, rfl⟩

theorem trans {s'' : Spool} (h : SameSegments s s') (h' : SameSegments s' s'') :
    SameSegments s s'' :=
  ⟨h'.segments.trans h.segments, h'.limits.trans h.limits⟩

theorem pushed (h : SameSegments s s') (seg : SegmentRow) :
    SameSegments (s.pushed seg) (s'.pushed seg) := by
  obtain ⟨hsegments, hlimits⟩ := h
  cases s
  cases s'
  cases hsegments
  cases hlimits
  exact ⟨rfl, rfl⟩

theorem foldl_admit (h : SameSegments s s') (rows : List SegmentRow) :
    SameSegments (rows.foldl Spool.pushed s) (rows.foldl Spool.pushed s') := by
  induction rows generalizing s s' with
  | nil => exact h
  | cons row rows ih => exact ih (h.pushed row)

end SameSegments

end Spool

/-! ## A spool that remembers -/

structure Shelf where
  spool : Spool
  count : Nat := 0
  order : SegmentKey → Nat := fun _ => 0
  born : SegmentKey → Nat := fun _ => 0

namespace Shelf

def rows (s : Shelf) : List SegmentRow := s.spool.segments.rows

def insert (now : Nat) (s : Shelf) (row : SegmentRow) : Shelf :=
  if row.1 ∈ s.spool.segments.keys then s
  else
    { spool := s.spool.insert row
      count := s.count + 1
      order := Function.update s.order row.1 s.count
      born := Function.update s.born row.1 now }

def evict (s : Shelf) (clockMs : Nat) : Shelf :=
  { s with spool := (s.spool.enforceLimits clockMs).1 }

def put (now : Nat) (s : Shelf) (row : SegmentRow) : Shelf :=
  (s.insert now row).evict row.2.createdMs

def OldestFirst (s : Shelf) (clockMs : Nat) : Prop :=
  ∀ x ∈ (s.spool.young clockMs).rows, x ∉ (s.evict clockMs).rows →
    ∀ r ∈ (s.evict clockMs).rows, s.order x.1 < s.order r.1

def LongEnough (s : Shelf) (clockMs now : Nat) : Prop :=
  ∀ x ∈ s.rows, x ∉ (s.spool.young clockMs).rows → s.born x.1 + s.spool.limits.maxAgeMs ≤ now

def Fair (now : Nat) (s : Shelf) (row : SegmentRow) : Prop :=
  (s.insert now row).OldestFirst row.2.createdMs ∧
    (s.insert now row).LongEnough row.2.createdMs now

instance (s : Shelf) (clockMs : Nat) : Decidable (s.OldestFirst clockMs) :=
  inferInstanceAs (Decidable (∀ x ∈ _, _ → ∀ r ∈ _, _))

instance (s : Shelf) (clockMs now : Nat) : Decidable (s.LongEnough clockMs now) :=
  inferInstanceAs (Decidable (∀ x ∈ _, _ → _))

instance (now : Nat) (s : Shelf) (row : SegmentRow) : Decidable (Fair now s row) :=
  inferInstanceAs (Decidable (_ ∧ _))

variable {s s' : Shelf} {row : SegmentRow} {now clock : Nat}

theorem insert_of_mem (h : row.1 ∈ s.spool.segments.keys) : s.insert now row = s := if_pos h

theorem insert_of_not_mem (h : row.1 ∉ s.spool.segments.keys) : s.insert now row =
      { spool := s.spool.insert row
        count := s.count + 1
        order := update s.order row.1 s.count
        born := update s.born row.1 now } :=
  if_neg h

theorem rows_insert_of_not_mem (h : row.1 ∉ s.spool.segments.keys) :
    (s.insert now row).rows = s.rows ++ [row] := by
  rw [insert_of_not_mem h]
  exact Table.rows_insertNew_of_not_mem h row.2

variable {r : SegmentRow} {batch : List SegmentRow}

theorem mem_rows_insert (h : r ∈ (s.insert now row).rows) : r ∈ s.rows ∨ r = row := by
  by_cases hk : row.1 ∈ s.spool.segments.keys
  · rw [insert_of_mem hk] at h
    exact .inl h
  · rwa [rows_insert_of_not_mem hk, mem_append, mem_singleton] at h

theorem insert_spool (now : Nat) (s : Shelf) (row : SegmentRow) :
    (s.insert now row).spool = s.spool.insert row := by
  by_cases hk : row.1 ∈ s.spool.segments.keys
  · rw [insert_of_mem hk, Spool.insert, Table.insertNew_of_mem hk]
  · rw [insert_of_not_mem hk]

theorem put_spool (now : Nat) (s : Shelf) (row : SegmentRow) :
    (s.put now row).spool = s.spool.pushed row := by
  rw [put, evict, insert_spool]
  rfl

theorem foldl_put_spool (now : Nat) (s : Shelf) (rows : List SegmentRow) :
    (rows.foldl (put now) s).spool = rows.foldl Spool.pushed s.spool := by
  induction rows generalizing s with
  | nil => rfl
  | cons row rows ih => rw [foldl_cons, ih, put_spool, foldl_cons]

theorem rows_evict_sublist (s : Shelf) (clock : Nat) : (s.evict clock).rows.Sublist s.rows :=
  s.spool.enforceLimits_sublist clock

theorem mem_rows_put (h : r ∈ (s.put now row).rows) : r ∈ s.rows ∨ r = row :=
  mem_rows_insert ((rows_evict_sublist _ _).subset h)

theorem mem_rows_run (h : r ∈ (run (put now) s batch).rows) : r ∈ s.rows ∨ r ∈ batch := by
  induction batch generalizing s with
  | nil => exact .inl h
  | cons row batch ih =>
    rcases ih h with hr | hr
    · rcases mem_rows_put hr with hr | rfl
      · exact .inl hr
      · exact .inr mem_cons_self
    · exact .inr (mem_cons_of_mem _ hr)

/-! ## The order of pushing -/

structure Ordered (s : Shelf) : Prop where
  pushed : s.rows.Pairwise fun a b => s.order a.1 < s.order b.1
  counted : ∀ r ∈ s.rows, s.order r.1 < s.count
  evictable : s.rows.Pairwise fun a b => Spool.evictOrder a b = true

theorem Ordered.sublist (h : s.Ordered) (hrows : s'.rows.Sublist s.rows)
    (hcount : s'.count = s.count) (horder : s'.order = s.order) : s'.Ordered where
  pushed := by
    rw [horder]
    exact h.pushed.sublist hrows
  counted r hr := by
    rw [horder, hcount]
    exact h.counted r (hrows.subset hr)
  evictable := h.evictable.sublist hrows

theorem Ordered.insert (h : s.Ordered)
    (hafter : ∀ r ∈ s.rows, Spool.evictOrder r row = true) : (s.insert now row).Ordered := by
  by_cases hk : row.1 ∈ s.spool.segments.keys
  · rwa [insert_of_mem hk]
  have hrows : (s.insert now row).rows = s.rows ++ [row] := rows_insert_of_not_mem hk
  have hne : ∀ r ∈ s.rows, r.1 ≠ row.1 := fun r hr he => hk (he ▸ mem_map_of_mem hr)
  have hold : ∀ r ∈ s.rows, (s.insert now row).order r.1 = s.order r.1 := fun r hr => by
    rw [insert_of_not_mem hk]
    exact update_of_ne (hne r hr) _ _
  have hnew : (s.insert now row).order row.1 = s.count := by
    rw [insert_of_not_mem hk]
    exact update_self ..
  have hcount : (s.insert now row).count = s.count + 1 := by rw [insert_of_not_mem hk]
  refine ⟨?_, fun r hr => ?_, ?_⟩
  · rw [hrows, pairwise_append]
    refine ⟨?_, pairwise_singleton _ _, fun a ha b hb => ?_⟩
    · refine h.pushed.imp_of_mem fun {a b} ha hb hab => ?_
      rwa [hold a ha, hold b hb]
    rw [mem_singleton.mp hb, hold a ha, hnew]
    exact h.counted a ha
  · rw [hcount]
    rcases mem_rows_insert hr with hr | rfl
    · rw [hold r hr]
      exact Nat.lt_succ_of_lt (h.counted r hr)
    rw [hnew]
    exact Nat.lt_succ_self _
  rw [hrows, pairwise_append]
  refine ⟨h.evictable, pairwise_singleton _ _, fun a ha b hb => ?_⟩
  rw [mem_singleton.mp hb]
  exact hafter a ha

theorem Ordered.oldestFirst (h : s.Ordered) (clock : Nat) : s.OldestFirst clock := by
  intro x hx hgone r hr
  obtain ⟨evicted, hsplit⟩ := Spool.enforceLimits_suffix clock h.evictable
  have hyoung : (s.spool.young clock).rows.Pairwise fun a b => s.order a.1 < s.order b.1 :=
    h.pushed.sublist filter_sublist
  rw [← hsplit, pairwise_append] at hyoung
  rw [← hsplit, mem_append] at hx
  exact hyoung.2.2 x (hx.resolve_right hgone) r hr

/-! ## The time of pushing -/

structure Aged (s : Shelf) (clock now : Nat) : Prop where
  stamped : ∀ r ∈ s.rows, r.2.createdMs < 2 ^ 63
  born : ∀ r ∈ s.rows, s.born r.1 ≤ now
  elapsed : ∀ r ∈ s.rows, clock + s.born r.1 ≤ r.2.createdMs + now

theorem Aged.sublist (h : s.Aged clock now) (hrows : s'.rows.Sublist s.rows)
    (hborn : s'.born = s.born) : s'.Aged clock now where
  stamped r hr := h.stamped r (hrows.subset hr)
  born r hr := by
    rw [hborn]
    exact h.born r (hrows.subset hr)
  elapsed r hr := by
    rw [hborn]
    exact h.elapsed r (hrows.subset hr)

theorem Aged.later (h : s.Aged clock now) {clock' now' : Nat} (hnow : now ≤ now')
    (hclock : clock' + now ≤ clock + now') : s.Aged clock' now' where
  stamped := h.stamped
  born r hr := (h.born r hr).trans hnow
  elapsed r hr := by
    have := h.elapsed r hr
    omega

theorem Aged.insert (h : s.Aged clock now) (hrow : row.2.createdMs = clock)
    (hclock : clock < 2 ^ 63) : (s.insert now row).Aged clock now := by
  by_cases hk : row.1 ∈ s.spool.segments.keys
  · rwa [insert_of_mem hk]
  have hborn : ∀ r ∈ (s.insert now row).rows, (r ∈ s.rows ∧
      (s.insert now row).born r.1 = s.born r.1) ∨ (r = row ∧ (s.insert now row).born r.1 = now) :=
    fun r hr => by
      rw [insert_of_not_mem hk]
      rcases mem_rows_insert hr with hr | rfl
      · have hne : r.1 ≠ row.1 := fun he => hk (he ▸ mem_map_of_mem hr)
        exact .inl ⟨hr, update_of_ne hne _ _⟩
      · exact .inr ⟨rfl, update_self ..⟩
  refine ⟨fun r hr => ?_, fun r hr => ?_, fun r hr => ?_⟩
  · rcases hborn r hr with ⟨hr, -⟩ | ⟨rfl, -⟩
    · exact h.stamped r hr
    · omega
  · rcases hborn r hr with ⟨hr, he⟩ | ⟨rfl, he⟩
    · exact he ▸ h.born r hr
    · omega
  rcases hborn r hr with ⟨hr, he⟩ | ⟨rfl, he⟩
  · exact he ▸ h.elapsed r hr
  · omega

theorem Aged.longEnough (h : s.Aged clock now) (hclock : clock < 2 ^ 63) :
    s.LongEnough clock now := by
  intro x hx hold
  have hevicted : asI64 x.2.createdMs < asI64 (clock - s.spool.limits.maxAgeMs) := by
    by_contra hkept
    exact hold (mem_filter.mpr ⟨hx, by simpa using hkept⟩)
  rw [asI64_of_lt (h.stamped x hx), asI64_of_lt (by omega)] at hevicted
  have := h.elapsed x hx
  omega

/-! ## A batch of pushes -/

theorem along_oldestFirst (now : Nat) (h : s.Ordered)
    (hbatch : batch.Pairwise fun a b => Spool.evictOrder a b = true)
    (hafter : ∀ r ∈ s.rows, ∀ row ∈ batch, Spool.evictOrder r row = true) :
    Along (put now) (fun s row => (s.insert now row).OldestFirst row.2.createdMs) s batch ∧
      (run (put now) s batch).Ordered := by
  induction batch generalizing s with
  | nil => exact ⟨trivial, h⟩
  | cons row batch ih =>
    obtain ⟨hrow, hbatch⟩ := pairwise_cons.mp hbatch
    have hinserted : (s.insert now row).Ordered :=
      h.insert fun r hr => hafter r hr row mem_cons_self
    have hrest := ih (hinserted.sublist (rows_evict_sublist ..) rfl rfl) hbatch fun r hr x hx => by
      rcases mem_rows_put hr with hr | rfl
      · exact hafter r hr x (mem_cons_of_mem _ hx)
      · exact hrow x hx
    exact ⟨⟨hinserted.oldestFirst _, hrest.1⟩, hrest.2⟩

theorem along_longEnough (h : s.Aged clock now) (hbatch : ∀ row ∈ batch, row.2.createdMs = clock)
    (hclock : clock < 2 ^ 63) :
    Along (put now) (fun s row => (s.insert now row).LongEnough row.2.createdMs now) s batch ∧
      (run (put now) s batch).Aged clock now := by
  induction batch generalizing s with
  | nil => exact ⟨trivial, h⟩
  | cons row batch ih =>
    have hrow := hbatch row mem_cons_self
    have hinserted := h.insert hrow hclock
    have hrest := ih (hinserted.sublist (rows_evict_sublist _ row.2.createdMs) rfl)
      fun x hx => hbatch x (mem_cons_of_mem _ hx)
    have hpush : (s.insert now row).LongEnough row.2.createdMs now := by
      rw [hrow]
      exact hinserted.longEnough hclock
    exact ⟨⟨hpush, hrest.1⟩, hrest.2⟩

end Shelf

end Sentinel
