import Mathlib.Data.List.Sort

/-!
# Stable sorting and parts of a list

`List.insertionSort` keeps elements that compare equal in the order in which they came, so it does
not matter whether a part of a list is picked out before the sort or after it.
-/

namespace List

variable {α : Type*} {r : α → α → Prop} [DecidableRel r]

variable {l : List α}

theorem orderedInsert_of_forall {a : α} (h : ∀ b ∈ l, r a b) : l.orderedInsert r a = a :: l := by
  cases l with
  | nil => rfl
  | cons b l => exact orderedInsert_cons_of_le r l (h b mem_cons_self)

theorem filter_orderedInsert [IsTrans α r] (p : α → Bool) (a : α) (hl : l.Pairwise r) :
    (l.orderedInsert r a).filter p =
      if p a then (l.filter p).orderedInsert r a else l.filter p := by
  induction l with
  | nil => cases hp : p a <;> simp [hp]
  | cons b l ih =>
    obtain ⟨hb, hl⟩ := pairwise_cons.mp hl
    by_cases hab : r a b
    · have hbelow : ∀ c ∈ (b :: l).filter p, r a c := fun c hc => by
        rcases mem_cons.mp (mem_of_mem_filter hc) with rfl | hc
        · exact hab
        · exact IsTrans.trans a b c hab (hb c hc)
      rw [orderedInsert_cons_of_le r l hab, orderedInsert_of_forall hbelow]
      cases hp : p a <;> simp [hp]
    rw [orderedInsert_of_not_le r l hab]
    cases hpb : p b with
    | false => simpa [hpb] using ih hl
    | true =>
      cases hpa : p a with
      | false => simpa [hpa, hpb] using ih hl
      | true =>
        have hih := ih hl
        rw [hpa, if_pos rfl] at hih
        simp [hpb, hih, orderedInsert_of_not_le r _ hab]

theorem filter_insertionSort [IsTrans α r] [Std.Total r] (p : α → Bool) (l : List α) :
    (l.insertionSort r).filter p = (l.filter p).insertionSort r := by
  induction l with
  | nil => rfl
  | cons a l ih =>
    rw [insertionSort_cons, filter_orderedInsert p a (pairwise_insertionSort r l), ih]
    cases hp : p a <;> simp [hp]

theorem filter_not_mem_take {β : Type*} [DecidableEq β] {f : α → β} (h : (l.map f).Nodup)
    (n : Nat) : l.filter (fun a => decide (f a ∉ (l.take n).map f)) = l.drop n := by
  rw [← take_append_drop n l, map_append, nodup_append] at h
  have hfirst : ∀ a ∈ l.take n, f a ∈ (l.take n).map f := fun a ha => mem_map_of_mem ha
  have hrest : ∀ a ∈ l.drop n, f a ∉ (l.take n).map f := fun a ha hmem =>
    h.2.2 (f a) hmem (f a) (mem_map_of_mem ha) rfl
  conv_lhs => rw [← take_append_drop n l, filter_append]
  rw [take_append_drop, filter_eq_nil_iff.mpr (by simpa using hfirst),
    filter_eq_self.mpr (by simpa using hrest), nil_append]

end List
