import Mathlib.Data.List.Perm.Subperm
import Mathlib.Data.List.Sort

/-!
# Pages behind a cursor

A listing returns its rows by a descending key, so many a page, and the key of the last row of a
full page is the cursor of the next: the rows with a smaller key.
-/

open List

namespace Paging

variable {α : Type*} (key : α → Int) (limit : Nat) (rows : List α)

def below (cursor : Option Int) : List α := rows.filter fun r => ∀ t ∈ cursor, key r < t

def sorted (cursor : Option Int) : List α :=
  (below key rows cursor).mergeSort fun r r' => key r' ≤ key r

def page (cursor : Option Int) : List α := (sorted key rows cursor).take limit

def next (cursor : Option Int) : Option Int :=
  if (page key limit rows cursor).length = limit then
    (page key limit rows cursor).getLast?.map key
  else none

def walk : Nat → Option Int → List (List α × Option Int)
  | 0, _ => []
  | n + 1, cursor => (page key limit rows cursor, next key limit rows cursor) ::
      match next key limit rows cursor with
      | none => []
      | some t => walk n (some t)

variable {key limit rows} {cursor : Option Int} {t : Int}

theorem sorted_perm : (sorted key rows cursor).Perm (below key rows cursor) :=
  mergeSort_perm _ _

theorem pairwise_sorted (key : α → Int) (rows : List α) (cursor : Option Int) :
    (sorted key rows cursor).Pairwise fun r r' => key r' ≤ key r := by
  refine (pairwise_mergeSort ?_ ?_ _).imp of_decide_eq_true
  · intro a b c hab hbc
    exact decide_eq_true ((of_decide_eq_true hbc).trans (of_decide_eq_true hab))
  intro a b
  simpa using le_total (key b) (key a)

def rest (key : α → Int) (limit : Nat) (rows : List α) (cursor : Option Int) : List α :=
  (sorted key rows cursor).drop limit

theorem page_append_rest (key : α → Int) (limit : Nat) (rows : List α) (cursor : Option Int) :
    (page key limit rows cursor ++ rest key limit rows cursor).Perm (below key rows cursor) := by
  rw [page, rest, take_append_drop]
  exact sorted_perm

theorem rest_of_next_eq_none (hlimit : 0 < limit) (h : next key limit rows cursor = none) :
    rest key limit rows cursor = [] := by
  unfold next at h
  split at h
  next hfull =>
    have hnil : page key limit rows cursor = [] := by simpa using h
    rw [hnil] at hfull
    exact absurd hfull hlimit.ne
  next hshort =>
    rw [page, length_take] at hshort
    exact drop_of_length_le (by omega)

theorem of_next_eq_some (h : next key limit rows cursor = some t) :
    (∃ r ∈ page key limit rows cursor, key r = t) ∧ (∀ u ∈ cursor, t < u) ∧
      (∀ r ∈ page key limit rows cursor, t ≤ key r) ∧
      ∀ r ∈ rest key limit rows cursor, key r ≤ t := by
  unfold next at h
  split at h
  case isFalse => cases h
  obtain ⟨last, hlast, rfl⟩ := Option.map_eq_some_iff.mp h
  have hmem := mem_of_getLast? hlast
  obtain ⟨init, hinit⟩ := getLast?_eq_some_iff.mp hlast
  have hsplit : sorted key rows cursor = init ++ [last] ++ rest key limit rows cursor := by
    rw [← hinit, page, rest, take_append_drop]
  have hpair := pairwise_sorted key rows cursor
  rw [hsplit, append_assoc, pairwise_append] at hpair
  obtain ⟨-, hlater, hcross⟩ := hpair
  refine ⟨⟨last, hmem, rfl⟩, fun u hu => ?_, fun r hr => ?_, (pairwise_cons.mp hlater).1⟩
  · have hbelow := sorted_perm.subset (mem_of_mem_take hmem)
    exact of_decide_eq_true (mem_filter.mp hbelow).2 u hu
  rw [hinit] at hr
  rcases mem_append.mp hr with hr | hr
  · exact hcross r hr last mem_cons_self
  · rw [mem_singleton.mp hr]

theorem below_next (h : next key limit rows cursor = some t) :
    (below key rows (some t)).Perm ((rest key limit rows cursor).filter fun r => key r < t) := by
  obtain ⟨-, hlt, hpage, -⟩ := of_next_eq_some h
  have hfilter : below key rows (some t) =
      (below key rows cursor).filter fun r => key r < t := by
    rw [below, below, filter_filter]
    refine filter_congr fun r _ => ?_
    rw [Bool.eq_iff_iff]
    simp only [decide_eq_true_eq, Option.mem_some_iff, forall_eq', Bool.and_eq_true]
    exact ⟨fun hr => ⟨hr, fun u hu => hr.trans (hlt u hu)⟩, And.left⟩
  have hnone : (page key limit rows cursor).filter (fun r => key r < t) = [] :=
    filter_eq_nil_iff.mpr fun r hr => by simpa using hpage r hr
  rw [hfilter]
  refine ((page_append_rest key limit rows cursor).symm.filter _).trans ?_
  rw [filter_append, hnone, nil_append]

theorem length_below_next (h : next key limit rows cursor = some t) :
    (below key rows (some t)).length < (below key rows cursor).length := by
  obtain ⟨⟨r, hr, -⟩, -⟩ := of_next_eq_some h
  rw [(below_next h).length_eq, ← (page_append_rest key limit rows cursor).length_eq, length_append]
  have hpos := length_pos_of_mem hr
  exact Nat.lt_of_le_of_lt (length_filter_le _ _) (by omega)

theorem walk_subperm (key : α → Int) (limit : Nat) (rows : List α) (n : Nat) (cursor : Option Int) :
    ((walk key limit rows n cursor).flatMap Prod.fst).Subperm (below key rows cursor) := by
  induction n generalizing cursor with
  | zero => exact nil_subperm
  | succ n ih =>
    rw [walk, flatMap_cons]
    refine Subperm.trans ?_ (page_append_rest key limit rows cursor).subperm
    refine (subperm_append_left _).mpr ?_
    split
    · exact nil_subperm
    next t h => exact (ih _).trans ((below_next h).subperm.trans filter_sublist.subperm)

theorem walk_ends {n : Nat} (hn : (below key rows cursor).length < n) :
    (walk key limit rows n cursor).getLast?.map Prod.snd = some none := by
  induction n generalizing cursor with
  | zero => exact absurd hn (Nat.not_lt_zero _)
  | succ n ih =>
    rw [walk]
    split
    next h => rw [h]; rfl
    next t h =>
      have hlater := @ih (some t) (by have := length_below_next h; omega)
      rw [getLast?_cons]
      revert hlater
      cases (walk key limit rows n (some t)).getLast? <;> simp

theorem below_next_perm_rest_iff (hnodup : rows.Nodup) (h : next key limit rows cursor = some t) :
    (below key rows (some t)).Perm (rest key limit rows cursor) ↔
      ∀ r ∈ rows, key r = t → r ∈ page key limit rows cursor := by
  obtain ⟨-, hlt, -, hrest⟩ := of_next_eq_some h
  have hsplit := page_append_rest key limit rows cursor
  constructor
  · intro hperm r hr hkey
    have hbelow : r ∈ below key rows cursor :=
      mem_filter.mpr ⟨hr, decide_eq_true fun u hu => hkey ▸ hlt u hu⟩
    refine (mem_append.mp (hsplit.symm.subset hbelow)).resolve_right fun hmem => ?_
    have hless := (mem_filter.mp (hperm.symm.subset hmem)).2
    simp [hkey] at hless
  intro hpage
  have hall : (rest key limit rows cursor).filter (fun r => key r < t) =
      rest key limit rows cursor := by
    refine filter_eq_self.mpr fun r hr => decide_eq_true ?_
    refine lt_of_le_of_ne (hrest r hr) fun hkey => ?_
    have hmem : r ∈ rows := mem_of_mem_filter (hsplit.subset (mem_append_right _ hr))
    have hdisjoint := (nodup_append'.mp (hsplit.nodup_iff.mpr (hnodup.filter _))).2.2
    exact hdisjoint (hpage r hmem hkey) hr
  exact hall ▸ below_next h

theorem walk_perm_iff (hlimit : 0 < limit) (hnodup : rows.Nodup) {n : Nat}
    (hn : (below key rows cursor).length < n) :
    ((walk key limit rows n cursor).flatMap Prod.fst).Perm (below key rows cursor) ↔
      ∀ p ∈ walk key limit rows n cursor, ∀ t ∈ p.2, ∀ r ∈ rows, key r = t → r ∈ p.1 := by
  induction n generalizing cursor with
  | zero => exact absurd hn (Nat.not_lt_zero _)
  | succ n ih =>
    rw [walk, flatMap_cons, forall_mem_cons,
      Perm.congr_right (page_append_rest key limit rows cursor).symm, perm_append_left_iff]
    split
    next h => simp [h, rest_of_next_eq_none hlimit h]
    next t h =>
      have hlen := length_below_next h
      have hlater := walk_subperm key limit rows n (some t)
      have hbelow := (below_next h).subperm.trans filter_sublist.subperm
      simp only [h, Option.mem_some_iff, forall_eq']
      rw [← ih (by omega), ← below_next_perm_rest_iff hnodup h]
      constructor
      · intro hperm
        have hsame := hlater.antisymm (hbelow.trans hperm.symm.subperm)
        exact ⟨hsame.symm.trans hperm, hsame⟩
      · exact fun hperm => hperm.2.trans hperm.1

end Paging
