import Mathlib.Data.Multiset.AddSub
import Mathlib.Data.Rat.Defs
import Sentinel.Lib.Edits

/-!
# Scoring a transcript

`evaluate.py` compares what a recogniser heard with a reference: by the edit distance of the two
token lists, and by how many of the reference's numeric entities are missing.  The distance is
computed row by row, over the beginnings of the reference, with one cell for each beginning of the
hypothesis.
-/

open List

namespace Sentinel.Evaluation

section Distance

variable {α : Type} [DecidableEq α]

/-- The inner loop of `_levenshtein`: the cell to come is the one whose index is the number of cells
there are. -/
def fillRow (previous : List Nat) (ai : α) : List α → List Nat → List Nat
  | [], current => current
  | bj :: b, current =>
    let j := current.length
    fillRow previous ai b (current ++ [
      min (min (previous.getD j 0 + 1) (current.getD (j - 1) 0 + 1))
        (previous.getD (j - 1) 0 + if ai = bj then 0 else 1)])

/-- The outer loop. -/
def fillRows (b : List α) : List α → Nat → List Nat → List Nat
  | [], _, previous => previous
  | ai :: a, i, previous => fillRows b a (i + 1) (fillRow previous ai b [i])

def levenshtein (a b : List α) : Nat :=
  if a = [] then b.length
  else if b = [] then a.length
  else (fillRows b a 1 (range (b.length + 1))).getLastD 0

/-- The cells of the row for a beginning `p` of the reference, up to the `n`-th. -/
def cells (p b : List α) (n : Nat) : List Nat :=
  (range (n + 1)).map fun j => Edits.distance p.reverse (b.take j).reverse

theorem getD_cells {p b : List α} {n j : Nat} (h : j ≤ n) :
    (cells p b n).getD j 0 = Edits.distance p.reverse (b.take j).reverse := by
  simp [cells, getD_eq_getElem?_getD, Nat.lt_succ_of_le h]

theorem fillRow_cells (p q b : List α) (x : α) :
    fillRow (cells p (q ++ b) (q ++ b).length) x b (cells (p ++ [x]) (q ++ b) q.length) =
      cells (p ++ [x]) (q ++ b) (q ++ b).length := by
  induction b generalizing q with
  | nil => simp [fillRow]
  | cons y b ih =>
    have hlen : (cells (p ++ [x]) (q ++ y :: b) q.length).length = q.length + 1 := by simp [cells]
    have hbefore : (q ++ y :: b).take q.length = q := by simp
    have hthrough : (q ++ y :: b).take (q.length + 1) = q ++ [y] := take_length_add_append 1
    have hnext : cells (p ++ [x]) (q ++ y :: b) (q ++ [y]).length =
        cells (p ++ [x]) (q ++ y :: b) q.length ++
          [Edits.distance (p ++ [x]).reverse (q ++ [y]).reverse] := by
      rw [length_append, length_singleton, cells, range_succ, map_append, map_singleton, hthrough,
        cells]
    have ih := ih (q ++ [y])
    rw [append_assoc, singleton_append, hnext] at ih
    rw [fillRow, hlen, Nat.add_sub_cancel, getD_cells (by simp), getD_cells le_rfl,
      getD_cells (by simp), hbefore, hthrough, ← ih]
    simp [Edits.distance_cons_cons]

theorem fillRows_cells (p a b : List α) :
    fillRows b a (p.length + 1) (cells p b b.length) = cells (p ++ a) b b.length := by
  induction a generalizing p with
  | nil => simp [fillRows]
  | cons x a ih =>
    have hfirst : [p.length + 1] = cells (p ++ [x]) b 0 := by simp [cells]
    have hrow := fillRow_cells p [] b x
    rw [nil_append, length_nil] at hrow
    rw [fillRows, hfirst, hrow]
    simpa using ih (p ++ [x])

theorem levenshtein_eq (a b : List α) : levenshtein a b = Edits.distance a b := by
  have hinit : range (b.length + 1) = cells [] b b.length := by
    refine (map_id _).symm.trans (map_congr_left fun j hj => ?_)
    have := mem_range.mp hj
    simp
    omega
  rw [levenshtein]
  split
  case isTrue h => simp [h]
  case isFalse =>
    split
    case isTrue h => simp [h]
    case isFalse =>
      have hrows := fillRows_cells [] a b
      rw [length_nil, Nat.zero_add, nil_append] at hrows
      rw [hinit, hrows, cells, range_succ, map_append, map_singleton, getLastD_concat, take_length,
        Edits.distance_reverse]

end Distance

/-! ## Numeric entities -/

/-- The loop of `numeric_entity_error_rate`: each entity of the reference takes one of its kind from
the hypothesis or is counted. -/
def missedEntities : List String → List String → Nat → Nat
  | [], _, missed => missed
  | entity :: ref, hyp, missed =>
    if entity ∈ hyp then missedEntities ref (hyp.erase entity) missed
    else missedEntities ref hyp (missed + 1)

/-- What finds the entities of a text, a regular expression and a normalisation, is a parameter. -/
def numericEntityErrorRate (numericEntities : String → List String)
    (reference hypothesis : String) : Rat :=
  let ref := numericEntities reference
  if ref = [] then 0
  else missedEntities ref (numericEntities hypothesis) 0 / ref.length

theorem missedEntities_eq (ref hyp : List String) (missed : Nat) :
    missedEntities ref hyp missed = missed + (ref.diff hyp).length := by
  induction ref generalizing hyp missed with
  | nil => simp [missedEntities]
  | cons entity ref ih =>
    rw [missedEntities]
    split
    case isTrue h => rw [ih, cons_diff_of_mem h]
    case isFalse h => rw [ih, cons_diff_of_not_mem h, length_cons]; omega

/-- **The two scores.**  The distance is the least number of edits, and the missed entities are what
is left of the reference when the hypothesis is taken away, as multisets. -/
theorem scores_exact :
    (∀ a b : List String, IsLeast {n | Edits.Steps n a b} (levenshtein a b)) ∧
      ∀ ref hyp : List String,
        missedEntities ref hyp 0 = ((ref : Multiset String) - (hyp : Multiset String)).card := by
  refine ⟨fun a b => ?_, fun ref hyp => ?_⟩
  · rw [levenshtein_eq]
    exact Edits.isLeast_distance a b
  · rw [missedEntities_eq, Nat.zero_add, Multiset.coe_sub, Multiset.coe_card]

end Sentinel.Evaluation
