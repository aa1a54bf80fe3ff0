import Mathlib.Order.Bounds.Basic
import Mathlib.Order.MinMax

/-!
# Edit distance

The least number of insertions, deletions and substitutions that turn one list into another.  The
recursion of the textbook computes it: every edit changes the distance to a fixed list by at most
one, and each clause of the recursion is itself a sequence of edits.
-/

open List

namespace Edits

variable {α : Type*}

/-- One edit, anywhere in the list. -/
inductive Edit : List α → List α → Prop
  | insert (l : List α) (x : α) (r : List α) : Edit (l ++ r) (l ++ x :: r)
  | delete (l : List α) (x : α) (r : List α) : Edit (l ++ x :: r) (l ++ r)
  | substitute (l : List α) (x y : α) (r : List α) : Edit (l ++ x :: r) (l ++ y :: r)

/-- So many edits, one after the other. -/
inductive Steps : Nat → List α → List α → Prop
  | refl (a : List α) : Steps 0 a a
  | step {n : Nat} {a b c : List α} : Steps n a b → Edit b c → Steps (n + 1) a c

variable {a b c : List α} {n : Nat}

theorem Edit.cons (x : α) (h : Edit a b) : Edit (x :: a) (x :: b) := by
  cases h with
  | insert l y r => exact .insert (x :: l) y r
  | delete l y r => exact .delete (x :: l) y r
  | substitute l y z r => exact .substitute (x :: l) y z r

theorem Edit.reverse (h : Edit a b) : Edit a.reverse b.reverse := by
  cases h with
  | insert l x r => simpa using Edit.insert r.reverse x l.reverse
  | delete l x r => simpa using Edit.delete r.reverse x l.reverse
  | substitute l x y r => simpa using Edit.substitute r.reverse x y l.reverse

theorem Steps.map {f : List α → List α} (hf : ∀ {a b}, Edit a b → Edit (f a) (f b))
    (h : Steps n a b) : Steps n (f a) (f b) := by
  induction h with
  | refl a => exact .refl (f a)
  | step _ hedit ih => exact ih.step (hf hedit)

theorem Steps.cons_left (x : α) (h : Steps n a b) : Steps (n + 1) (x :: a) b := by
  induction h with
  | refl a => exact (Steps.refl _).step (.delete [] x a)
  | step _ hedit ih => exact ih.step hedit

theorem steps_nil (a : List α) : Steps a.length a [] := by
  induction a with
  | nil => exact .refl []
  | cons x a ih => exact ih.cons_left x

variable [DecidableEq α]

def distance : List α → List α → Nat
  | [], b => b.length
  | a, [] => a.length
  | x :: a, y :: b =>
    min (min (distance a (y :: b) + 1) (distance (x :: a) b + 1))
      (distance a b + if x = y then 0 else 1)
termination_by a b => a.length + b.length

@[simp] theorem distance_nil_left (b : List α) : distance [] b = b.length := by rw [distance]

@[simp] theorem distance_nil_right (a : List α) : distance a [] = a.length := by
  cases a <;> simp [distance]

theorem distance_cons_cons (x y : α) (a b : List α) : distance (x :: a) (y :: b) =
      min (min (distance a (y :: b) + 1) (distance (x :: a) b + 1))
        (distance a b + if x = y then 0 else 1) := by
  rw [distance]

theorem distance_self (a : List α) : distance a a = 0 := by
  induction a with
  | nil => simp
  | cons x a ih => simp [distance_cons_cons, ih]

theorem distance_cons_left_le (x : α) (a b : List α) : distance (x :: a) b ≤ distance a b + 1 := by
  cases b with
  | nil => simp
  | cons y b => rw [distance_cons_cons]; omega

theorem distance_cons_right_le (y : α) (a b : List α) : distance a (y :: b) ≤ distance a b + 1 := by
  cases a with
  | nil => simp
  | cons x a => rw [distance_cons_cons]; omega

/-- A change of the target that moves no distance by more than one still does so behind a common
first element. -/
theorem distance_cons_le (h : ∀ a : List α, distance a c ≤ distance a b + 1) (z : α) (a : List α) :
    distance a (z :: c) ≤ distance a (z :: b) + 1 := by
  induction a with
  | nil => simpa using h []
  | cons x a ih =>
    have hb := h (x :: a)
    have ha := h a
    rw [distance_cons_cons, distance_cons_cons]
    omega

theorem distance_le_cons_right (y : α) (a b : List α) : distance a b ≤ distance a (y :: b) + 1 := by
  induction a with
  | nil => simp; omega
  | cons x a ih =>
    have hx := distance_cons_left_le x a b
    rw [distance_cons_cons]
    split <;> omega

theorem distance_substitute_le (y z : α) (a b : List α) :
    distance a (z :: b) ≤ distance a (y :: b) + 1 := by
  induction a with
  | nil => simp
  | cons x a ih =>
    rw [distance_cons_cons, distance_cons_cons]
    split <;> split <;> omega

theorem Edit.distance_le (h : Edit b c) (a : List α) : distance a c ≤ distance a b + 1 := by
  have hbehind : ∀ (l b c : List α), (∀ a : List α, distance a c ≤ distance a b + 1) →
      ∀ a : List α, distance a (l ++ c) ≤ distance a (l ++ b) + 1 := by
    intro l b c h
    induction l with
    | nil => exact h
    | cons z l ih => exact distance_cons_le ih z
  cases h with
  | insert l x r => exact hbehind l _ _ (fun a => distance_cons_right_le x a r) a
  | delete l x r => exact hbehind l _ _ (fun a => distance_le_cons_right x a r) a
  | substitute l x y r => exact hbehind l _ _ (fun a => distance_substitute_le x y a r) a

theorem Steps.distance_le (h : Steps n a b) : distance a b ≤ n := by
  induction h with
  | refl a => exact (distance_self a).le
  | step _ hedit ih => exact (hedit.distance_le _).trans (Nat.succ_le_succ ih)

theorem steps_distance (a b : List α) : Steps (distance a b) a b := by
  fun_induction distance a b with
  | case1 b =>
    induction b with
    | nil => exact .refl []
    | cons y b ih => exact ih.step (.insert [] y b)
  | case2 a => exact steps_nil a
  | case3 x a y b hdelete hinsert hkeep =>
    rcases min_choice (min (distance a (y :: b) + 1) (distance (x :: a) b + 1))
      (distance a b + if x = y then 0 else 1) with h | h
    · rw [h]
      rcases min_choice (distance a (y :: b) + 1) (distance (x :: a) b + 1) with h | h
      · rw [h]
        exact hdelete.cons_left x
      rw [h]
      exact hinsert.step (.insert [] y b)
    rw [h]
    split
    case isTrue hxy => exact hxy ▸ hkeep.map (Edit.cons x)
    case isFalse => exact (hkeep.map (Edit.cons x)).step (.substitute [] x y b)

/-- **The recursion computes the least number of edits.** -/
theorem isLeast_distance (a b : List α) : IsLeast {n | Steps n a b} (distance a b) :=
  ⟨steps_distance a b, fun _ h => h.distance_le⟩

theorem distance_reverse (a b : List α) : distance a.reverse b.reverse = distance a b := by
  refine le_antisymm ((steps_distance a b).map Edit.reverse).distance_le ?_
  simpa using ((steps_distance a.reverse b.reverse).map Edit.reverse).distance_le

end Edits
