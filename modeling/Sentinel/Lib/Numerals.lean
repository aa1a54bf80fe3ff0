import Mathlib.Data.List.Induction
import Mathlib.Data.List.Nodup
import Mathlib.Algebra.Order.Ring.Nat

/-!
# Numerals of a fixed width

Identifiers are often numbers written in some base with a fixed number of letters, the most
significant first: base 32 for one library, base 16 for another.
-/

structure Alphabet (b : Nat) where
  letter : Nat → Char
  digit : Char → Option Nat
  digit_lt : ∀ {c d}, digit c = some d → d < b
  digit_letter : ∀ {d}, d < b → digit (letter d) = some d

open List Nat Option

namespace Alphabet

variable {b : Nat} (A : Alphabet b)

def write : Nat → Nat → List Char
  | 0, _ => []
  | w + 1, n => write w (n / b) ++ [A.letter (n % b)]

def readLetter (n : Nat) (c : Char) : Option Nat :=
  (A.digit c).map fun d => n * b + d

def read (cs : List Char) : Option Nat :=
  cs.foldlM A.readLetter 0

@[simp] theorem length_write (w n : Nat) : (A.write w n).length = w := by
  induction w generalizing n with
  | zero => rfl
  | succ w ih => simp [write, ih]

variable {n d : Nat} {c : Char} {cs : List Char}

theorem exists_letter_of_mem_write {w : Nat} (hb : 0 < b) (h : c ∈ A.write w n) :
    ∃ d < b, A.letter d = c := by
  induction w generalizing n with
  | zero => exact absurd h not_mem_nil
  | succ w ih =>
    rcases mem_append.mp h with h | h
    · exact ih h
    · exact ⟨n % b, mod_lt n hb, (mem_singleton.mp h).symm⟩

@[simp] theorem read_nil : A.read [] = some 0 := rfl

theorem read_concat (cs : List Char) (c : Char) :
    A.read (cs ++ [c]) = (A.read cs).bind fun n => A.readLetter n c := by
  simp [read, foldlM_append]

theorem readLetter_eq_some {m : Nat} :
    A.readLetter n c = some m ↔ ∃ d, A.digit c = some d ∧ n * b + d = m := by
  simp [readLetter]

theorem read_concat_eq_some (h : A.read (cs ++ [c]) = some n) :
    ∃ m d, A.read cs = some m ∧ A.digit c = some d ∧ d < b ∧ n = m * b + d := by
  rw [read_concat] at h
  obtain ⟨m, hm, hn⟩ := bind_eq_some_iff.mp h
  obtain ⟨d, hd, rfl⟩ := A.readLetter_eq_some.mp hn
  exact ⟨m, d, hm, hd, A.digit_lt hd, rfl⟩

theorem read_write {w : Nat} (h : n < b ^ w) : A.read (A.write w n) = some n := by
  induction w generalizing n with
  | zero =>
    have hn : n = 0 := by simpa using h
    rw [hn]
    rfl
  | succ w ih =>
    have hb : 0 < b := pos_of_ne_zero fun hb => by simp [hb] at h
    have hdiv : n / b < b ^ w := by
      rwa [div_lt_iff_lt_mul hb, ← pow_succ]
    rw [write, read_concat, ih hdiv, bind_some, readLetter, A.digit_letter (mod_lt n hb),
      map_some, div_add_mod']

theorem exists_digit (h : A.read cs = some n) (hc : c ∈ cs) : ∃ d, A.digit c = some d := by
  induction cs using reverseRecOn generalizing n with
  | nil => exact absurd hc not_mem_nil
  | append_singleton cs c' ih =>
    obtain ⟨m, d, hm, hd, -, -⟩ := A.read_concat_eq_some h
    rcases mem_append.mp hc with hc | hc
    · exact ih hm hc
    · exact ⟨d, mem_singleton.mp hc ▸ hd⟩

theorem read_bounds (hc : A.digit c = some d) (h : A.read (c :: cs) = some n) :
    d * b ^ cs.length ≤ n ∧ n < (d + 1) * b ^ cs.length := by
  induction cs using reverseRecOn generalizing n with
  | nil =>
    obtain rfl : d = n := by simpa [read, readLetter, hc] using h
    simp
  | append_singleton cs c' ih =>
    rw [← cons_append] at h
    obtain ⟨m, e, hm, -, he, rfl⟩ := A.read_concat_eq_some h
    obtain ⟨hle, hlt⟩ := ih hm
    rw [length_append, length_singleton, pow_succ, ← mul_assoc, ← mul_assoc]
    constructor
    · calc d * b ^ cs.length * b ≤ m * b := mul_le_mul_right b hle
        _ ≤ m * b + e := le_add_right _ _
    calc m * b + e < (m + 1) * b := by rw [add_mul, one_mul]; omega
      _ ≤ (d + 1) * b ^ cs.length * b := mul_le_mul_right b hlt

theorem read_congr {A' : Alphabet b} (h : ∀ c ∈ cs, A.digit c = A'.digit c) :
    A.read cs = A'.read cs := by
  induction cs using reverseRecOn with
  | nil => rfl
  | append_singleton cs c ih =>
    have hc : A.digit c = A'.digit c := h c (by simp)
    rw [read_concat, read_concat, ih fun x hx => h x (mem_append_left _ hx)]
    simp only [readLetter, hc]

theorem write_succ (w n : Nat) : A.write (w + 1) n = A.letter (n / b ^ w % b) :: A.write w n := by
  induction w generalizing n with
  | zero => simp [write]
  | succ w ih => rw [write, ih, cons_append, Nat.div_div_eq_div_mul, ← Nat.pow_succ', write]

/-! ## Alphabets given as lists -/

def ofLetters (letters : List Char) (fold : Char → Char) (hnodup : letters.Nodup)
    (hfold : letters.map fold = letters) : Alphabet letters.length where
  letter d := letters.getD d default
  digit c := if fold c ∈ letters then some (letters.idxOf (fold c)) else none
  digit_lt := by
    intro c d h
    obtain ⟨hmem, ⟨rfl⟩⟩ := Option.ite_none_right_eq_some.mp h
    exact idxOf_lt_length_iff.mpr hmem
  digit_letter := by
    intro d h
    have hself : fold letters[d] = letters[d] :=
      map_inj_left.mp (hfold.trans (map_id letters).symm) _ (getElem_mem h)
    rw [getD_eq_getElem?_getD, List.getElem?_eq_getElem h, Option.getD_some, hself,
      if_pos (getElem_mem h), hnodup.idxOf_getElem d h]

end Alphabet
