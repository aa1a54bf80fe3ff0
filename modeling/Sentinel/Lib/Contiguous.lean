import Mathlib.Order.Lattice.Nat

/-!
# Runs of consecutive numbers

Numbered items arrive in any order, and one wants to know up to which number all are there. A run of
consecutive numbers extends a number `base` known beforehand, or starts at zero if there is none.
-/

namespace Contiguous

variable {base : Option ℕ} {R : Set ℕ} {t : ℕ}

def Reaches (base : Option ℕ) (R : Set ℕ) (t : ℕ) : Prop :=
  (∀ b ∈ base, b ≤ t) ∧ ∀ q ≤ t, (∀ b ∈ base, b < q) → q ∈ R

theorem Reaches.succ (h : Reaches base R t) (hnext : t + 1 ∈ R) : Reaches base R (t + 1) := by
  refine ⟨fun b hb => (h.1 b hb).trans (Nat.le_succ t), fun q hq hbase => ?_⟩
  rcases Nat.le_succ_iff.mp hq with hq | rfl
  · exact h.2 q hq hbase
  · exact hnext

theorem isGreatest_iff : IsGreatest {t | Reaches base R t} t ↔ Reaches base R t ∧ t + 1 ∉ R := by
  constructor
  · rintro ⟨hreaches, hmax⟩
    refine ⟨hreaches, fun hnext => ?_⟩
    exact Nat.not_succ_le_self t (hmax (hreaches.succ hnext))
  rintro ⟨hreaches, hnext⟩
  refine ⟨hreaches, fun t' ht' => ?_⟩
  by_contra hlt
  refine hnext (ht'.2 (t + 1) (not_le.mp hlt) fun b hb => ?_)
  exact Nat.lt_succ_of_le (hreaches.1 b hb)

end Contiguous
