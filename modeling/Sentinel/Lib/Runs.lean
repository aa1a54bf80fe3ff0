import Mathlib.Data.List.Basic

/-!
# Runs of a machine, step by step

A machine is a function `step : σ → ε → σ` and a run is a list of events folded through it.
-/

open List

namespace Runs

variable {σ ε : Type*} {step : σ → ε → σ} {s : σ} {e : ε} {es fs : List ε}

def run (step : σ → ε → σ) (s : σ) (es : List ε) : σ :=
  es.foldl step s

@[simp] theorem run_nil : run step s [] = s := rfl

@[simp] theorem run_cons : run step s (e :: es) = run step (step s e) es := rfl

theorem run_append : run step s (es ++ fs) = run step (run step s es) fs :=
  foldl_append ..

theorem run_concat : run step s (es ++ [e]) = step (run step s es) e :=
  run_append

def Along (step : σ → ε → σ) (P : σ → ε → Prop) : σ → List ε → Prop
  | _, [] => True
  | s, e :: es => P s e ∧ Along step P (step s e) es

variable {P Q : σ → ε → Prop} {I : σ → Prop}

@[simp] theorem along_nil : Along step P s [] := trivial

@[simp] theorem along_cons :
    Along step P s (e :: es) ↔ P s e ∧ Along step P (step s e) es := Iff.rfl

theorem along_append :
    Along step P s (es ++ fs) ↔ Along step P s es ∧ Along step P (run step s es) fs := by
  induction es generalizing s with
  | nil => simp
  | cons e es ih => simp only [cons_append, along_cons, run_cons, ih, and_assoc]

theorem along_of_forall (h : ∀ s e, P s e) : Along step P s es := by
  induction es generalizing s with
  | nil => trivial
  | cons e es ih => exact ⟨h s e, ih⟩

theorem along_and :
    Along step (fun s e => P s e ∧ Q s e) s es ↔ Along step P s es ∧ Along step Q s es := by
  induction es generalizing s with
  | nil => simp
  | cons e es ih => simp only [along_cons, ih, and_and_and_comm]

theorem Along.at (h : Along step P s (es ++ e :: fs)) : P (run step s es) e :=
  (along_append.mp h).2.1

theorem along_of_split (h : ∀ fs e gs, es = fs ++ e :: gs → P (run step s fs) e) :
    Along step P s es := by
  induction es generalizing s with
  | nil => trivial
  | cons e es ih =>
    refine ⟨h [] e es rfl, ih fun fs a gs heq => ?_⟩
    exact h (e :: fs) a gs (by rw [heq, cons_append])

instance decidableAlong [∀ s e, Decidable (P s e)] :
    ∀ (s : σ) (es : List ε), Decidable (Along step P s es)
  | _, [] => .isTrue trivial
  | s, e :: es =>
    haveI := decidableAlong (step s e) es
    inferInstanceAs (Decidable (P s e ∧ Along step P (step s e) es))

theorem run_invariant (h0 : I s) (hstep : ∀ s e, I s → I (step s e)) (es : List ε) :
    I (run step s es) := by
  induction es generalizing s with
  | nil => exact h0
  | cons e es ih => exact ih (hstep s e h0)

theorem run_invariant_of_mem (h0 : I s) (hstep : ∀ s, ∀ e ∈ es, I s → I (step s e)) :
    I (run step s es) := by
  induction es generalizing s with
  | nil => exact h0
  | cons e es ih =>
    exact ih (hstep s e mem_cons_self h0) fun s a ha => hstep s a (mem_cons_of_mem e ha)

theorem run_each {Q : ε → σ → Prop} (hself : ∀ s e, Q e (step s e))
    (hkeep : ∀ s e a, Q a s → Q a (step s e)) : ∀ e ∈ es, Q e (run step s es) := by
  induction es generalizing s with
  | nil => exact forall_mem_nil _
  | cons a es ih =>
    intro e he
    rcases mem_cons.mp he with rfl | he
    · exact run_invariant (hself s e) (fun s b => hkeep s b e) es
    · exact ih e he

theorem run_filter {R : σ → σ → Prop} {keep : ε → Bool} {s' : σ} (h0 : R s s')
    (hkept : ∀ s s', ∀ e ∈ es, keep e = true → R s s' → R (step s e) (step s' e))
    (hdropped : ∀ s s', ∀ e ∈ es, keep e = false → R s s' → R (step s e) s') :
    R (run step s es) (run step s' (es.filter keep)) := by
  induction es generalizing s s' with
  | nil => exact h0
  | cons e es ih =>
    have hmem : ∀ a ∈ es, a ∈ e :: es := fun a => mem_cons_of_mem e
    cases hkeep : keep e with
    | true =>
      rw [filter_cons_of_pos hkeep]
      exact ih (hkept s s' e mem_cons_self hkeep h0)
        (fun s s' a ha => hkept s s' a (hmem a ha)) fun s s' a ha => hdropped s s' a (hmem a ha)
    | false =>
      rw [filter_cons_of_neg (by simp [hkeep])]
      exact ih (hdropped s s' e mem_cons_self hkeep h0)
        (fun s s' a ha => hkept s s' a (hmem a ha)) fun s s' a ha => hdropped s s' a (hmem a ha)

theorem Along.invariant (hP : Along step P s es) (h0 : I s)
    (hstep : ∀ s e, I s → P s e → I (step s e)) : I (run step s es) := by
  induction es generalizing s with
  | nil => exact h0
  | cons e es ih => exact ih hP.2 (hstep s e h0 hP.1)

theorem Along.of_invariant (hP : Along step P s es) (h0 : I s)
    (hstep : ∀ s e, I s → P s e → I (step s e))
    (hQ : ∀ s e, I s → P s e → Q s e) : Along step Q s es := by
  induction es generalizing s with
  | nil => trivial
  | cons e es ih => exact ⟨hQ s e h0 hP.1, ih hP.2 (hstep s e h0 hP.1)⟩

theorem along_of_run_invariant (h0 : I s) (hstep : ∀ s e, I s → I (step s e))
    (hQ : ∀ s e, I s → Q s e) : Along step Q s es := by
  induction es generalizing s with
  | nil => trivial
  | cons e es ih => exact ⟨hQ s e h0, ih (hstep s e h0)⟩

theorem along_congr (h0 : I s) (hstep : ∀ s e, I s → P s e → I (step s e))
    (hPQ : ∀ s e, I s → (P s e ↔ Q s e)) : Along step P s es ↔ Along step Q s es := by
  induction es generalizing s with
  | nil => exact Iff.rfl
  | cons e es ih =>
    rw [along_cons, along_cons, ← hPQ s e h0]
    exact and_congr_right fun hP => ih (hstep s e h0 hP)

end Runs

/-!
# Histories

A history is a list to which things are appended as they happen.  Most of what one wants to
say of it is that each entry was allowed, given the entries before it.
-/

namespace History

variable {α : Type*} {P : List α → α → Prop} {t l : List α}

def Each (P : List α → α → Prop) (t : List α) : Prop := ∀ a m b, t = a ++ m :: b → P a m

theorem split_append {a b : List α} {m : α} (h : t ++ l = a ++ m :: b) :
    (∃ b', t = a ++ m :: b' ∧ b = b' ++ l) ∨ ∃ a', a = t ++ a' ∧ l = a' ++ m :: b := by
  rcases append_eq_append_iff.mp h with ⟨a', ha, hl⟩ | ⟨b', ht, hb⟩
  · exact .inr ⟨a', ha, hl⟩
  cases b' with
  | nil => exact .inr ⟨[], by simpa using ht.symm, hb.symm⟩
  | cons x b' =>
    obtain ⟨rfl, rfl⟩ := cons.inj hb
    exact .inl ⟨b', ht, rfl⟩

@[simp] theorem each_nil : Each P [] := fun a m b h => by simp at h

theorem Each.append (ht : Each P t) (hl : ∀ a m b, l = a ++ m :: b → P (t ++ a) m) :
    Each P (t ++ l) := by
  intro a m b h
  rcases split_append h with ⟨b', ht', -⟩ | ⟨a', rfl, hl'⟩
  · exact ht a m b' ht'
  · exact hl a' m b hl'

theorem Each.concat {m : α} (ht : Each P t) (hm : P t m) : Each P (t ++ [m]) := by
  refine ht.append fun a x b h => ?_
  cases a with
  | nil =>
    obtain ⟨rfl, -⟩ := cons.inj h
    rwa [append_nil]
  | cons y a => simp at h

theorem Each.of_prefix (ht : Each P t) (h : l <+: t) : Each P l := by
  obtain ⟨rest, rfl⟩ := h
  rintro a m b rfl
  exact ht a m (b ++ rest) (by simp)

end History
