import Mathlib.Data.List.Basic

/-!
# Calls that can fail

Code that talks to a file system or a codec makes calls in order and leaves at the first one that
fails. What a run meets is one number, how many calls succeed: a `Budget`.
-/

open List Nat

namespace Faults

/-! ## Budgets -/

abbrev Budget := Option Nat

namespace Budget

def spend : Budget → Option Budget
  | none => some none
  | some 0 => none
  | some (n + 1) => some (some n)

def Covers (b : Budget) (n : Nat) : Prop := ∀ k ∈ b, n ≤ k

instance (b : Budget) (n : Nat) : Decidable (b.Covers n) :=
  inferInstanceAs (Decidable (∀ _ ∈ _, _))

def after (b : Budget) (n : Nat) : Budget := b.map (· - n)

@[simp] theorem covers_zero (b : Budget) : b.Covers 0 := fun _ _ => zero_le _

@[simp] theorem covers_none (n : Nat) : Covers none n := nofun

@[simp] theorem covers_some {k n : Nat} : Covers (some k) n ↔ n ≤ k := by simp [Covers]

@[simp] theorem after_zero (b : Budget) : b.after 0 = b := by cases b <;> simp [after]

theorem after_after (b : Budget) (m n : Nat) : (b.after m).after n = b.after (m + n) := by
  cases b <;> simp [after, Nat.sub_sub]

theorem covers_add {b : Budget} {m n : Nat} :
    b.Covers (m + n) ↔ b.Covers m ∧ (b.after m).Covers n := by
  cases b with
  | none => simp [after]
  | some k =>
    simp only [after, Option.map_some, covers_some]
    omega

end Budget

/-! ## Computations -/

variable {σ ε ε' α β : Type}

abbrev Fallible (σ ε α : Type) := ExceptT ε (StateM σ) α

def exec (x : Fallible σ ε α) (s : σ) : Except ε α × σ := (x.run.run s).run

@[simp] theorem exec_pure (a : α) (s : σ) : exec (pure a : Fallible σ ε α) s = (.ok a, s) := rfl

@[simp] theorem exec_throw (e : ε) (s : σ) :
    exec (throw e : Fallible σ ε α) s = (.error e, s) := rfl

@[simp] theorem exec_ofExcept (r : Except ε α) (s : σ) :
    exec (ofExcept r : Fallible σ ε α) s = (r, s) := by
  cases r <;> rfl

theorem exec_bind (x : Fallible σ ε α) (f : α → Fallible σ ε β) (s : σ) :
    exec (x >>= f) s = match exec x s with
      | (.ok a, s') => exec (f a) s'
      | (.error e, s') => (.error e, s') := by
  change (ExceptT.bindCont f (exec x s).1 : StateM σ (Except ε β)) (exec x s).2 = _
  obtain ⟨_ | _, _⟩ := exec x s <;> rfl

theorem exec_bind_eq_ok {x : Fallible σ ε α} {f : α → Fallible σ ε β} {s s' : σ} {b : β}
    (h : exec (x >>= f) s = (.ok b, s')) :
    ∃ a t, exec x s = (.ok a, t) ∧ exec (f a) t = (.ok b, s') := by
  rw [exec_bind] at h
  revert h
  obtain ⟨_ | a, t⟩ := exec x s
  · exact fun h => nomatch h
  · exact fun h => ⟨a, t, rfl, h⟩

theorem bind_keeps {x : Fallible σ ε α} {f : α → Fallible σ ε β} {γ : Type} (view : σ → γ)
    (hx : ∀ s, view (exec x s).2 = view s) (hf : ∀ a s, view (exec (f a) s).2 = view s) (s : σ) :
    view (exec (x >>= f) s).2 = view s := by
  rw [exec_bind, ← hx s]
  obtain ⟨_ | a, s'⟩ := exec x s
  · rfl
  · exact hf a s'

theorem exec_adapt (g : ε → ε') (x : Fallible σ ε α) (s : σ) :
    exec (ExceptT.adapt g x) s = ((exec x s).1.mapError g, (exec x s).2) := rfl

def deferring (x : Fallible σ ε α) (y : Fallible σ ε Unit) : Fallible σ ε α :=
  ExceptT.mk do
    let r ← x.run
    let _ ← y.run
    return r

theorem exec_deferring (x : Fallible σ ε α) (y : Fallible σ ε Unit) (s : σ) :
    exec (deferring x y) s = ((exec x s).1, (exec y (exec x s).2).2) := rfl

/-! ## Calls that spend a budget -/

structure Faulty (σ : Type) where
  state : σ
  budget : Budget

def call (e : ε) (f : σ → σ) : Fallible (Faulty σ) ε Unit := do
  let s ← get
  match s.budget.spend with
  | none => throw e
  | some left => set { state := f s.state, budget := left : Faulty σ }

theorem exec_call_covered {e : ε} {f : σ → σ} {s : Faulty σ} (h : s.budget.Covers 1) :
    exec (call e f) s = (.ok (), ⟨f s.state, s.budget.after 1⟩) := by
  obtain ⟨state, _ | _ | k⟩ := s
  · rfl
  · simp at h
  · rfl

theorem exec_call_spent (e : ε) (f : σ → σ) (a : σ) :
    exec (call e f) ⟨a, some 0⟩ = (.error e, ⟨a, some 0⟩) := rfl

theorem exec_call_eq_ok {e : ε} {f : σ → σ} {s s' : Faulty σ}
    (h : exec (call e f) s = (.ok (), s')) :
    s.budget ≠ some 0 ∧ s' = ⟨f s.state, s.budget.after 1⟩ := by
  obtain ⟨state, _ | _ | k⟩ := s
  · exact ⟨nofun, (Prod.mk.inj h).2.symm⟩
  · rw [exec_call_spent] at h
    exact absurd (Prod.mk.inj h).1 nofun
  · exact ⟨nofun, (Prod.mk.inj h).2.symm⟩

def applyAll (fs : List (σ → σ)) (s : σ) : σ := fs.foldl (fun s f => f s) s

@[simp] theorem applyAll_nil (s : σ) : applyAll [] s = s := rfl

@[simp] theorem applyAll_cons (f : σ → σ) (fs : List (σ → σ)) (s : σ) :
    applyAll (f :: fs) s = applyAll fs (f s) := rfl

theorem applyAll_append (fs gs : List (σ → σ)) (s : σ) :
    applyAll (fs ++ gs) s = applyAll gs (applyAll fs s) := foldl_append

theorem applyAll_keeps {fs : List (σ → σ)} {view : σ → β}
    (h : ∀ f ∈ fs, ∀ s, view (f s) = view s) (s : σ) : view (applyAll fs s) = view s := by
  induction fs generalizing s with
  | nil => rfl
  | cons f fs ih =>
    rw [applyAll_cons, ih fun g hg => h g (mem_cons_of_mem f hg)]
    exact h f mem_cons_self s

variable {P : σ → Prop} {r : Except σ α}

theorem applyAll_preserves {fs : List (σ → σ)} (h : ∀ f ∈ fs, ∀ s, P s → P (f s)) {s : σ}
    (hs : P s) : P (applyAll fs s) := by
  induction fs generalizing s with
  | nil => exact hs
  | cons f fs ih =>
    exact ih (fun g hg => h g (mem_cons_of_mem f hg)) (h f mem_cons_self s hs)

structure Performs (x : Fallible (Faulty σ) ε α) (fs : List (σ → σ)) (a : α) : Prop where
  covered : ∀ s : Faulty σ, s.budget.Covers fs.length →
    exec x s = (.ok a, ⟨applyAll fs s.state, s.budget.after fs.length⟩)
  short : ∀ (s : σ) (k : Nat), k < fs.length →
    ∃ e, exec x ⟨s, some k⟩ = (.error e, ⟨applyAll (fs.take k) s, some 0⟩)

namespace Performs

variable {x : Fallible (Faulty σ) ε α} {fs gs : List (σ → σ)} {a : α}

protected theorem pure (a : α) : Performs (pure a : Fallible (Faulty σ) ε α) [] a where
  covered s _ := by simp
  short _ _ h := absurd h (not_lt_zero _)

protected theorem ofExcept {r : Except ε α} (h : r = .ok a) :
    Performs (ofExcept r : Fallible (Faulty σ) ε α) [] a where
  covered s _ := by simp [h]
  short _ _ h := absurd h (not_lt_zero _)

theorem call (e : ε) (f : σ → σ) : Performs (Faults.call e f) [f] () where
  covered s h := exec_call_covered h
  short s k h := by
    obtain rfl : k = 0 := by simpa using h
    exact ⟨e, exec_call_spent e f s⟩

protected theorem bind {y : α → Fallible (Faulty σ) ε β} {b : β} (hx : Performs x fs a)
    (hy : Performs (y a) gs b) : Performs (x >>= y) (fs ++ gs) b where
  covered s h := by
    rw [length_append, Budget.covers_add] at h
    rw [exec_bind, hx.covered s h.1, applyAll_append, length_append, ← Budget.after_after]
    exact hy.covered _ h.2
  short s k h := by
    rw [length_append] at h
    by_cases hk : k < fs.length
    · obtain ⟨e, he⟩ := hx.short s k hk
      refine ⟨e, ?_⟩
      rw [exec_bind, he, take_append_of_le_length (Nat.le_of_lt hk)]
    have hcov : Budget.Covers (some k) fs.length := by simpa using hk
    obtain ⟨e, he⟩ := hy.short (applyAll fs s) (k - fs.length) (by omega)
    refine ⟨e, ?_⟩
    rw [exec_bind, hx.covered ⟨s, some k⟩ hcov, take_append, applyAll_append,
      take_of_length_le (Nat.le_of_not_lt hk)]
    exact he

theorem forM (e : ε) (f : β → σ → σ) (bs : List β) :
    Performs (bs.forM fun b => Faults.call e (f b)) (bs.map f) () := by
  induction bs with
  | nil => exact Performs.pure ()
  | cons b bs ih => exact (Performs.call e (f b)).bind ih

theorem eq_of_ok (hx : Performs x fs a) {s s' : Faulty σ} {b : α} (h : exec x s = (.ok b, s')) :
    b = a ∧ s' = ⟨applyAll fs s.state, s.budget.after fs.length⟩ := by
  have hok : ∀ t, exec x s = (.ok a, t) → b = a ∧ s' = t := fun t ht => by
    rw [ht] at h
    exact ⟨(Except.ok.inj (Prod.mk.inj h).1).symm, (Prod.mk.inj h).2.symm⟩
  obtain ⟨state, _ | k⟩ := s
  · exact hok _ (hx.covered _ (Budget.covers_none _))
  by_cases hk : k < fs.length
  · obtain ⟨e, he⟩ := hx.short state k hk
    rw [he] at h
    exact absurd (Prod.mk.inj h).1 nofun
  · exact hok _ (hx.covered _ (by simpa using hk))

theorem adapt (g : ε → ε') (hx : Performs x fs a) : Performs (ExceptT.adapt g x) fs a where
  covered s h := by rw [exec_adapt, hx.covered s h]; rfl
  short s k h := by
    obtain ⟨e, he⟩ := hx.short s k h
    exact ⟨g e, by rw [exec_adapt, he]; rfl⟩

theorem state_eq (hx : Performs x fs a) (s : Faulty σ) :
    (exec x s).2.state = applyAll (fs.take (s.budget.getD fs.length)) s.state := by
  obtain ⟨s, _ | k⟩ := s
  · rw [hx.covered _ (Budget.covers_none _)]
    simp
  by_cases hk : k < fs.length
  · obtain ⟨e, he⟩ := hx.short s k hk
    rw [he]
    rfl
  rw [hx.covered _ (by simpa using hk)]
  simp [take_of_length_le (Nat.le_of_not_lt hk)]

variable {view : σ → β}

theorem keeps (hx : Performs x fs a) (h : ∀ f ∈ fs, ∀ s, view (f s) = view s) (s : Faulty σ) :
    view (exec x s).2.state = view s.state := by
  rw [hx.state_eq]
  exact applyAll_keeps (fun f hf => h f (mem_of_mem_take hf)) _

theorem preserves (hx : Performs x fs a) {P : σ → Prop} (h : ∀ f ∈ fs, ∀ s, P s → P (f s))
    {s : Faulty σ} (hs : P s.state) : P (exec x s).2.state := by
  rw [hx.state_eq]
  exact applyAll_preserves (fun f hf => h f (mem_of_mem_take hf)) hs

theorem commits_within {f : σ → σ} (hx : Performs x (fs ++ f :: gs) a)
    (hfs : ∀ g ∈ fs, ∀ s, view (g s) = view s) (hgs : ∀ g ∈ gs, ∀ s, view (g s) = view s)
    (s : Faulty σ) :
    view (exec x s).2.state =
      if s.budget.Covers (fs.length + 1) then view (f (applyAll fs s.state)) else view s.state := by
  split
  case isTrue hcov =>
    have hreach : ∃ n, s.budget.getD (fs ++ f :: gs).length = (fs ++ [f]).length + n := by
      refine ⟨_, (add_sub_of_le ?_).symm⟩
      rw [length_append, length_singleton]
      cases hb : s.budget with
      | none => simp
      | some k => exact hcov k hb
    obtain ⟨n, hn⟩ := hreach
    have hsplit : fs ++ f :: gs = (fs ++ [f]) ++ gs := append_cons ..
    rw [hx.state_eq, hn, hsplit, take_length_add_append, applyAll_append, applyAll_append]
    exact applyAll_keeps (fun g hg => hgs g (mem_of_mem_take hg)) _
  case isFalse hcov =>
    obtain ⟨s, _ | k⟩ := s
    · exact absurd (Budget.covers_none _) hcov
    have hk : k ≤ fs.length := le_of_lt_succ (by simpa using hcov)
    rw [hx.state_eq, Option.getD_some, take_append_of_le_length hk]
    exact applyAll_keeps (fun g hg => hfs g (mem_of_mem_take hg)) _

theorem commits {f : σ → σ} (hx : Performs x (fs ++ [f]) a) (h : ∀ g ∈ fs, ∀ s, view (g s) = view s)
    (s : Faulty σ) :
    view (exec x s).2.state =
      if s.budget.Covers (fs.length + 1) then view (f (applyAll fs s.state)) else view s.state :=
  hx.commits_within h (forall_mem_nil _) s

end Performs

/-! ## Pre- and postconditions -/

def Meets (x : Fallible σ ε α) (s : σ) (Q : α → σ → Prop) (E : ε → σ → Prop) : Prop :=
  match exec x s with
  | (.ok a, s') => Q a s'
  | (.error e, s') => E e s'

namespace Meets

variable {x : Fallible σ ε α} {s : σ} {Q Q' : α → σ → Prop} {E E' : ε → σ → Prop}

protected theorem pure {a : α} (h : Q a s) : Meets (pure a : Fallible σ ε α) s Q E := h

protected theorem throw {e : ε} (h : E e s) : Meets (throw e : Fallible σ ε α) s Q E := h

protected theorem get {Q : σ → σ → Prop} (h : Q s s) : Meets (get : Fallible σ ε σ) s Q E := h

protected theorem modify {f : σ → σ} {Q : Unit → σ → Prop} (h : Q () (f s)) :
    Meets (modify f : Fallible σ ε Unit) s Q E := h

protected theorem bind {f : α → Fallible σ ε β} {R : β → σ → Prop}
    (h : Meets x s (fun a s' => Meets (f a) s' R E) E) : Meets (x >>= f) s R E := by
  unfold Meets at h ⊢
  rw [exec_bind]
  revert h
  obtain ⟨_ | a, s'⟩ := exec x s <;> exact fun h => h

theorem imp (h : Meets x s Q E) (hQ : ∀ a s', Q a s' → Q' a s') (hE : ∀ e s', E e s' → E' e s') :
    Meets x s Q' E' := by
  unfold Meets at h ⊢
  revert h
  obtain ⟨e | a, s'⟩ := exec x s
  · exact hE e s'
  · exact hQ a s'

theorem returns (h : Meets x s Q fun _ _ => False) : ∃ a s', exec x s = (.ok a, s') ∧ Q a s' := by
  unfold Meets at h
  rcases hx : exec x s with ⟨e | a, s'⟩
  · rw [hx] at h
    exact h.elim
  rw [hx] at h
  exact ⟨a, s', rfl, h⟩

end Meets

/-! ## Results that carry the state -/

def Upholds (P : σ → Prop) (Q : α → Prop) : Except σ α → Prop
  | .ok a => Q a
  | .error s => P s

theorem Upholds.imp {P' : σ → Prop} {Q Q' : α → Prop} (h : Upholds P Q r) (hP : ∀ s, P s → P' s)
    (hQ : ∀ a, Q a → Q' a) : Upholds P' Q' r := by
  cases r with
  | error s => exact hP s h
  | ok a => exact hQ a h

theorem Upholds.mono {P' : σ → Prop} {r : Except σ σ} (h : Upholds P P r)
    (hP : ∀ s, P s → P' s) : Upholds P' P' r :=
  h.imp hP hP

theorem Upholds.and {P' : σ → Prop} {Q Q' : α → Prop} (h : Upholds P Q r) (h' : Upholds P' Q' r) :
    Upholds (fun s => P s ∧ P' s) (fun a => Q a ∧ Q' a) r := by
  cases r with
  | error | ok => exact ⟨h, h'⟩

theorem Upholds.bind {Q : α → Prop} {R : β → Prop} {k : α → Except σ β} (hr : Upholds P Q r)
    (hk : ∀ a, Q a → Upholds P R (k a)) : Upholds P R (r.bind k) := by
  cases r with
  | error s => exact hr
  | ok a => exact hk a hr

end Faults
