import Sentinel.Service.Enroll

/-!
# Complete, or mended by the next run

Of the four files an enrollment writes the identity record decides whether a later run does
anything.
-/

open Option

namespace Sentinel.Service

open Faults Runs

/-! ## The files -/

def Dir.Complete (w : KeyWrapper) (d : Dir) : Prop :=
  d.deviceCrt.isSome = true ∧ d.caChainCrt.isSome = true ∧ (keyIn w d).isSome = true

instance (w : KeyWrapper) (d : Dir) : Decidable (d.Complete w) :=
  inferInstanceAs (Decidable (_ ∧ _))

def Dir.files (d : Dir) : Option String × Option String × Option DeviceIdentity :=
  (d.deviceCrt, d.caChainCrt, d.identityJson)

theorem files_generateAndStore (w : KeyWrapper) (env : KeyEnv) (s : Faulty Dir) :
    (exec (generateAndStore w env) s).2.state.files = s.state.files := by
  cases hblob : env.blob w with
  | error e => rw [generateAndStore_refused hblob]
  | ok blob =>
    have hkeeps : ∀ f ∈ [id, id, storeKey blob], ∀ d, Dir.files (f d) = Dir.files d := by
      simp [storeKey, Dir.files]
    exact (generateAndStore_performs hblob).keeps hkeeps s

namespace Attempt

variable {a : Attempt} {pf : Platform} {d : Dir} {response : EnrollResponse}

theorem files_store (a : Attempt) (pf : Platform) (response : EnrollResponse) (s : Faulty Dir) :
    (exec (a.store pf response) s).2.state.files =
      (exec (a.persist response) s).2.state.files := by
  rw [store, exec_bind]
  rcases exec (a.persist response) s with ⟨e | i, s'⟩
  · rfl
  have hkey := files_generateAndStore pf.wrapper a.spoolKey s'
  dsimp only
  rw [exec_bind, exec_adapt, ← hkey]
  rcases exec (generateAndStore pf.wrapper a.spoolKey) s' with ⟨e | k, s''⟩ <;> rfl

theorem persist_outcome (hpem : looksLikeCertificatePem response.certificatePem = true)
    (s : Faulty Dir) :
    (s.budget.Covers 8 ∧ (exec (a.persist response) s).2.state.files =
      (some response.certificatePem, some response.caChainPem, some (a.identity response))) ∨
    (¬ s.budget.Covers 8 ∧
      (exec (a.persist response) s).2.state.identityJson = s.state.identityJson ∧
      (s.state.deviceCrt.isSome = true →
        (exec (a.persist response) s).2.state.deviceCrt.isSome = true) ∧
      (s.state.caChainCrt.isSome = true →
        (exec (a.persist response) s).2.state.caChainCrt.isSome = true)) := by
  have hperforms := persist_performs (a := a) hpem
  by_cases hcov : s.budget.Covers 8
  · rw [hperforms.covered s hcov]
    exact .inl ⟨hcov, rfl⟩
  refine .inr ⟨hcov, ?_, hperforms.preserves (P := fun d => d.deviceCrt.isSome = true) ?_,
    hperforms.preserves (P := fun d => d.caChainCrt.isSome = true) ?_⟩
  · have hbefore : ∀ f ∈ [id, id, putCertificate response.certificatePem, id,
        putChain response.caChainPem, id, id],
        ∀ d, Dir.identityJson (f d) = Dir.identityJson d := by
      simp [putCertificate, putChain]
    exact (hperforms.commits hbefore s).trans (if_neg hcov)
  · simp [persistEffects, putCertificate, putChain, putIdentity]
  · simp [persistEffects, putCertificate, putChain, putIdentity]

end Attempt

/-! ## Runs that mend -/

namespace Attempt

def Mends (a : Attempt) (pf : Platform) : Prop := ∃ token ∈ a.usableToken, a.Completes pf token

instance (a : Attempt) (pf : Platform) : Decidable (a.Mends pf) :=
  inferInstanceAs (Decidable (∃ _ ∈ _, _))

end Attempt

def Dir.Repairable (pf : Platform) (d : Dir) : Prop :=
  d.identityJson.isSome = true → d.Complete pf.wrapper ∨
    ∀ a : Attempt, a.Mends pf → (a.ensureEnrolled pf d).2.Complete pf.wrapper

/-! ## What a run leaves -/

namespace Attempt

variable {a : Attempt} {pf : Platform} {d : Dir}

theorem ensureEnrolled_cases (a : Attempt) (pf : Platform) (d : Dir) :
    (a.ensureEnrolled pf d).2 = d ∨ ∃ token response, token ∈ a.usableToken ∧ ¬ a.Current pf d ∧
        a.answer token = some response ∧
        looksLikeCertificatePem response.certificatePem = true ∧
        (a.ensureEnrolled pf d).2 = (exec (a.store pf response) ⟨d, a.budget⟩).2.state := by
  rw [ensureEnrolled_dir]
  by_cases hcurrent : a.Current pf d
  · exact .inl (if_pos hcurrent)
  rw [if_neg hcurrent]
  cases htoken : a.usableToken with
  | none => exact .inl rfl
  | some token =>
    dsimp only
    cases hanswer : a.answer token with
    | none => exact .inl (by rw [exec_enroll_of_no_answer hanswer])
    | some response =>
      rw [exec_enroll_of_answer hanswer]
      cases hpem : looksLikeCertificatePem response.certificatePem with
      | false =>
        refine .inl ?_
        rw [store, exec_bind, persist_refused hpem]
      | true => exact .inr ⟨token, response, rfl, hcurrent, hanswer, hpem, rfl⟩

theorem complete_of_mends (hmends : a.Mends pf) (hcurrent : ¬ a.Current pf d) :
    (a.ensureEnrolled pf d).2.Complete pf.wrapper := by
  obtain ⟨token, htoken, hcompletes⟩ := hmends
  have hkey := a.spoolKey_ensureEnrolled pf d
  rw [if_pos ⟨hcurrent, token, htoken, hcompletes⟩] at hkey
  obtain ⟨blob, hblob⟩ : ∃ blob, a.spoolKey.blob pf.wrapper = .ok blob := by
    have hwrapped := hcompletes.wrapped
    cases hblob : a.spoolKey.blob pf.wrapper with
    | error e => simp [hblob, Except.toOption] at hwrapped
    | ok blob => exact ⟨blob, rfl⟩
  rw [hblob] at hkey
  have hkeyIn : keyIn pf.wrapper (a.ensureEnrolled pf d).2 =
      some (toHex a.spoolKey.material.toList) := by
    rw [keyIn, resolve_stored hblob hkey]
    rfl
  obtain ⟨response, hanswer, hpem⟩ := hcompletes.issued
  have hdir : (a.ensureEnrolled pf d).2 =
      (exec (a.store pf response) ⟨d, a.budget⟩).2.state := by
    rw [ensureEnrolled_dir, if_neg hcurrent, htoken]
    dsimp only
    rw [exec_enroll_of_answer hanswer]
  have hcov : a.budget.Covers 8 := fun k hk => Nat.le_trans (by decide) (hcompletes.stored k hk)
  have hfiles := a.files_store pf response ⟨d, a.budget⟩
  rcases persist_outcome (a := a) hpem ⟨d, a.budget⟩ with ⟨-, hpersist⟩ | ⟨hnot, -⟩
  · rw [hpersist, ← hdir, Dir.files] at hfiles
    obtain ⟨hcrt, hrest⟩ := Prod.mk.inj hfiles
    obtain ⟨hchain, -⟩ := Prod.mk.inj hrest
    exact ⟨by rw [hcrt]; rfl, by rw [hchain]; rfl, by rw [hkeyIn]; rfl⟩
  · exact absurd hcov hnot

end Attempt

/-! ## Whole histories -/

namespace Dir

def step (pf : Platform) (d : Dir) (a : Attempt) : Dir := (a.ensureEnrolled pf d).2

def Covered (pf : Platform) (d : Dir) (a : Attempt) : Prop :=
  ¬ a.Current pf d → ∀ token ∈ a.usableToken, ∀ response ∈ a.answer token,
    looksLikeCertificatePem response.certificatePem = true → a.budget.Covers 8 →
      (a.budget.Covers 11 ∧ (a.spoolKey.blob pf.wrapper).toOption.isSome = true) ∨
        (keyIn pf.wrapper d).isSome = true ∨ notAfterMs pf response.notAfter = none

instance (pf : Platform) (d : Dir) (a : Attempt) : Decidable (d.Covered pf a) :=
  inferInstanceAs (Decidable (¬ _ → ∀ _ ∈ _, _))

def Sound (pf : Platform) (d : Dir) : Prop :=
  ∀ id ∈ d.identityJson, d.deviceCrt.isSome = true ∧ d.caChainCrt.isSome = true ∧
    ((keyIn pf.wrapper d).isSome = true ∨ notAfterMs pf id.notAfter = none)

variable {pf : Platform} {d : Dir}

theorem Sound.repairable (h : d.Sound pf) : d.Repairable pf := by
  intro hid
  obtain ⟨id, hid⟩ := isSome_iff_exists.mp hid
  obtain ⟨hcrt, hchain, hkey | hexpiry⟩ := h id hid
  · exact .inl ⟨hcrt, hchain, hkey⟩
  refine .inr fun a hmends => Attempt.complete_of_mends hmends ?_
  rintro ⟨i, hi, hdue⟩
  have hid' : i = id := by
    unfold Attempt.loadIdentity at hi
    split at hi
    · cases hi
    · exact mem_unique hi hid
  rw [hid', hexpiry] at hdue
  cases hdue

theorem isSome_keyIn_step (pf : Platform) (d : Dir) (a : Attempt)
    (h : (keyIn pf.wrapper d).isSome = true) : (keyIn pf.wrapper (d.step pf a)).isSome = true := by
  have hkey := a.spoolKey_ensureEnrolled pf d
  by_cases hreplaces : a.ReplacesKey pf d
  · obtain ⟨hcurrent, hmends⟩ := hreplaces
    exact (Attempt.complete_of_mends hmends hcurrent).2.2
  rw [if_neg hreplaces] at hkey
  rwa [step, keyIn_congr hkey]

theorem Sound.step (h : d.Sound pf) {a : Attempt} (ha : d.Covered pf a) :
    (d.step pf a).Sound pf := by
  have hkeyKept := isSome_keyIn_step pf d a
  rcases a.ensureEnrolled_cases pf d with hsame | ⟨token, response, htoken, hcurrent, hanswer,
    hpem, hdir⟩
  · rwa [Dir.step, hsame]
  have hfiles := a.files_store pf response ⟨d, a.budget⟩
  rw [← hdir] at hfiles
  obtain ⟨hcrt, hrest⟩ := Prod.mk.inj hfiles
  obtain ⟨hchain, hidentity⟩ := Prod.mk.inj hrest
  intro id hid
  have hid : (a.ensureEnrolled pf d).2.identityJson = some id := hid
  rcases Attempt.persist_outcome (a := a) hpem ⟨d, a.budget⟩ with
    ⟨hcov, hpersist⟩ | ⟨hcov, hold, hcrt', hchain'⟩
  -- The new record is on disk: the condition says what there is of a key.
  · obtain ⟨hcrt', hrest'⟩ := Prod.mk.inj hpersist
    obtain ⟨hchain', hidentity'⟩ := Prod.mk.inj hrest'
    have hnew : id = a.identity response := by
      rw [hidentity, hidentity'] at hid
      exact (some.inj hid).symm
    refine ⟨by rw [Dir.step, hcrt, hcrt']; rfl, by rw [Dir.step, hchain, hchain']; rfl, ?_⟩
    rcases ha hcurrent token htoken response hanswer hpem hcov with
      ⟨hall, hwrapped⟩ | hkey | hexpiry
    · have hcompletes : a.Completes pf token := ⟨⟨response, hanswer, hpem⟩, hwrapped, hall⟩
      exact .inl (Attempt.complete_of_mends ⟨token, htoken, hcompletes⟩ hcurrent).2.2
    · exact .inl (hkeyKept hkey)
    rw [hnew]
    exact .inr hexpiry
  -- The old record is: what belonged to it is still there.
  · rw [hidentity, hold] at hid
    obtain ⟨hcrtOld, hchainOld, hkey⟩ := h id hid
    exact ⟨by rw [Dir.step, hcrt]; exact hcrt' hcrtOld,
      by rw [Dir.step, hchain]; exact hchain' hchainOld, hkey.imp_left hkeyKept⟩

/-- **Complete or repairable.** -/
theorem repairable_of_covered (pf : Platform) (as : List Attempt)
    (h : Along (step pf) (Covered pf) {} as) : (run (step pf) {} as).Repairable pf :=
  (h.invariant (I := Sound pf) (fun _ hid => nomatch hid) fun _ _ hd ha => hd.step ha).repairable

/-! ### Two machines -/

open Desktop (bench benchAttempt)

def mendedRun : List Attempt :=
  let first := benchAttempt 0 "token-1" "1971-01-01T00:00:00Z" 1
  [{ first with budget := some 5 },
    { first with token := some "token-2", nowMs := 86400000 },
    { benchAttempt 340 "token-3" "1972-01-01T00:00:00Z" 2 with budget := some 9 }]

theorem mendedRun_repairable : (run (step bench) {} mendedRun).Repairable bench ∧
    (run (step bench) {} mendedRun).identityJson.isSome = true :=
  ⟨repairable_of_covered bench mendedRun (by decide +kernel), by decide +kernel⟩

def halfRun : List Attempt :=
  [{ benchAttempt 0 "token-1" "1971-01-01T00:00:00Z" 1 with budget := some 8 }]

/-- The machine has no key, and the run of the next day, which is given a token and meets a working
gateway, finds its certificate current. -/
theorem halfRun_not_repairable : ¬ (run (step bench) {} halfRun).Repairable bench := by
  intro h
  rcases h (by decide +kernel) with hcomplete | hmended
  · exact absurd hcomplete (by decide +kernel)
  · exact absurd (hmended (benchAttempt 1 "token-2" "1971-01-01T00:00:00Z" 2) (by decide +kernel))
      (by decide +kernel)

end Dir

end Sentinel.Service
