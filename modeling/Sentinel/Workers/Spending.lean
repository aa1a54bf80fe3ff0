import Sentinel.Workers.Compliance

/-!
# What a run spends, and whether it asks the judge

* `spend_recorded_iff`: the budget grows by what the provider calls of a run cost, unless a reply
was thrown away with its token counts.
-/

open List

namespace Sentinel.Workers

open Faults

variable {D : Type}

namespace Finalizer

variable (f : Finalizer D) (ctx : CallContext) (db : D) (budget : TenantBudget)

def ran : Except Trouble Outcome × World D := exec (f.finalize ctx) (.start db budget)

theorem audited_ran : f.Audited ctx budget (f.ran ctx db budget).2 := by
  have h := Finalizer.meets_finalize ctx (f.early_start db budget)
  unfold Meets at h
  unfold ran
  revert h
  obtain ⟨_ | _, w'⟩ := exec (f.finalize ctx) (.start db budget)
  · exact fun h => h.2
  · exact fun h => h.1.2

theorem spent_ran : (f.ran ctx db budget).2.budget.spentPaise =
    budget.spentPaise + f.billed (f.ran ctx db budget).2.deeds := by
  have hbalanced : f.Balanced budget (f.ran ctx db budget).2 := by
    rcases f.audited_ran ctx db budget with h | ⟨t, w₀, h₀, new, -, -, -, -, hbalanced⟩
    · exact h.1
    · exact hbalanced budget h₀.1
  rw [hbalanced]
  rfl

end Finalizer

/-- **Spend accounting.** -/
theorem spend_recorded_iff (f : Finalizer D) (ctx : CallContext) (db : D) (budget : TenantBudget) :
    ((f.ran ctx db budget).2.budget.spentPaise - budget.spentPaise =
        ((f.ran ctx db budget).2.deeds.map f.charge).sum ↔
      f.lost (f.ran ctx db budget).2.deeds = 0) ∧
    ∀ outcome, (f.ran ctx db budget).1 = .ok outcome →
      ((f.ran ctx db budget).2.budget.spentPaise - budget.spentPaise = outcome.costPaise ↔
        (outcome.status = "complete" → budget.spentPaise = 0)) := by
  constructor
  · rw [f.spent_ran, ← f.billed_add_lost]
    omega
  · intro outcome hok
    have h := Finalizer.meets_finalize ctx (f.early_start db budget)
    rw [Meets, show exec (f.finalize ctx) (.start db budget) = (.ok outcome, _) from
      Prod.ext hok rfl] at h
    change _ ∧ (outcome.costPaise = (f.ran ctx db budget).2.budget.spentPaise ∧ _ ∨
      _ ∧ _ ∧ (f.ran ctx db budget).2.budget = budget) at h
    rcases h.2 with ⟨hcost, hstatus⟩ | ⟨hcost, hstatus, hbudget⟩
    · rw [hcost, hstatus]
      exact ⟨fun h _ => by omega, fun h => by rw [h rfl]; omega⟩
    · rw [hcost, hstatus, hbudget]
      exact ⟨fun _ h => absurd h (by decide), fun _ => Int.sub_self _⟩

def floorRun (f : Finalizer Records) (spent : Int) : Except Trouble Outcome × World Records :=
  f.ran oneMinute {} { noCap with spentPaise := spent }

theorem spend_recorded_promise :
    (floorRun (floor (promise 4000 9000) none) 0).2.budget.spentPaise - 0 =
      ((floorRun (floor (promise 4000 9000) none) 0).2.deeds.map
        (floor (promise 4000 9000) none).charge).sum :=
  (spend_recorded_iff (floor (promise 4000 9000) none) oneMinute {} noCap).1.mpr
    (by decide +kernel)

def secondTry : Finalizer Records :=
  { floor (promise 4000 9000) none with
    analyzer := some ⟨"m", fun i => some (if i = 1 then { promise 4000 9000 with raw := .null }
      else promise 4000 9000), fun _ => false, fun _ => none⟩ }

/-- **A rejected attempt that is not recorded** -/
theorem rejected_attempt_unrecorded :
    (floorRun secondTry 500).2.budget.spentPaise = 501 ∧
      ((floorRun secondTry 500).2.deeds.map secondTry.charge).sum = 2 ∧
      (floorRun secondTry 500).1.toOption.map (·.costPaise) = some 501 := by
  decide +kernel

/-- **Sampling reaches the judge** -/
theorem sampled_call_judged_iff (f : Finalizer D) (ctx : CallContext) (db : D)
    (budget : TenantBudget) {t : Transcript} {findings : List Finding}
    (heval : .evaluated t findings ∈ (f.ran ctx db budget).2.deeds)
    (hsampled : f.Sampled ctx (budget.record (f.billed
      ((f.ran ctx db budget).2.deeds.takeWhile fun x => !x.isEvaluated))) findings) :
    (∃ x ∈ (f.ran ctx db budget).2.deeds, x.isJudged = true) ↔
      ∃ x ∈ findings, x.ruleId ∈ f.rules.judgeRules := by
  have haudited := f.audited_ran ctx db budget
  revert heval hsampled
  generalize (f.ran ctx db budget).2 = w at haudited
  intro heval hsampled
  rcases haudited with h | ⟨t', w₀, h₀, new, hnew, hnot, -, hasked, -⟩
  · exact absurd (h.2 _ heval).1 (by simp [Deed.isEvaluated])
  · have hpre : ∀ x ∈ w₀.deeds, (!x.isEvaluated) = true := fun x hx => by simp [(h₀.2 x hx).1]
    have htake : w.deeds.takeWhile (fun x => !x.isEvaluated) = w₀.deeds := by
      rw [hnew, takeWhile_append_of_pos hpre]
      simp [Deed.isEvaluated]
    have hfindings : findings = f.rules.evaluate t' := by
      rw [hnew] at heval
      rcases mem_append.mp heval with hmem | hmem
      · exact absurd (h₀.2 _ hmem).1 (by simp [Deed.isEvaluated])
      · rcases mem_cons.mp hmem with heq | hmem
        · exact (Deed.evaluated.inj heq).2
        · exact absurd (hnot _ hmem) (by simp [Deed.isEvaluated])
    have hescalate : escalate (f.rules.evaluate t') f.rules.judgeRules ≠ [] ↔
        ∃ x ∈ findings, x.ruleId ∈ f.rules.judgeRules := by
      simp [escalate, filter_eq_nil_iff, hfindings]
    rw [htake, ← h₀.1, hfindings] at hsampled
    rw [← hescalate, ← hasked hsampled, hnew]
    constructor
    · rintro ⟨x, hx, hjudged⟩
      rcases mem_append.mp hx with hx | hx
      · exact absurd hjudged (by simp [(h₀.2 x hx).2.1])
      · rcases mem_cons.mp hx with rfl | hx
        · cases hjudged
        · exact ⟨x, hx, hjudged⟩
    · rintro ⟨x, hx, hjudged⟩
      exact ⟨x, mem_append_right _ (mem_cons_of_mem _ hx), hjudged⟩

theorem sampled_call_judged :
    ∃ t findings, Deed.evaluated t findings ∈
        (floorRun (floor (promise 4000 9000) (some acquits)) 0).2.deeds ∧
      ∃ x ∈ findings, x.ruleId ∈ ["abusive_language"] := by
  have hrun : (floorRun (floor (promise 4000 9000) (some acquits)) 0).2.deeds.any
        Deed.isEvaluated = true ∧
      (floorRun (floor (promise 4000 9000) (some acquits)) 0).2.deeds.any Deed.isJudged = true ∧
      ∀ hit, ((floor (promise 4000 9000) none).costPolicy.decide (noCap.record
        ((floor (promise 4000 9000) (some acquits)).billed ((floorRun (floor (promise 4000 9000)
          (some acquits)) 0).2.deeds.takeWhile fun x => !x.isEvaluated))) 60000 hit).judge =
        true := by
    decide +kernel
  obtain ⟨x, hmem, hx⟩ := any_eq_true.mp hrun.1
  cases x with
  | evaluated t findings =>
    refine ⟨t, findings, hmem, (sampled_call_judged_iff (floor (promise 4000 9000) (some acquits))
      oneMinute {} noCap hmem ⟨rfl, by decide, by decide +kernel, hrun.2.2 _⟩).mp ?_⟩
    exact any_eq_true.mp hrun.2.1
  | _ => cases hx

def quietFloor : Finalizer Records :=
  { floor (promise 4000 9000) (some acquits) with
    rules := ⟨fun _ => [], 1, ["abusive_language"], 5⟩ }

/-- **A call in the sample that the judge never sees** -/
theorem sampled_call_not_judged :
    quietFloor.Sampled oneMinute (noCap.record (quietFloor.billed
        ((floorRun quietFloor 0).2.deeds.takeWhile fun x => !x.isEvaluated))) [] ∧
      (floorRun quietFloor 0).2.deeds.any Deed.isEvaluated = true ∧
      (floorRun quietFloor 0).2.deeds.any Deed.isJudged = false :=
  ⟨⟨rfl, by decide, by decide +kernel, by decide +kernel⟩, by decide +kernel⟩

end Sentinel.Workers
