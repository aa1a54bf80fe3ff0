import Sentinel.Workers.Models

/-!
# Cost controls

What a tenant's budget allows for a call, and what a call to a model costs (`cost.py`). Money is a
whole number of paise.
-/

namespace Sentinel.Workers

inductive BudgetState where
  | ok
  | warn70
  | warn90
  | exhausted
  deriving DecidableEq, Repr

structure ModelPricing where
  model : String
  inputPaisePerMtok : Int
  outputPaisePerMtok : Int
  deriving DecidableEq, Repr

def ModelPricing.costPaise (p : ModelPricing) (inputTokens outputTokens : Int) : Int :=
  -(-(inputTokens * p.inputPaisePerMtok + outputTokens * p.outputPaisePerMtok) / 1000000)

structure TenantBudget where
  tenantId : String
  monthlyBudgetPaise : Option Int
  spentPaise : Int := 0
  killSwitch : Bool := false
  deriving DecidableEq, Repr

namespace TenantBudget

def state (b : TenantBudget) : BudgetState :=
  match b.monthlyBudgetPaise with
  | none => .ok
  | some monthly =>
    if monthly ≤ 0 then .ok
    else if monthly ≤ b.spentPaise then .exhausted
    else if 9 * monthly ≤ 10 * b.spentPaise then .warn90
    else if 7 * monthly ≤ 10 * b.spentPaise then .warn70
    else .ok

def record (b : TenantBudget) (paise : Int) : TenantBudget :=
  { b with spentPaise := b.spentPaise + paise }

end TenantBudget

structure Decision where
  analyse : Bool
  judge : Bool
  reason : String
  maxInputTokens : Int := 0
  deriving DecidableEq, Repr

inductive CostError where
  | keyError
  | typeError
  deriving DecidableEq, Repr

structure CostPolicy where
  perCallTokenCeiling : Int := 24000
  minCallMs : Int := 15000
  pricing : List (String × ModelPricing) := []

namespace CostPolicy

def decide (p : CostPolicy) (b : TenantBudget) (durationMs : Int) (tier1Hit : Bool) : Decision :=
  if durationMs < p.minCallMs then ⟨false, false, "call shorter than the analysis floor", 0⟩
  else if b.killSwitch then ⟨false, false, "kill switch engaged: tier-1 rules only", 0⟩
  else if b.state = .exhausted then
    ⟨false, false, "monthly budget exhausted: tier-1 rules only", 0⟩
  else if b.state = .warn90 ∧ tier1Hit = false then
    ⟨true, false, "budget above 90%: judging flagged calls only", p.perCallTokenCeiling⟩
  else ⟨true, true, "within budget", p.perCallTokenCeiling⟩

def costPaise (p : CostPolicy) (model : String) (inputTokens outputTokens : Option Int) :
    Except CostError Int :=
  match p.pricing.lookup model with
  | none => .error .keyError
  | some price =>
    match inputTokens, outputTokens with
    | some i, some o => .ok (price.costPaise i o)
    | _, _ => .error .typeError

theorem costPaise_ne_typeError (p : CostPolicy) (model : String) (i o : Int) :
    p.costPaise model (some i) (some o) ≠ .error .typeError := by
  unfold costPaise
  split <;> simp

end CostPolicy

end Sentinel.Workers
