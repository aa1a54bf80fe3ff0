import Sentinel.Workers.Finalizer

/-!
# What the budget is told

The budget is told the cost of a provider call after its reply was read.
-/

namespace Sentinel.Workers

open Faults

def CostPolicy.price (p : CostPolicy) (model : String) (r : Reply) : Int :=
  (p.costPaise model r.inputTokens r.outputTokens).toOption.getD 0

def CallAnalyzer.accepts (a : CallAnalyzer) (r : Reply) : Bool :=
  analysisSchema.valid r.raw && (toAnalysis a.fromIsoFormat a.name r false).isSome

def Deed.isJudged : Deed → Bool
  | .judged _ _ => true
  | _ => false

theorem TenantBudget.record_zero (b : TenantBudget) : b.record 0 = b := by
  simp [TenantBudget.record]

theorem TenantBudget.record_record (b : TenantBudget) (m n : Int) :
    (b.record m).record n = b.record (m + n) := by
  simp [TenantBudget.record, Int.add_assoc]

variable {D : Type}

namespace Finalizer

section Charges

variable (f : Finalizer D)

def charge : Deed → Int
  | .asked (some r) => f.analyzer.elim 0 fun a => f.costPolicy.price a.name r
  | .judged _ (some r) => f.judge.elim 0 fun j => f.costPolicy.price j.name r
  | _ => 0

def discards : Deed → Bool
  | .asked (some r) => !f.analyzer.any (·.accepts r)
  | .judged x (some r) => (reviewReply x (some r)).isNone
  | _ => false

def billed (deeds : List Deed) : Int :=
  ((deeds.filter fun d => !f.discards d).map f.charge).sum

def lost (deeds : List Deed) : Int := ((deeds.filter f.discards).map f.charge).sum

theorem billed_append (ds ds' : List Deed) : f.billed (ds ++ ds') = f.billed ds + f.billed ds' := by
  simp [billed]

theorem billed_add_lost (ds : List Deed) : f.billed ds + f.lost ds = (ds.map f.charge).sum := by
  induction ds with
  | nil => rfl
  | cons d ds ih =>
    rw [List.map_cons, List.sum_cons, ← ih]
    unfold billed lost
    cases h : f.discards d <;> simp [h] <;> omega

def Balanced (budget : TenantBudget) (w : World D) : Prop :=
  w.budget = budget.record (f.billed w.deeds)

end Charges

variable {f : Finalizer D} {budget : TenantBudget} {w w' : World D}

theorem Balanced.adds (h : f.Balanced budget w) {new : List Deed}
    (hdeeds : w'.deeds = w.deeds ++ new) (hbudget : w'.budget = w.budget.record (f.billed new)) :
    f.Balanced budget w' := by
  rw [Balanced, hbudget, h, TenantBudget.record_record, hdeeds, billed_append]

theorem Balanced.free (h : f.Balanced budget w) {d : Deed}
    (hdeeds : w'.deeds = w.deeds ++ [d]) (hbudget : w'.budget = w.budget) (hd : f.charge d = 0) :
    f.Balanced budget w' := by
  refine h.adds hdeeds ?_
  have hzero : f.billed [d] = 0 := by cases hf : f.discards d <;> simp [billed, hf, hd]
  rw [hbudget, hzero, TenantBudget.record_zero]

/-! ## The analysis -/

def Agree {β : Type} (P : β → Prop) (x y : Option β) : Prop := x.isSome = y.isSome ∧ ∀ b ∈ x, P b

theorem Agree.bind {α β : Type} {P : β → Prop} {x : Option α} {g h : α → Option β}
    (hgh : ∀ a, Agree P (g a) (h a)) : Agree P (x >>= g) (x >>= h) := by
  cases x with
  | none => exact ⟨rfl, fun _ hb => nomatch hb⟩
  | some a => exact hgh a

theorem toAnalysis_agree (iso : String → Option Int) (model : String) (r : Reply) (b b' : Bool) :
    Agree (fun x => x.model = model ∧ x.inputTokens = r.inputTokens ∧
        x.outputTokens = r.outputTokens)
      (toAnalysis iso model r b) (toAnalysis iso model r b') := by
  iterate 5 refine .bind fun _ => ?_
  -- The three members with a default are join points, each entered from several branches.
  extract_lets amounts amounts'
  suffices h : ∀ a, Agree _ (amounts a) (amounts' a) by split <;> exact .bind h
  intro _
  dsimp -zeta only [amounts, amounts']
  extract_lets dues dues'
  suffices h : ∀ a, Agree _ (dues a) (dues' a) by split <;> exact .bind h
  intro _
  dsimp -zeta only [dues, dues']
  extract_lets rest rest'
  suffices h : ∀ a, Agree _ (rest a) (rest' a) by split <;> exact .bind h
  intro _
  repeat refine .bind fun _ => ?_
  exact ⟨rfl, fun _ hx => Option.some.inj hx ▸ ⟨rfl, rfl, rfl⟩⟩

def paid (f : Finalizer D) : Except AnalyseError Analysis → Int
  | .ok x => (f.costPolicy.costPaise x.model x.inputTokens x.outputTokens).toOption.getD 0
  | .error _ => 0

variable {a : CallAnalyzer} {t : Transcript}

theorem billed_asked (ha : f.analyzer = some a) (r : Option Reply) :
    f.billed [.asked r] = f.paid ((a.read t r).getD (.error .schemaViolation)) := by
  cases r with
  | none => rfl
  | some r =>
    obtain ⟨hsome, htokens⟩ := toAnalysis_agree a.fromIsoFormat a.name r (a.truncates t) false
    have hbilled : f.billed [.asked (some r)] = if a.accepts r then f.costPolicy.price a.name r
        else 0 := by
      cases h : a.accepts r <;> simp [billed, discards, charge, ha, h]
    rw [hbilled, CallAnalyzer.accepts, ← hsome, CallAnalyzer.read]
    cases analysisSchema.valid r.raw with
    | false => rfl
    | true =>
      cases hx : toAnalysis a.fromIsoFormat a.name r (a.truncates t) with
      | none => rfl
      | some x =>
        obtain ⟨hmodel, hin, hout⟩ := htokens x hx
        change f.costPolicy.price a.name r = f.paid (.ok x)
        rw [paid, hmodel, hin, hout]
        rfl

theorem billed_analyse (ha : f.analyzer = some a) :
    f.billed ((a.analyse t).1.map .asked) = f.paid (a.analyse t).2 := by
  unfold CallAnalyzer.analyse
  split
  next result hread => exact (billed_asked ha _).trans (by rw [hread]; rfl)
  next hread =>
    have hfirst : f.billed [.asked (a.complete 1)] = 0 :=
      (billed_asked (t := t) ha _).trans (by rw [hread]; rfl)
    exact (f.billed_append [_] [_]).trans (by rw [hfirst, billed_asked (t := t) ha, Int.zero_add])

end Finalizer

end Sentinel.Workers
