import Sentinel.Workers.Models

/-!
# The analysis of a call

One request to a model for each finalized call, and a second one if the reply does not satisfy
`contracts/schemas/analysis.json` (`analysis/analyzer.py`).
-/

namespace Sentinel.Workers

structure Reply where
  raw : Json
  inputTokens : Option Int
  outputTokens : Option Int

def Reply.Counted (r : Reply) : Prop := r.inputTokens.isSome ∧ r.outputTokens.isSome

/-! ## The schema -/

def valence : Schema := .all [.types [.number], .minimum (-1), .maximum 1]

def series : Schema := .all [.types [.array], .items (.all [.types [.object],
  .closed ["t_ms", "v"], .required ["t_ms", "v"],
  .property "t_ms" (.all [.types [.integer], .minimum 0]), .property "v" valence])]

def spanSchema : Schema := .all [.types [.array, .null],
  .items (.all [.types [.integer], .minimum 0]), .minItems 2, .maxItems 2]

def ptpSchema : Schema := .all [.types [.object],
  .closed ["present", "amount_paise", "due_date", "confidence", "evidence_span_ms"],
  .required ["present"],
  .property "present" (.types [.boolean]),
  .property "amount_paise" (.all [.types [.integer, .null], .minimum 0]),
  .property "due_date" (.types [.string, .null]),
  .property "confidence" (.all [.types [.number], .minimum 0, .maximum 1]),
  .property "evidence_span_ms" spanSchema,
  .ifThen (.all [.property "present" .constTrue, .required ["present"]])
    (.required ["present", "amount_paise", "confidence", "evidence_span_ms"])]

def sentimentSchema : Schema := .all [.types [.object],
  .closed ["far", "near", "far_open", "far_close", "delta"],
  .required ["far", "near", "far_open", "far_close", "delta"],
  .property "far" series, .property "near" series,
  .property "far_open" valence, .property "far_close" valence,
  .property "delta" (.all [.types [.number], .minimum (-2), .maximum 2])]

def analysisSchema : Schema := .all [.types [.object],
  .closed ["summary", "disposition", "ptp", "sentiment", "next_action", "talk_ratio",
    "interruptions"],
  .required ["summary", "disposition", "ptp", "sentiment", "talk_ratio", "interruptions"],
  .property "summary" (.all [.types [.string], .minLength 20, .maxLength 1200]),
  .property "disposition" (.all [.types [.string], .enum (Disposition.every.map (·.text))]),
  .property "ptp" ptpSchema,
  .property "sentiment" sentimentSchema,
  .property "next_action" (.all [.types [.string, .null], .maxLength 300]),
  .property "talk_ratio" (.all [.types [.number], .minimum 0, .maximum 1]),
  .property "interruptions" (.all [.types [.integer], .minimum 0])]

/-! ## Reading a reply -/

def readSpan : Option Json → Option (Option (Int × Int))
  | none => some none
  | some .null => some none
  | some (.arr []) => some none
  | some (.arr (.num a :: .num b :: _)) => do
    let lower ← a.toInt?
    let upper ← b.toInt?
    some (some (lower, upper))
  | _ => none

def readText : Option Json → Option (Option String)
  | none => some none
  | some .null => some none
  | some (.str s) => some (some s)
  | _ => none

def toAnalysis (fromIsoFormat : String → Option Int) (model : String) (r : Reply)
    (truncated : Bool) : Option Analysis := do
  let ptpRaw ← r.raw.get? "ptp"
  let span ← readSpan (ptpRaw.get? "evidence_span_ms")
  let due ← readText (ptpRaw.get? "due_date")
  let present ← (← ptpRaw.get? "present").asBool?
  let amount ← match ptpRaw.get? "amount_paise" with
    | none => some none
    | some .null => some none
    | some (.num x) => x.toInt?.map some
    | _ => none
  let dueDate ← match due with
    | none => some none
    | some "" => some none
    | some text => (fromIsoFormat text).map some
  let confidence ← match ptpRaw.get? "confidence" with
    | none => some (.float 0)
    | some v => v.asNum?.map JsonNum.toFloat
  let sentiment ← r.raw.get? "sentiment"
  let close ← (← sentiment.get? "far_close").asNum?
  let opening ← (← sentiment.get? "far_open").asNum?
  let summary ← (← r.raw.get? "summary").asStr?
  let disposition ← Disposition.ofText? (← (← r.raw.get? "disposition").asStr?)
  let talkRatio ← (← r.raw.get? "talk_ratio").asNum?
  let interruptions ← (← (← r.raw.get? "interruptions").asNum?).toInt?
  let nextAction ← readText (r.raw.get? "next_action")
  some {
    summary, disposition, interruptions, nextAction, truncated, model
    ptp := ⟨present, amount, dueDate, confidence, span⟩
    -- The delta is computed again rather than trusted.
    sentiment := sentiment.set "delta" (.num (close.sub opening))
    talkRatio := talkRatio.toFloat
    promptVersion := "analysis-v1"
    inputTokens := r.inputTokens
    outputTokens := r.outputTokens }

/-! ## Asking -/

inductive AnalyseError where
  | schemaViolation
  | raised
  deriving DecidableEq, Repr

structure CallAnalyzer where
  name : String
  complete : Nat → Option Reply
  truncates : Transcript → Bool
  fromIsoFormat : String → Option Int

namespace CallAnalyzer

variable (a : CallAnalyzer) (t : Transcript)

def read : Option Reply → Option (Except AnalyseError Analysis)
  | none => some (.error .raised)
  | some r =>
    if analysisSchema.valid r.raw then
      some (match toAnalysis a.fromIsoFormat a.name r (a.truncates t) with
        | none => .error .raised
        | some analysis => .ok analysis)
    else none

def analyse : List (Option Reply) × Except AnalyseError Analysis :=
  match a.read t (a.complete 1) with
  | some result => ([a.complete 1], result)
  | none =>
    ([a.complete 1, a.complete 2], (a.read t (a.complete 2)).getD (.error .schemaViolation))

end CallAnalyzer

end Sentinel.Workers
