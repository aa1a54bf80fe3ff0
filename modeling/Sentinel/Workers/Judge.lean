import Sentinel.Workers.Analyzer

/-!
# The tier-2 judge

A second model reviews the tier-1 findings of the rules the tenant wants reviewed
(`compliance/judge.py`).
-/

open Option

namespace Sentinel.Workers

def judgeSchema : Schema := .all [.types [.object],
  .closed ["verdict", "rule_id", "confidence", "rationale", "evidence_span_ms", "evidence_text"],
  .required ["verdict", "rule_id", "confidence", "rationale"],
  .property "verdict" (.all [.types [.string],
    .enum ["upheld", "not_a_violation", "inconclusive"]]),
  .property "rule_id" (.all [.types [.string], .minLength 1]),
  .property "confidence" (.all [.types [.number], .minimum 0, .maximum 1]),
  .property "rationale" (.all [.types [.string], .minLength 20, .maxLength 1500]),
  .property "evidence_span_ms" spanSchema,
  .property "evidence_text" (.all [.types [.string, .null], .maxLength 2000]),
  .ifThen (.all [.property "verdict" (.enum ["upheld"]), .required ["verdict"]])
    (.required ["evidence_span_ms", "evidence_text"])]

structure JudgeVerdict where
  verdict : String
  ruleId : String
  confidence : JsonNum
  rationale : String
  evidenceSpanMs : Option (Int × Int) := none
  evidenceText : Option String := none
  deriving DecidableEq, Repr

structure ComplianceJudge where
  name : String
  judge : Nat → Option Reply

def toVerdict (raw : Json) : Option JudgeVerdict := do
  let span ← readSpan (raw.get? "evidence_span_ms")
  let verdict ← (← raw.get? "verdict").asStr?
  let ruleId ← (← raw.get? "rule_id").asStr?
  let confidence ← (← raw.get? "confidence").asNum?
  let rationale ← (← raw.get? "rationale").asStr?
  let text ← readText (raw.get? "evidence_text")
  some ⟨verdict, ruleId, confidence.toFloat, rationale, span, text⟩

def reviewReply (f : Finding) : Option Reply → Option (Option JudgeVerdict × Reply)
  | none => none
  | some r =>
    if ¬ judgeSchema.valid r.raw then some (none, r)
    -- The judge answered about a different rule.
    else if (r.raw.get? "rule_id").bind Json.asStr? ≠ some f.ruleId then some (none, r)
    else (toVerdict r.raw).map fun v => (some v, r)

def applyVerdict (f : Finding) (v : JudgeVerdict) : Option Finding :=
  if v.verdict = "not_a_violation" then none
  else if v.verdict = "inconclusive" then some f
  else some {
    ruleId := f.ruleId
    severity := f.severity
    tier := 2
    spanStartMs := (v.evidenceSpanMs.map Prod.fst).orElse fun _ => f.spanStartMs
    spanEndMs := (v.evidenceSpanMs.map Prod.snd).orElse fun _ => f.spanEndMs
    -- An empty text counts as none.
    evidenceText := (v.evidenceText.filter (· ≠ "")).orElse fun _ => f.evidenceText
    rationale := some v.rationale
    confidence := some v.confidence }

def escalate (findings : List Finding) (judgeRules : List String) : List Finding :=
  findings.filter fun f => f.ruleId ∈ judgeRules

def shouldJudge (bucket : Nat) (tier1Hit : Bool) (judgeRules ruleIds : List String)
    (samplePct : ℚ) : Bool :=
  if tier1Hit ∧ ∃ id ∈ ruleIds, id ∈ judgeRules then true
  else if samplePct ≤ 0 then false
  else (bucket : ℚ) < samplePct * 100

/-! ## What an upheld finding cites -/

def Supplies (raw : Json) (span : Int × Int) (text : String) : Prop :=
  readSpan (raw.get? "evidence_span_ms") = some (some span) ∧
    readText (raw.get? "evidence_text") = some (some text)

def Cites (raw : Json) (y : Finding) : Prop :=
  ∃ span text, Supplies raw span text ∧ y.spanStartMs = some span.1 ∧
    y.spanEndMs = some span.2 ∧ y.evidenceText = some text

theorem evidence_of_toVerdict {raw : Json} {v : JudgeVerdict} (h : toVerdict raw = some v) :
    readSpan (raw.get? "evidence_span_ms") = some v.evidenceSpanMs ∧
      readText (raw.get? "evidence_text") = some v.evidenceText := by
  unfold toVerdict at h
  simp only [bind_eq_bind, bind_eq_some_iff] at h
  obtain ⟨span, hspan, _, -, _, -, _, -, _, -, _, -, _, -, _, -, _, -, text, htext, heq⟩ := h
  rw [hspan, htext, ← some.inj heq]
  exact ⟨rfl, rfl⟩

/-- **An upheld finding cites its words** -/
theorem upheld_cites_iff {x y : Finding} {r : Reply} {v : JudgeVerdict}
    (hread : (reviewReply x (some r)).bind Prod.fst = some v) (happly : applyVerdict x v = some y)
    (hnew : y ≠ x) :
    y.tier = 2 ∧ (Cites r.raw y ↔
      ∃ span text, Supplies r.raw span text ∧ (text = "" → x.evidenceText = some "")) := by
  have hverdict : toVerdict r.raw = some v := by
    unfold reviewReply at hread
    dsimp only at hread
    split at hread
    · cases hread
    · split at hread
      · cases hread
      · simpa [Option.bind_map, Function.comp_def] using hread
  obtain ⟨hspan, htext⟩ := evidence_of_toVerdict hverdict
  unfold applyVerdict at happly
  split at happly
  · cases happly
  split at happly
  · exact absurd (Option.some.inj happly).symm hnew
  obtain rfl := Option.some.inj happly
  refine ⟨rfl, ?_⟩
  simp only [Cites, Supplies, hspan, htext, Option.some.injEq]
  refine exists_congr fun span => exists_congr fun text => and_congr_right fun h => ?_
  simp only [h.1, h.2, Option.map_some, Option.orElse_some, true_and]
  by_cases hempty : text = ""
  · simp [hempty]
  · simp [hempty]

def upholds (span text : Json) : Reply where
  raw := .obj [("verdict", .str "upheld"), ("rule_id", .str "abusive_language"),
    ("confidence", .num (.float 1)), ("rationale", .str "The agent insulted the borrower."),
    ("evidence_span_ms", span), ("evidence_text", text)]
  inputTokens := some 700
  outputTokens := some 60

def insult : Finding :=
  ⟨"abusive_language", .high, 1, some 4000, some 4600, some "idiot", none, none⟩

def upheldInsult (span : Int × Int) (text : String) : Finding :=
  ⟨"abusive_language", .high, 2, span.1, span.2, text, "The agent insulted the borrower.",
    some (.float 1)⟩

theorem upheld_cites_quoted :
    Cites (upholds (.arr [.num (.int 9000), .num (.int 9500)]) (.str "fool")).raw
      (upheldInsult (9000, 9500) "fool") :=
  (upheld_cites_iff (x := insult) (v := ⟨"upheld", "abusive_language", .float 1,
      "The agent insulted the borrower.", some (9000, 9500), some "fool"⟩)
    (by decide +kernel) (by decide) (by decide)).2.mpr ⟨(9000, 9500), "fool", ⟨rfl, rfl⟩, by decide⟩

/-- **A verdict that quotes nothing.** -/
theorem upheld_without_evidence :
    judgeSchema.valid (upholds .null .null).raw = true ∧
      ((reviewReply insult (some (upholds .null .null))).bind Prod.fst).bind
        (applyVerdict insult) = some (upheldInsult (4000, 4600) "idiot") ∧
      readSpan ((upholds .null .null).raw.get? "evidence_span_ms") = some none ∧
      readText ((upholds .null .null).raw.get? "evidence_text") = some none := by
  decide +kernel

end Sentinel.Workers
