import Sentinel.Workers.Matching
import Sentinel.Workers.Finalizer

/-!
# The tier-1 rules

The second half of `compliance/engine.py`: a `RuleSet`, loaded from the document that a tenant has
published, and `evaluate`, which runs the handler of every enabled rule and sorts the findings.
-/

namespace Sentinel.Workers

/-! ## Rule sets -/

structure Rule where
  ruleId : Json
  enabled : Bool
  severity : Severity
  judge : Bool := false
  params : Json := .obj []

structure DayTime where
  hour : Fin 24
  minute : Fin 60
  deriving DecidableEq, Repr

def DayTime.time (d : DayTime) : Nat := (d.hour * 60 + d.minute) * 60000000

structure RuleSet where
  version : Int
  rules : List Rule
  callHoursStart : DayTime := ⟨8, 0⟩
  callHoursEnd : DayTime := ⟨19, 0⟩
  timezone : Json := .str "Asia/Kolkata"
  judgeSamplePct : JsonNum := .float 5

def Severity.ofJson? : Json → Option Severity
  | .str "low" => some .low
  | .str "medium" => some .medium
  | .str "high" => some .high
  | .str "critical" => some .critical
  | _ => none

variable (py : PyLibrary)

def DayTime.of? (hour minute : Int) : Option DayTime :=
  if h : (0 ≤ hour ∧ hour < 24) ∧ 0 ≤ minute ∧ minute < 60 then
    some ⟨⟨hour.toNat, by omega⟩, ⟨minute.toNat, by omega⟩⟩
  else none

def parseHhmm (value : Json) (fallback : DayTime) : DayTime :=
  match value.asStr?.map fun s => s.toList.splitOn ':' with
  | some [hh, mm] =>
    (do DayTime.of? (← py.int (String.ofList hh)) (← py.int (String.ofList mm))).getD fallback
  | _ => fallback

def loadRule (r : Json) : Option Rule := do
  let field := fun name => r.get? name
  let ruleId ← field "rule_id"
  let severity ← Severity.ofJson? ((field "severity").getD (.str "medium"))
  pure {
    ruleId
    enabled := ((field "enabled").getD (.bool true)).truthy
    severity
    judge := ((field "judge").getD (.bool false)).truthy
    params := Json.orDefault (field "params") (.obj []) }

def loadRuleSet (definition : List (String × Json)) (version : Int) : Option RuleSet := do
  let hours := Json.orDefault (definition.lookup "call_hours") (.obj [])
  let rules ← (← ((definition.lookup "rules").getD (.arr [])).iterate?).mapM loadRule
  let start ← hours.getField? "start"
  let stop ← hours.getField? "end"
  let timezone ← hours.getField? "timezone"
  let judgeSamplePct ← py.float ((definition.lookup "judge_sample_pct").getD (.num (.float 5)))
  pure {
    version
    rules
    callHoursStart := parseHhmm py (start.getD (.str "08:00")) ⟨8, 0⟩
    callHoursEnd := parseHhmm py (stop.getD (.str "19:00")) ⟨19, 0⟩
    timezone := timezone.getD (.str "Asia/Kolkata")
    judgeSamplePct }

/-! ## The parameters of a rule -/

namespace Transcript

variable (t : Transcript)

def get (c : Channel) : Option ChannelTranscript := t.channels.find? fun x => x.channel = c

def near : Option ChannelTranscript := t.get .near

def far : Option ChannelTranscript := t.get .far

end Transcript

namespace Rule

variable (r : Rule)

def int? (key : String) (default : Int) : Option Int := do
  match ← r.params.getField? key with
  | none => some default
  | some v => v.toInt? py.int

def terms? (key : String) : Option (List Term) := termsOf r.params key

def channel? : Option Channel := do
  let name ← r.params.getField? "channel"
  pure (if name.bind Json.asStr? = some "far" then .far else .near)

def channelFor (t : Transcript) : Option (Option ChannelTranscript) := r.channel?.map t.get

def patterns? : Option Json :=
  (r.params.getField? "patterns").map fun v => Json.orDefault v (.arr [])

end Rule

/-! ## The handlers -/

def twoDigits (n : Nat) : String := if n < 10 then "0" ++ toString n else toString n

def clock (time : Nat) : String :=
  twoDigits (time / 3600000000) ++ ":" ++ twoDigits (time / 60000000 % 60)

def strOf : Json → String
  | .str s => s
  | .null => "None"
  | .bool _ => "False"
  | .num (.int _) => "0"
  | .num _ => "0.0"
  | .arr _ => "[]"
  | .obj _ => "\x7b\x7d"

def saidAny (opening : List Char) : List Term → Option Bool
  | [] => some false
  | term :: terms => do
    let text ← term.text?
    let fold := foldFor py term.language text
    if fold text <:+: fold opening then some true else saidAny opening terms

namespace RuleSet

variable (rs : RuleSet) (r : Rule) (id : String) (t : Transcript)

def termRule : Option (List Finding) := do
  match ← r.channelFor t with
  | none => pure []
  | some c =>
    let hits ← findTerms py c (← r.terms? "terms") none
    let more ← findPatterns py c (← r.patterns?)
    match (hits ++ more).insertionSort fun a b => a.startMs ≤ b.startMs with
    | [] => pure []
    | first :: _ =>
      let context := c.spanText (max 0 (first.startMs - 3000)) (first.endMs + 3000)
      pure [{
        ruleId := id
        severity := r.severity
        tier := 1
        spanStartMs := some first.startMs
        spanEndMs := some first.endMs
        evidenceText := some (if context = "" then first.text else context)
        rationale := some (toString (hits ++ more).length ++ " matching phrase(s) on the " ++
          speaker c.channel ++ " channel") }]

def thirdPartyDisclosure : Option (List Finding) :=
  match t.near, t.far with
  | some near, some far => do
    let denials ← findTerms py far (← r.terms? "denial_terms") none
    match (denials.map (·.startMs)).min? with
    | none => pure []
    | some firstDenial =>
      let window ← r.int? py "window_ms" 120000
      let disclosures ← findTerms py near (← r.terms? "disclosure_terms") none
      match (disclosures.filter fun h =>
          firstDenial ≤ h.startMs ∧ h.startMs ≤ firstDenial + window).minOn? (·.startMs) with
      | none => pure []
      | some first => pure [{
          ruleId := id
          severity := r.severity
          tier := 1
          spanStartMs := some first.startMs
          spanEndMs := some first.endMs
          evidenceText := some
            (near.spanText (max 0 (first.startMs - 3000)) (first.endMs + 3000))
          rationale := some ("the other party denied being the borrower at " ++
            toString firstDenial ++ " ms and account details followed") }]
  | _, _ => pure []

def localTime? : Option LocalTime := do
  let key ← (Json.orDefault (some rs.timezone) (.str t.context.tenantTimezone)).asStr?
  py.astimezone key t.context.startedAt

def outsideCallHours : Option (List Finding) := do
  let now ← rs.localTime? py t
  if rs.callHoursStart.time ≤ now.time ∧ now.time < rs.callHoursEnd.time then pure []
  else pure [{
    ruleId := id
    severity := r.severity
    tier := 1
    spanStartMs := some 0
    spanEndMs := some 0
    evidenceText := some ("call placed at " ++ clock now.time ++ " " ++ now.zone)
    rationale := some ("outside the permitted window " ++ clock rs.callHoursStart.time ++ "–" ++
      clock rs.callHoursEnd.time ++ " " ++ strOf rs.timezone) }]

def opening? (default : Int) : Option (Option (ChannelTranscript × Int × String)) :=
  match t.near with
  | none => pure none
  | some near => do
    let window ← r.int? py "window_ms" default
    let opening := near.spanText 0 window
    if t.context.durationMs < window ∨ strip opening.toList = [] then pure none
    else pure (some (near, window, opening))

def missingIdentification : Option (List Finding) := do
  match ← opening? py r t 30000 with
  | none => pure []
  | some (_, window, opening) =>
    let saidAgency ← saidAny py opening.toList (← r.terms? "agency_terms")
    let saidName := py.introduces opening.toList
    if saidAgency && saidName then pure []
    else
      let missing := (if saidName then [] else ["agent name"]) ++
        (if saidAgency then [] else ["agency"])
      pure [{
        ruleId := id
        severity := r.severity
        tier := 1
        spanStartMs := some 0
        spanEndMs := some window
        evidenceText := some opening
        rationale := some ("not stated in the first " ++ toString (window / 1000) ++ " s: " ++
          ", ".intercalate missing) }]

def noPurposeDisclosure : Option (List Finding) := do
  match ← opening? py r t 60000 with
  | none => pure []
  | some (near, window, opening) =>
    let said ← findTerms py near (← r.terms? "terms") (some (0, window))
    if said ≠ [] then pure []
    else pure [{
      ruleId := id
      severity := r.severity
      tier := 1
      spanStartMs := some 0
      spanEndMs := some window
      evidenceText := some opening
      rationale := some ("purpose of the call not stated in the first " ++
        toString (window / 1000) ++ " s") }]

def excessiveInterruption : Option (List Finding) := do
  let threshold ← r.int? py "threshold" 12
  match t.context.interruptions with
  | none => pure []
  | some count =>
    if count ≤ threshold then pure []
    else pure [{
      ruleId := id
      severity := r.severity
      tier := 1
      rationale := some (toString count ++ " interruptions, threshold " ++ toString threshold)
      evidenceText := some (toString count ++ " interruptions") }]

def repeatContact : Option (List Finding) := do
  let threshold ← r.int? py "threshold" 3
  let calls := t.context.priorContacts24h
  if t.context.accountRef = none ∨ (calls : Int) ≤ threshold then pure []
  else pure [{
    ruleId := id
    severity := r.severity
    tier := 1
    rationale := some (toString calls ++ " calls to this account in 24 h, threshold " ++
      toString threshold)
    evidenceText := some (toString calls ++ " calls in 24 h") }]

end RuleSet

/-! ## The engine -/

inductive Handler where
  | termRule
  | thirdPartyDisclosure
  | outsideCallHours
  | missingIdentification
  | noPurposeDisclosure
  | excessiveInterruption
  | repeatContact
  deriving DecidableEq, Repr

def handlers : List (String × Handler) := [
  ("abusive_language", .termRule),
  ("threat_of_violence", .termRule),
  ("false_legal_threat", .termRule),
  ("false_seizure_threat", .termRule),
  ("third_party_disclosure", .thirdPartyDisclosure),
  ("outside_call_hours", .outsideCallHours),
  ("missing_identification", .missingIdentification),
  ("no_purpose_disclosure", .noPurposeDisclosure),
  ("excessive_interruption", .excessiveInterruption),
  ("repeat_contact", .repeatContact)]

def Rule.handler? (r : Rule) : Option (Option (String × Handler)) :=
  match r.ruleId with
  | .str s => some ((handlers.lookup s).map fun h => (s, h))
  | .arr _ | .obj _ => none
  | _ => some none

namespace RuleSet

variable (rs : RuleSet) (t : Transcript)

def handle (r : Rule) (id : String) : Handler → Option (List Finding)
  | .termRule => termRule py r id t
  | .thirdPartyDisclosure => thirdPartyDisclosure py r id t
  | .outsideCallHours => rs.outsideCallHours py r id t
  | .missingIdentification => missingIdentification py r id t
  | .noPurposeDisclosure => noPurposeDisclosure py r id t
  | .excessiveInterruption => excessiveInterruption py r id t
  | .repeatContact => repeatContact py r id t

def findingsOf (r : Rule) : Option (List Finding) :=
  if r.enabled then do
    match ← r.handler? with
    | none => pure []
    | some (id, h) => rs.handle py t r id h
  else pure []

def evaluate : Option (List Finding) := do
  let findings ← rs.rules.mapM (rs.findingsOf py t)
  pure (findings.flatten.insertionSort before)

end RuleSet

end Sentinel.Workers
