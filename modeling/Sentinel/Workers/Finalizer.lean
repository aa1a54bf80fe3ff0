import Mathlib.Data.List.ReduceOption
import Sentinel.Lib.Faults
import Sentinel.Workers.Segments
import Sentinel.Workers.Persistence
import Sentinel.Workers.Cost
import Sentinel.Workers.Judge

/-!
# Finalizing a call

`Finalizer` (`worker.py`) takes one call through transcription, analysis and compliance: no
transcript stops the call; no analysis must not stop the rules; no judge leaves the tier-1 findings
standing.
-/

namespace Sentinel.Workers

open Faults

/-! ## What a run works on -/

inductive SinkError where
  | callId
  | refused (e : DbError)
  | connection
  deriving DecidableEq, Repr

inductive Trouble where
  | audio (e : AudioError)
  | sink (e : SinkError)
  | typeError
  deriving DecidableEq, Repr

inductive Deed where
  | asked (reply : Option Reply)
  | evaluated (t : Transcript) (findings : List Finding)
  | judged (f : Finding) (reply : Option Reply)
  | savedTranscript (t : Transcript)
  | savedAnalysis (a : Analysis) (costPaise : Int)
  | savedFindings (ruleSetVersion : Int) (findings : List Finding)
  | status (s : String)

namespace Deed

def isEvaluated : Deed → Bool
  | .evaluated _ _ => true
  | _ => false

def isSavedFindings : Deed → Bool
  | .savedFindings _ _ => true
  | _ => false

end Deed

structure World (D : Type) where
  db : D
  budget : TenantBudget
  notes : List String := []
  deeds : List Deed := []

abbrev Work (D : Type) := Fallible (World D) Trouble

structure Sink (D : Type) where
  saveTranscript : D → CallId → Transcript → Except SinkError D
  saveAnalysis : D → CallId → Analysis → Int → Except SinkError D
  saveFindings : D → CallId → Int → List Finding → Except SinkError D
  setStatus : D → CallId → String → Except SinkError D

def postgresSink (tenant : String) (callUuid : CallId → Option Uuid) : Sink Records where
  saveTranscript d id t := do
    let uuid ← (callUuid id).elim (.error .callId) .ok
    let put := fun (table : Table (Uuid × Channel) (String × ChannelTranscript))
      (ct : ChannelTranscript) => table.put (uuid, ct.channel) (tenant, ct)
    .ok { d with transcripts := t.channels.foldl put d.transcripts }
  saveAnalysis d id a costPaise := do
    let uuid ← (callUuid id).elim (.error .callId) .ok
    (d.transact (Workers.saveAnalysis tenant uuid a costPaise)).mapError .refused
  saveFindings d id version findings := do
    let uuid ← (callUuid id).elim (.error .callId) .ok
    (d.transact (Workers.saveFindings tenant uuid version findings)).mapError .refused
  setStatus d id status := do
    let uuid ← (callUuid id).elim (.error .callId) .ok
    .ok { d with calls := d.calls.mapVals fun k head =>
      if k = uuid then { head with status := status } else head }

structure AsrResult where
  text : String
  words : List Word := []
  language : String := "hi"
  confidence : Option JsonNum := none
  provider : String := "unknown"
  providerVersion : String := "unknown"

def AsrResult.toChannelTranscript (r : AsrResult) (ch : Channel) : ChannelTranscript where
  channel := ch
  text := r.text
  words := r.words
  language := r.language
  provider := r.provider
  providerVersion := r.providerVersion
  confidence := r.confidence

structure RuleEngine where
  evaluate : Transcript → List Finding
  version : Int
  judgeRules : List String
  judgeSamplePct : ℚ := 5

structure Finalizer (D : Type) where
  segments : CallId → Channel → Except AudioError (Option (List UInt8))
  asr : Channel → List UInt8 → Option String → Option AsrResult
  analyzer : Option CallAnalyzer
  rules : RuleEngine
  judge : Option ComplianceJudge
  sampleBucket : CallId → Nat
  sink : Sink D
  costPolicy : CostPolicy

structure Outcome where
  callId : CallId
  status : String
  transcript : Option Transcript := none
  analysis : Option Analysis := none
  findings : List Finding := []
  costPaise : Int := 0
  notes : List String := []

/-! ## The steps -/

def speaker : Channel → String
  | .far => "borrower"
  | .near => "agent"

variable {D : Type}

def note (text : String) : Work D Unit := modify fun w => { w with notes := w.notes ++ [text] }

def deed (x : Deed) : Work D Unit := modify fun w => { w with deeds := w.deeds ++ [x] }

def spend (paise : Int) : Work D Unit := modify fun w => { w with budget := w.budget.record paise }

def save (x : Deed) (f : D → Except SinkError D) : Work D Unit := do
  deed x
  let w ← get
  match f w.db with
  | .ok db => modify fun w => { w with db := db }
  | .error e => throw (.sink e)

def before (a b : Finding) : Prop :=
  b.severity.rank < a.severity.rank ∨
    (a.severity.rank = b.severity.rank ∧ a.spanStartMs.getD 0 ≤ b.spanStartMs.getD 0)

instance : DecidableRel before := fun _ _ => inferInstanceAs (Decidable (_ ∨ _))

namespace Finalizer

variable (f : Finalizer D)

def transcribeChannel (ctx : CallContext) (ch : Channel) : Work D (Option ChannelTranscript) :=
  match f.segments ctx.callId ch with
  | .error e => throw (.audio e)
  | .ok audio =>
    let pcm := audio.getD []
    if pcm.isEmpty then do
      note ("no audio on the " ++ speaker ch ++ " channel")
      pure none
    else
      match f.asr ch pcm ctx.language with
      | none => do
        note ("asr failed on the " ++ speaker ch ++ " channel")
        pure none
      | some r => pure (some (r.toChannelTranscript ch))

def transcribe (ctx : CallContext) : Work D (Option Transcript) := do
  let far ← f.transcribeChannel ctx .far
  let near ← f.transcribeChannel ctx .near
  let channels := [far, near].reduceOption
  pure (if channels.isEmpty then none else some ⟨ctx, channels⟩)

def askAll : List (Option Reply) → Work D Unit
  | [] => pure ()
  | r :: rs => do
    deed (.asked r)
    askAll rs

def priceAnalysis (x : Analysis) : Work D Int :=
  match f.costPolicy.costPaise x.model x.inputTokens x.outputTokens with
  | .ok paise => pure paise
  | .error .keyError => do
    note ("model " ++ x.model ++ " has no pricing configured")
    pure 0
  | .error .typeError => throw .typeError

def analyseOnce (a : CallAnalyzer) (t : Transcript) : Work D (Option Analysis) := do
  askAll (a.analyse t).1
  match (a.analyse t).2 with
  | .error .schemaViolation => do
    note "analysis failed schema validation"
    pure none
  | .error .raised => do
    note "analysis provider failed"
    pure none
  | .ok x => do
    let paise ← f.priceAnalysis x
    spend paise
    save (.savedAnalysis x paise) fun db => f.sink.saveAnalysis db t.context.callId x paise
    pure (some x)

def analyse (t : Transcript) (decision : Decision) : Work D (Option Analysis) :=
  match f.analyzer with
  | some a =>
    if decision.analyse then f.analyseOnce a t
    else do
      note ("analysis skipped: " ++ decision.reason)
      pure none
  | none => do
    note ("analysis skipped: " ++ decision.reason)
    pure none

def priceReview (j : ComplianceJudge) (r : Reply) : Work D Unit :=
  match f.costPolicy.costPaise j.name r.inputTokens r.outputTokens with
  | .ok paise => spend paise
  | .error .keyError => note ("model " ++ j.name ++ " has no pricing configured")
  | .error .typeError => throw .typeError

def reviewOne (j : ComplianceJudge) (i : Nat) (finding : Finding) : Work D (Option Finding) := do
  deed (.judged finding (j.judge i))
  match reviewReply finding (j.judge i) with
  -- An unreviewed finding still stands.
  | none => pure (some finding)
  | some (verdict, r) => do
    f.priceReview j r
    match verdict with
    | none => do
      note ("judge returned an unusable verdict for " ++ finding.ruleId)
      pure (some finding)
    | some v => pure (applyVerdict finding v)

def reviewAll (j : ComplianceJudge) : Nat → List Finding → Work D (List (Option Finding))
  | _, [] => pure []
  | i, finding :: findings => do
    let r ← f.reviewOne j i finding
    let rs ← reviewAll j (i + 1) findings
    pure (r :: rs)

def review (j : ComplianceJudge) (findings : List Finding) : Work D (List Finding) := do
  let toReview := escalate findings f.rules.judgeRules
  let untouched := findings.filter fun x => x ∉ toReview
  let reviewed ← f.reviewAll j 0 toReview
  pure ((reviewed.reduceOption ++ untouched).insertionSort before)

def judged (ctx : CallContext) (findings : List Finding) : Work D (List Finding) := do
  let wanted := shouldJudge (f.sampleBucket ctx.callId) (!findings.isEmpty) f.rules.judgeRules
    (findings.map (·.ruleId)) f.rules.judgeSamplePct
  let w ← get
  let decision := f.costPolicy.decide w.budget ctx.durationMs (!findings.isEmpty)
  match f.judge with
  | some j =>
    if wanted && decision.judge then f.review j findings
    else if wanted then do
      note ("judge skipped: " ++ decision.reason)
      pure findings
    else pure findings
  | none =>
    if wanted then do
      note ("judge skipped: " ++ decision.reason)
      pure findings
    else pure findings

def comply (ctx : CallContext) (t : Transcript) : Work D (List Finding) := do
  let findings := f.rules.evaluate t
  deed (.evaluated t findings)
  let reviewed ← f.judged ctx findings
  save (.savedFindings f.rules.version reviewed) fun db =>
    f.sink.saveFindings db ctx.callId f.rules.version reviewed
  save (.status "complete") fun db => f.sink.setStatus db ctx.callId "complete"
  pure reviewed

def enrich (t : Transcript) (analysis : Option Analysis) : Transcript :=
  match analysis with
  | some a => { t with context := { t.context with interruptions := some a.interruptions } }
  | none => t

def complete (ctx : CallContext) (t : Transcript) : Work D Outcome := do
  save (.savedTranscript t) fun db => f.sink.saveTranscript db ctx.callId t
  let w ← get
  let decision := f.costPolicy.decide w.budget ctx.durationMs false
  save (.status "analyzing") fun db => f.sink.setStatus db ctx.callId "analyzing"
  let analysis ← f.analyse t decision
  let findings ← f.comply ctx (enrich t analysis)
  let w ← get
  pure {
    callId := ctx.callId
    status := "complete"
    transcript := some (enrich t analysis)
    analysis, findings
    costPaise := w.budget.spentPaise
    notes := w.notes }

def finalize (ctx : CallContext) : Work D Outcome := do
  match ← f.transcribe ctx with
  | none => do
    save (.status "failed") fun db => f.sink.setStatus db ctx.callId "failed"
    let w ← get
    pure { callId := ctx.callId, status := "failed", notes := w.notes }
  | some t => f.complete ctx t

end Finalizer

end Sentinel.Workers
