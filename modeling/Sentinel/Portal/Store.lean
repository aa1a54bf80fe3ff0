import Sentinel.Lib.Faults
import Sentinel.Portal.Review

/-!
# The store

The store (`store.go`, `queries.go`) runs every operation in one transaction that carries the
caller's identity (`asIdentity`), and row-level security limits what it sees.
-/

namespace Sentinel.Portal

open Workers Faults

/-! ## The tables, and who sees what -/

inductive Role where
  | agent
  | supervisor
  | qa
  | compliance
  | admin
  | client
  deriving DecidableEq, Repr

structure Identity where
  userUid : String
  tenantId : String
  role : Role
  deriving DecidableEq, Repr

structure CallRow where
  tenantId : String
  deviceId : String
  userUid : String
  teamId : Option Uuid := none
  startedAt : Int
  endedAt : Option Int := none
  durationMs : Option Int := none
  direction : Option String := none
  accountRef : Option String := none
  captureTier : String
  hasFlags : Bool := false
  status : String
  deriving DecidableEq, Repr

inductive AuditDetail where
  | null
  | calls (count : Nat) (callIds : List Uuid) (searched : Bool) (userUid teamId : String)
    (hasFlags : Option Bool)
  | status (status : String)
  | flags (flagIds : List String) (includeAudio : Bool)
  deriving DecidableEq, Repr

structure AuditEntry where
  tenantId : String
  actorUid : String
  action : String
  entity : String
  entityId : Option String
  detail : AuditDetail
  deriving DecidableEq, Repr

structure Database where
  calls : Table Uuid CallRow := ∅
  transcripts : Table (Uuid × Channel) (String × ChannelTranscript) := ∅
  analyses : Table Uuid AnalysisRow := ∅
  ptps : Table Uuid PtpRow := ∅
  flags : Flags := ∅
  flagCreatedAt : Nat → Int := fun _ => 0
  teams : Table (String × String) (List Uuid) := ∅
  displayNames : Table String String := ∅
  captureStates : Table String String := ∅
  auditLog : List AuditEntry := []

structure Dialect where
  uuid : String → Option Uuid
  flagId : String → Option Nat
  uuid_empty : uuid "" = none
  flagId_empty : flagId "" = none
  searches : (text search : String) → Bool
  delta : Json → Option JsonNum

namespace Database

variable (db : Database) (caller : Identity)

def canSeeCall (row : CallRow) : Bool :=
  let own := caller.userUid ≠ "" && row.userUid = caller.userUid
  match caller.role with
  | .agent => own
  | .supervisor => own ||
      row.teamId.any (· ∈ (db.teams.get? (caller.tenantId, caller.userUid)).getD [])
  | .qa | .compliance | .admin => true
  | .client => row.hasFlags

def CallScope (row : CallRow) : Prop :=
  row.tenantId = caller.tenantId ∧ db.canSeeCall caller row = true

instance (row : CallRow) : Decidable (db.CallScope caller row) :=
  inferInstanceAs (Decidable (_ ∧ _))

def CallVisible (call : Uuid) : Prop := ∃ row ∈ db.calls.get? call, db.CallScope caller row

instance (call : Uuid) : Decidable (db.CallVisible caller call) :=
  inferInstanceAs (Decidable (∃ _ ∈ _, _))

def visibleCalls : List (Uuid × CallRow) :=
  db.calls.rows.filter fun r => db.CallScope caller r.2

def visibleFlags : List (FlagKey × FlagRow) :=
  db.flags.table.rows.filter fun r =>
    r.2.tenantId = caller.tenantId ∧ (caller.role = .client ∨ db.CallVisible caller r.1.1)

def inScope {V : Type} (t : Table Uuid V) (tenant : V → String) (call : Uuid) : Option V :=
  (t.get? call).filter fun row => tenant row = caller.tenantId ∧ db.CallVisible caller call

def transcriptsOf (call : Uuid) : List ChannelTranscript :=
  [Channel.far, Channel.near].filterMap fun channel =>
    (((db.transcripts.get? (call, channel)).filter fun row =>
      row.1 = caller.tenantId ∧ db.CallVisible caller call)).map Prod.snd

end Database

/-! ## What is returned -/

structure Ptp where
  present : Bool
  amountPaise : Option Int
  dueDate : Option Int
  confidence : JsonNum
  agentConfirmed : Option Bool
  agentAmountPaise : Option Int
  agentDueDate : Option Int
  evidenceSpanMs : Option (Int × Int)
  deriving DecidableEq, Repr

structure CallSummary where
  id : Uuid
  startedAt : Int
  endedAt : Option Int
  durationMs : Option Int
  userUid : String
  accountRef : Option String
  direction : Option String
  captureTier : String
  status : String
  disposition : Option Disposition
  summary : Option String
  sentimentDelta : Option JsonNum
  flagCount : Nat
  maxSeverity : Option Severity
  ptp : Option Ptp
  deriving DecidableEq, Repr

structure TranscriptTurn where
  channel : Channel
  speaker : String
  startMs : Int := 0
  endMs : Int := 0
  text : String
  confidence : Option JsonNum
  deriving DecidableEq, Repr

structure Flag where
  id : Nat
  callId : Uuid
  ruleId : String
  ruleSetVersion : Int
  severity : Severity
  tier : Nat
  spanStartMs : Option Int
  spanEndMs : Option Int
  evidenceText : Option String
  judgeRationale : Option String
  status : FlagStatus
  reviewerUid : Option String
  agentResponse : Option String
  resolvedAt : Option Int
  deriving DecidableEq, Repr

structure CallDetail where
  summary : CallSummary
  transcript : List TranscriptTurn
  sentiment : Option Json
  flags : List Flag
  talkRatio : Option JsonNum
  interruptions : Option Int
  nextAction : Option String

structure LiveCallEvent where
  callId : Uuid
  userUid : String
  displayName : String
  state : String
  startedAt : Int
  elapsedMs : Int
  deriving DecidableEq, Repr

structure EvidenceExport where
  jobId : String := ""
  status : String := "queued"
  deriving DecidableEq, Repr

def PtpRow.ptp (row : PtpRow) : Ptp where
  present := row.extraction.amountPaise.isSome
  amountPaise := row.extraction.amountPaise
  dueDate := row.extraction.dueDate
  confidence := row.extraction.confidence
  agentConfirmed := row.correction.map (·.agentConfirmed)
  agentAmountPaise := row.correction.bind (·.agentAmountPaise)
  agentDueDate := row.correction.bind (·.agentDueDate)
  evidenceSpanMs := row.extraction.extractedSpan.filter fun span => span.1 < span.2

def flagOf (r : FlagKey × FlagRow) : Flag where
  id := r.2.id
  callId := r.1.1
  ruleId := r.1.2.1
  ruleSetVersion := r.2.extraction.ruleSetVersion
  severity := r.2.extraction.severity
  tier := r.1.2.2
  spanStartMs := r.2.extraction.spanStartMs
  spanEndMs := r.2.extraction.spanEndMs
  evidenceText := r.2.extraction.evidenceText
  judgeRationale := r.2.extraction.judgeRationale
  status := r.2.review.status
  reviewerUid := r.2.review.reviewerUid
  agentResponse := r.2.review.agentResponse
  resolvedAt := r.2.review.resolvedAt

def turnsOf (t : ChannelTranscript) : List TranscriptTurn :=
  let speaker := if t.channel = .near then "agent" else "borrower"
  if t.words = [] then
    [{ channel := t.channel, speaker, text := t.text, confidence := t.confidence }]
  else t.words.map fun w =>
    { channel := t.channel, speaker, startMs := w.startMs, endMs := w.endMs, text := w.text,
      confidence := t.confidence }

/-- The inner loop of `sortTurns`: turn `j` changes places with the one before it for as long as
that one starts later. -/
def sinkTurn : Nat → List TranscriptTurn → List TranscriptTurn
  | j + 1, ts =>
    match ts[j]?, ts[j + 1]? with
    | some before, some turn =>
      if turn.startMs < before.startMs then sinkTurn j ((ts.set (j + 1) before).set j turn) else ts
    | _, _ => ts
  | 0, ts => ts

def sortTurns (ts : List TranscriptTurn) : List TranscriptTurn :=
  (List.range' 1 (ts.length - 1)).foldl (fun ts i => sinkTurn i ts) ts

/-! ## Queries -/

structure CallFilter where
  userUid : String := ""
  teamId : String := ""
  from_ : Option Int := none
  to_ : Option Int := none
  disposition : String := ""
  search : String := ""
  hasFlags : Option Bool := none
  limit_ : Int := 0
  cursor : Option Int := none
  deriving DecidableEq, Repr

def CallFilter.limit (f : CallFilter) : Nat :=
  if f.limit_ ≤ 0 then 50 else if 200 < f.limit_ then 200 else f.limit_.toNat

structure FlagFilter where
  severity : String := ""
  status : String := ""
  ruleId : String := ""
  limit_ : Int := 0
  deriving DecidableEq, Repr

def FlagFilter.limit (f : FlagFilter) : Nat :=
  if f.limit_ ≤ 0 ∨ 200 < f.limit_ then 50 else f.limit_.toNat

def severityText : Severity → String
  | .low => "low"
  | .medium => "medium"
  | .high => "high"
  | .critical => "critical"

namespace Database

variable (db : Database) (dialect : Dialect) (caller : Identity)

def callSummary (r : Uuid × CallRow) : CallSummary :=
  let analysis := db.inScope caller db.analyses (·.tenantId) r.1
  let ptp := db.inScope caller db.ptps (·.tenantId) r.1
  let severities := ((db.visibleFlags caller).filter fun f => f.1.1 = r.1).map
    (·.2.extraction.severity)
  { id := r.1
    startedAt := r.2.startedAt
    endedAt := r.2.endedAt
    durationMs := r.2.durationMs
    userUid := r.2.userUid
    accountRef := r.2.accountRef
    direction := r.2.direction
    captureTier := r.2.captureTier
    status := r.2.status
    disposition := analysis.map (·.disposition)
    summary := analysis.map (·.summary)
    sentimentDelta := analysis.bind fun a => dialect.delta a.sentiment
    flagCount := severities.length
    maxSeverity := [Severity.critical, .high, .medium, .low].find? (· ∈ severities)
    ptp := ptp.map PtpRow.ptp }

def Selects (f : CallFilter) (team : Option Uuid) (r : Uuid × CallRow) : Prop :=
  (f.userUid = "" ∨ r.2.userUid = f.userUid) ∧
  (∀ t ∈ team, r.2.teamId = some t) ∧
  (∀ t ∈ f.from_, t ≤ r.2.startedAt) ∧
  (∀ t ∈ f.to_, r.2.startedAt < t) ∧
  (f.disposition = "" ∨ ∃ a ∈ db.inScope caller db.analyses (·.tenantId) r.1,
    a.disposition.text = f.disposition) ∧
  (∀ t ∈ f.cursor, r.2.startedAt < t) ∧
  (f.search = "" ∨ ∃ t ∈ db.transcriptsOf caller r.1, dialect.searches t.text f.search = true) ∧
  ∀ b ∈ f.hasFlags, r.2.hasFlags = b

instance (f : CallFilter) (team : Option Uuid) (r : Uuid × CallRow) :
    Decidable (db.Selects dialect caller f team r) :=
  inferInstanceAs (Decidable (_ ∧ _ ∧ _ ∧ _ ∧ _ ∧ _ ∧ _ ∧ _))

def callPage (f : CallFilter) (team : Option Uuid) : List CallSummary :=
  let rows := (db.visibleCalls caller).filter fun r => db.Selects dialect caller f team r
  ((rows.mergeSort fun r r' => r'.2.startedAt ≤ r.2.startedAt).take f.limit).map
    (db.callSummary dialect caller)

def flagPage (f : FlagFilter) : List Flag :=
  let rows := (db.visibleFlags caller).filter fun r =>
    (f.severity = "" ∨ severityText r.2.extraction.severity = f.severity) ∧
    (f.status = "" ∨ r.2.review.status.text = f.status) ∧ (f.ruleId = "" ∨ r.1.2.1 = f.ruleId)
  let before (r r' : FlagKey × FlagRow) : Bool :=
    r'.2.extraction.severity.rank < r.2.extraction.severity.rank ∨
      (r'.2.extraction.severity = r.2.extraction.severity ∧
        db.flagCreatedAt r'.2.id ≤ db.flagCreatedAt r.2.id)
  ((rows.mergeSort before).take f.limit).map flagOf

def flagsForCall (call : Uuid) : List Flag :=
  let before (f g : Flag) : Bool :=
    severityText f.severity < severityText g.severity ∨ (f.severity = g.severity ∧
      ∀ t ∈ g.spanStartMs, ∃ t' ∈ f.spanStartMs, t' ≤ t)
  (((db.visibleFlags caller).filter fun r => r.1.1 = call).map flagOf).mergeSort before

def liveRows (team : Option Uuid) (now : Int) : List LiveCallEvent :=
  let rows := (db.visibleCalls caller).filter fun r =>
    r.2.endedAt = none ∧ now - 2 * 3600 * 10 ^ 6 < r.2.startedAt ∧
      ∀ t ∈ team, r.2.teamId = some t
  (rows.mergeSort fun r r' => r.2.startedAt ≤ r'.2.startedAt).map fun r =>
    { callId := r.1
      userUid := r.2.userUid
      displayName := (db.displayNames.get? r.2.userUid).getD r.2.userUid
      state := (db.captureStates.get? r.2.deviceId).getD "IN_CALL"
      startedAt := r.2.startedAt
      elapsedMs := (now - r.2.startedAt) / 1000 }

end Database

/-! ## Transactions -/

inductive StoreError where
  | refused
  | notFound
  | statement
  deriving DecidableEq, Repr

structure Session (ρ : Type) where
  db : Database
  out : ρ

abbrev Tx (ρ α : Type) := Fallible (Faulty (Session ρ)) StoreError α

structure Weather where
  budget : Budget := none
  lost : Bool := false

structure Outcome (ρ α : Type) where
  result : Except StoreError α
  out : ρ
  db : Database

variable {ρ α : Type}

def Session.append (row : α) (s : Session (List α)) : Session (List α) :=
  { s with out := s.out ++ [row] }

def statement (f : Database → Database := id) : Tx ρ Unit :=
  call .statement fun s => { s with db := f s.db }

def asIdentity (caller : Identity) (w : Weather) (db : Database) (out : ρ) (fn : Tx ρ α) :
    Outcome ρ α :=
  if caller.tenantId = "" then ⟨.error .refused, out, db⟩
  else
    let run : Tx ρ α := do
      statement
      statement
      let a ← fn
      statement
      return a
    match exec run ⟨⟨db, out⟩, w.budget⟩ with
    | (.ok a, s) => ⟨if w.lost then .error .statement else .ok a, s.state.out, s.state.db⟩
    | (.error e, s) => ⟨.error e, s.state.out, db⟩

def auditTx (caller : Identity) (action entity entityId : String) (detail : AuditDetail) :
    Tx ρ Unit :=
  statement fun db => { db with auditLog := db.auditLog ++
    [⟨caller.tenantId, caller.userUid, action, entity,
      if entityId = "" then none else some entityId, detail⟩] }

def fetch (rows : List α) : Tx ρ (List α) := do
  statement
  rows.forM fun _ => statement
  return rows

def scanInto (rows : List α) : Tx (List α) Unit := do
  statement
  rows.forM fun row => call .statement (Session.append row)

def nullUuid (dialect : Dialect) (text : String) : Except StoreError (Option Uuid) :=
  if text = "" then .ok none
  else match dialect.uuid text with
  | none => .error .statement
  | some u => .ok (some u)

/-! ## The operations -/

namespace Store

structure Reply (α : Type) where
  value : α
  error : Option StoreError
  db : Database

def reply (o : Outcome ρ α) : Reply (Option α) :=
  match o.result with
  | .ok a => ⟨some a, none, o.db⟩
  | .error e => ⟨none, some e, o.db⟩

def maxIds : Nat := 200

def auditList (caller : Identity) (f : CallFilter) : Tx (List CallSummary) Unit := do
  let out := (← get).state.out
  if out = [] then return ()
  else auditTx caller "call.list" "call" "" <|
    .calls out.length ((out.take maxIds).map (·.id)) (f.search ≠ "") f.userUid f.teamId f.hasFlags

section Operations

variable (dialect : Dialect) (w : Weather) (caller : Identity) (db : Database)

def listCallsTx (f : CallFilter) : Tx (List CallSummary) Unit :=
  deferring
    (do
      let team ← ofExcept (nullUuid dialect f.teamId)
      scanInto (db.callPage dialect caller f team))
    (auditList caller f)

def listCalls (f : CallFilter) : Reply (List CallSummary × Option Int) :=
  let o := asIdentity caller w db [] (listCallsTx dialect caller db f)
  match o.result with
  | .error e => ⟨([], none), some e, o.db⟩
  | .ok _ =>
    ⟨(o.out, if o.out.length = f.limit then o.out.getLast?.map (·.startedAt) else none), none, o.db⟩

def getCallTx (callId : String) : Tx Unit CallDetail := do
  match dialect.uuid callId with
  | none => throw .statement
  | some call =>
    let found ← fetch ((db.visibleCalls caller).filter fun r => r.1 = call)
    match found.head? with
    | none => throw .notFound
    | some row =>
      let analysis ← fetch (db.inScope caller db.analyses (·.tenantId) call).toList
      let transcripts ← fetch (db.transcriptsOf caller call)
      let flags ← fetch (db.flagsForCall caller call)
      auditTx caller "call.read" "call" callId .null
      return {
        summary := db.callSummary dialect caller row
        transcript := sortTurns (transcripts.flatMap turnsOf)
        sentiment := analysis.head?.map (·.sentiment)
        flags
        talkRatio := analysis.head?.map (·.talkRatio)
        interruptions := analysis.head?.map (·.interruptions)
        nextAction := analysis.head?.bind (·.nextAction) }

def getCall (callId : String) : Reply (Option CallDetail) :=
  reply (asIdentity caller w db () (getCallTx dialect caller db callId))

def listFlags (f : FlagFilter) : Reply (List Flag) :=
  let o := asIdentity caller w db [] (scanInto (db.flagPage caller f))
  ⟨o.out, match o.result with | .ok _ => none | .error e => some e, o.db⟩

def reviewTx (flagId : String) (f : Review → Review) (action : String) (detail : AuditDetail) :
    Tx Unit Flag := do
  match dialect.flagId flagId with
  | none => throw .statement
  | some i =>
    match (db.visibleFlags caller).find? fun r => r.2.id = i with
    | none =>
      statement
      throw .notFound
    | some (key, row) =>
      statement fun db => { db with flags := reviewFlag db.flags i f }
      auditTx caller action "flag" flagId detail
      return flagOf (key, { row with review := f row.review })

def updateFlag (flagId : String) (b : FlagUpdate) (at_ : Int) : Reply (Option Flag) :=
  reply <| asIdentity caller w db () <|
    if b.status ≠ "" ∧ (FlagStatus.ofText? b.status).isNone then throw .statement
    else reviewTx dialect caller db flagId (fun r => updated r b at_) "flag.update"
      (.status b.status)

def respondToFlag (flagId response : String) : Reply (Option Flag) :=
  reply <| asIdentity caller w db () <|
    reviewTx dialect caller db flagId (fun r => { r with agentResponse := some response })
      "flag.agent_response" .null

def liveCalls (teamId : String) (now : Int) : Reply (List LiveCallEvent) :=
  let o := asIdentity caller w db [] do
    let team ← ofExcept (nullUuid dialect teamId)
    scanInto (db.liveRows caller team now)
  ⟨o.out, match o.result with | .ok _ => none | .error e => some e, o.db⟩

def queueEvidenceExportTx (jobId : String) (flagIds : List String) (includeAudio : Bool) :
    Tx EvidenceExport Unit := do
  statement
  match flagIds.mapM dialect.flagId with
  | none => throw .statement
  | some ids =>
    if ((db.visibleFlags caller).filter fun r => r.2.id ∈ ids).length ≠ flagIds.length then
      throw .notFound
    else
      call .statement fun s => { s with out := { s.out with jobId } }
      auditTx caller "evidence.export" "flag" jobId (.flags flagIds includeAudio)

def queueEvidenceExport (jobId : String) (flagIds : List String) (includeAudio : Bool) :
    Reply EvidenceExport :=
  let o := asIdentity caller w db {} (queueEvidenceExportTx dialect caller db jobId flagIds
    includeAudio)
  ⟨o.out, match o.result with | .ok _ => none | .error e => some e, o.db⟩

end Operations

end Store

end Sentinel.Portal
