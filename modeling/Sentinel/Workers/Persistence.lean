import Sentinel.Gateway.Sink
import Sentinel.Workers.Models

/-!
# What the workers write

`PostgresSink` (`persistence.py`) writes the results of a call in one transaction a method.
-/

open List

namespace Sentinel.Workers

/-! ## Flags -/

inductive FlagStatus where
  | opened
  | assigned
  | upheld
  | dismissed
  deriving DecidableEq, Repr

namespace FlagStatus

def text : FlagStatus → String
  | .opened => "open"
  | .assigned => "assigned"
  | .upheld => "upheld"
  | .dismissed => "dismissed"

def ofText? (s : String) : Option FlagStatus :=
  [opened, assigned, upheld, dismissed].find? fun st => st.text = s

end FlagStatus

structure Extraction where
  ruleSetVersion : Int
  severity : Severity
  spanStartMs : Option Int := none
  spanEndMs : Option Int := none
  evidenceText : Option String := none
  judgeRationale : Option String := none
  judgeConfidence : Option JsonNum := none
  deriving DecidableEq, Repr

structure Review where
  status : FlagStatus := .opened
  reviewerUid : Option String := none
  reviewerNote : Option String := none
  agentResponse : Option String := none
  resolvedAt : Option Int := none
  deriving DecidableEq, Repr

structure FlagRow where
  id : Nat
  tenantId : String
  extraction : Extraction
  review : Review := {}
  deriving DecidableEq, Repr

abbrev FlagKey := Uuid × String × Nat

structure Flags where
  table : Table FlagKey FlagRow
  next : Nat
  fresh : ∀ r ∈ table.rows, r.2.id < next

instance : EmptyCollection Flags :=
  ⟨{ table := ∅, next := 0, fresh := List.forall_mem_nil _ }⟩

def Finding.extraction (f : Finding) (ruleSetVersion : Int) : Extraction where
  ruleSetVersion := ruleSetVersion
  severity := f.severity
  spanStartMs := f.spanStartMs
  spanEndMs := f.spanEndMs
  evidenceText := f.evidenceText
  judgeRationale := f.rationale
  judgeConfidence := f.confidence

def flagText (ruleId : String) (tier : Nat) : String := ruleId ++ ":" ++ toString tier

def Review.Untouched (r : Review) : Prop :=
  r.status = .opened ∧ r.reviewerUid = none ∧ r.reviewerNote = none ∧ r.agentResponse = none

instance (r : Review) : Decidable r.Untouched := inferInstanceAs (Decidable (_ ∧ _ ∧ _ ∧ _))

namespace Flags

variable (fs : Flags)

def insert (k : FlagKey) (tenant : String) (e : Extraction) : Flags where
  table := fs.table.put k { id := fs.next, tenantId := tenant, extraction := e }
  next := fs.next + 1
  fresh := by
    intro r hr
    rcases Table.mem_rows_put.mp hr with rfl | ⟨hr, -⟩
    · exact Nat.lt_succ_self _
    · exact Nat.lt_succ_of_lt (fs.fresh r hr)

def update (f : FlagKey → FlagRow → Extraction × Review) : Flags where
  table := fs.table.mapVals fun k row =>
    { row with extraction := (f k row).1, review := (f k row).2 }
  next := fs.next
  fresh := by
    intro r hr
    obtain ⟨r', hr', rfl⟩ := List.mem_map.mp hr
    exact fs.fresh r' hr'

def filter (p : FlagKey × FlagRow → Bool) : Flags where
  table := fs.table.filter p
  next := fs.next
  fresh := fun r hr => fs.fresh r (List.mem_of_mem_filter hr)

def upsert (tenant : String) (call : Uuid) (version : Int) (f : Finding) : Flags :=
  let k : FlagKey := (call, f.ruleId, f.tier)
  if k ∈ fs.table.keys then
    fs.update fun j row => (if j = k then f.extraction version else row.extraction, row.review)
  else fs.insert k tenant (f.extraction version)

def deleteStale (call : Uuid) (keys : List String) : Flags :=
  fs.filter fun r => ¬ (r.1.1 = call ∧ r.2.review.Untouched ∧ flagText r.1.2.1 r.1.2.2 ∉ keys)

end Flags

/-! ## Promises to pay -/

structure PtpExtraction where
  amountPaise : Option Int := none
  dueDate : Option Int := none
  confidence : JsonNum := .int 0
  extractedSpan : Option (Int × Int) := none
  deriving DecidableEq, Repr

structure Correction where
  agentConfirmed : Bool
  agentAmountPaise : Option Int
  agentDueDate : Option Int
  correctedAt : Int
  deriving DecidableEq, Repr

structure PtpRow where
  tenantId : String
  extraction : PtpExtraction := {}
  correction : Option Correction := none
  deriving DecidableEq, Repr

def PromiseToPay.extraction (p : PromiseToPay) : PtpExtraction where
  amountPaise := p.amountPaise
  dueDate := p.dueDate
  confidence := p.confidence
  extractedSpan := p.evidenceSpanMs

/-! ## The tables -/

structure CallHead where
  tenantId : String
  status : String
  endedAt : Option Int := none
  deriving DecidableEq, Repr

structure AnalysisRow where
  tenantId : String
  promptVersion : String
  model : String
  summary : String
  disposition : Disposition
  nextAction : Option String
  sentiment : Json
  talkRatio : JsonNum
  interruptions : Int
  inputTokens : Option Int
  outputTokens : Option Int
  costPaise : Int
  truncated : Bool

def Analysis.row (a : Analysis) (tenant : String) (costPaise : Int) : AnalysisRow where
  tenantId := tenant
  promptVersion := a.promptVersion
  model := a.model
  summary := a.summary
  disposition := a.disposition
  nextAction := a.nextAction
  sentiment := a.sentiment
  talkRatio := a.talkRatio
  interruptions := a.interruptions
  inputTokens := a.inputTokens
  outputTokens := a.outputTokens
  costPaise := costPaise
  truncated := a.truncated

structure AuditRow where
  action : String
  entity : String
  entityId : String
  detail : List (String × String) := []
  deriving DecidableEq, Repr

structure Records where
  calls : Table Uuid CallHead := ∅
  transcripts : Table (Uuid × Channel) (String × ChannelTranscript) := ∅
  analyses : Table Uuid AnalysisRow := ∅
  ptps : Table Uuid PtpRow := ∅
  flags : Flags := ∅
  auditLog : List AuditRow := []

/-! ## Statements -/

inductive Statement where
  | upsertAnalysis (tenant : String) (call : Uuid) (a : Analysis) (costPaise : Int)
  | upsertPtp (tenant : String) (call : Uuid) (p : PromiseToPay)
  | deleteUnconfirmedPtp (call : Uuid)
  | upsertFlag (tenant : String) (call : Uuid) (version : Int) (f : Finding)
  | deleteStaleFlags (call : Uuid) (keys : List String)

inductive DbError where
  | rangeBounds
  deriving DecidableEq, Repr

def rangeReads : Option (Int × Int) → Bool
  | none => true
  | some (lower, upper) => lower ≤ upper

namespace Records

variable (d : Records)

def upsertPtp (tenant : String) (call : Uuid) (p : PromiseToPay) : Records :=
  match d.ptps.get? call with
  | none => { d with ptps := d.ptps.put call { tenantId := tenant, extraction := p.extraction } }
  | some row =>
    if row.correction.isSome then d
    else { d with ptps := d.ptps.put call { row with extraction := p.extraction } }

def execute : Statement → Except DbError Records
  | .upsertAnalysis tenant call a costPaise =>
    .ok { d with analyses := d.analyses.put call (a.row tenant costPaise) }
  | .upsertPtp tenant call p =>
    if rangeReads p.evidenceSpanMs then .ok (d.upsertPtp tenant call p) else .error .rangeBounds
  | .deleteUnconfirmedPtp call =>
    .ok { d with ptps := d.ptps.filter fun r => ¬ (r.1 = call ∧ r.2.correction = none) }
  | .upsertFlag tenant call version f =>
    .ok { d with flags := d.flags.upsert tenant call version f }
  | .deleteStaleFlags call keys => .ok { d with flags := d.flags.deleteStale call keys }

def transact (ss : List Statement) : Except DbError Records := ss.foldlM execute d

end Records

def saveAnalysis (tenant : String) (call : Uuid) (a : Analysis) (costPaise : Int) :
    List Statement :=
  [.upsertAnalysis tenant call a costPaise,
    if a.ptp.present then .upsertPtp tenant call a.ptp else .deleteUnconfirmedPtp call]

def saveFindings (tenant : String) (call : Uuid) (version : Int) (findings : List Finding) :
    List Statement :=
  findings.map (.upsertFlag tenant call version) ++
    [.deleteStaleFlags call (findings.map fun f => flagText f.ruleId f.tier)]

def Flags.upsertAll (fs : Flags) (tenant : String) (call : Uuid) (version : Int)
    (findings : List Finding) : Flags :=
  findings.foldl (fun fs f => fs.upsert tenant call version f) fs

theorem Records.transact_saveFindings (d : Records) (tenant : String) (call : Uuid) (version : Int)
    (findings : List Finding) :
    d.transact (saveFindings tenant call version findings) = .ok { d with
      flags := (d.flags.upsertAll tenant call version findings).deleteStale call
        (findings.map fun f => flagText f.ruleId f.tier) } := by
  unfold transact saveFindings
  generalize findings.map (fun f => flagText f.ruleId f.tier) = keys
  induction findings generalizing d with
  | nil => rfl
  | cons f findings ih => exact ih { d with flags := d.flags.upsert tenant call version f }

theorem Records.transact_saveAnalysis (d : Records) (tenant : String) (call : Uuid) {a : Analysis}
    (costPaise : Int) (h : a.ptp.present = true → rangeReads a.ptp.evidenceSpanMs = true) :
    ∃ d', d.transact (saveAnalysis tenant call a costPaise) = .ok d' := by
  unfold transact saveAnalysis
  cases hpresent : a.ptp.present with
  | false => exact ⟨_, rfl⟩
  | true =>
    let d₁ : Records := { d with analyses := d.analyses.put call (a.row tenant costPaise) }
    have hptp : d₁.execute (.upsertPtp tenant call a.ptp) = .ok (d₁.upsertPtp tenant call a.ptp) :=
      if_pos (h hpresent)
    refine ⟨d₁.upsertPtp tenant call a.ptp, ?_⟩
    rw [foldlM_cons, if_pos rfl]
    change foldlM execute d₁ [.upsertPtp tenant call a.ptp] = _
    rw [foldlM_cons, hptp]
    rfl

/-! ## What a statement leaves of the flags and the promises -/

namespace Flags

variable {fs : Flags} {k : FlagKey} {row : FlagRow}

theorem mem_update {f : FlagKey → FlagRow → Extraction × Review} :
    (k, row) ∈ (fs.update f).table.rows ↔ ∃ old, (k, old) ∈ fs.table.rows ∧
      row = { old with extraction := (f k old).1, review := (f k old).2 } := by
  constructor
  · intro h
    obtain ⟨⟨j, old⟩, hold, heq⟩ := mem_map.mp h
    obtain ⟨rfl, rfl⟩ := Prod.mk.inj heq
    exact ⟨old, hold, rfl⟩
  rintro ⟨old, hold, rfl⟩
  exact mem_map.mpr ⟨(k, old), hold, rfl⟩

theorem exists_mem_upsert (h : (k, row) ∈ fs.table.rows) (tenant : String) (call : Uuid)
    (version : Int) (f : Finding) :
    ∃ row', (k, row') ∈ (fs.upsert tenant call version f).table.rows ∧ row'.id = row.id ∧
      row'.review = row.review := by
  unfold upsert
  dsimp only
  split
  · exact ⟨_, mem_update.mpr ⟨row, h, rfl⟩, rfl, rfl⟩
  next hnew =>
    have hne : k ≠ (call, f.ruleId, f.tier) :=
      fun heq => hnew (heq ▸ Table.mem_keys.mpr ⟨row, h⟩)
    exact ⟨row, Table.mem_rows_put.mpr (.inr ⟨h, hne⟩), rfl, rfl⟩

theorem mem_upsert {tenant : String} {call : Uuid} {version : Int} {f : Finding}
    (h : (k, row) ∈ (fs.upsert tenant call version f).table.rows) :
    (∃ old, (k, old) ∈ fs.table.rows ∧ row.id = old.id ∧ row.review = old.review) ∨
      row.id = fs.next := by
  unfold upsert at h
  dsimp only at h
  split at h
  · obtain ⟨old, hold, rfl⟩ := mem_update.mp h
    exact .inl ⟨old, hold, rfl, rfl⟩
  rcases Table.mem_rows_put.mp h with heq | ⟨hold, -⟩
  · obtain ⟨-, rfl⟩ := Prod.mk.inj heq
    exact .inr rfl
  · exact .inl ⟨row, hold, rfl, rfl⟩

theorem mem_deleteStale {call : Uuid} {keys : List String} {r : FlagKey × FlagRow} :
    r ∈ (fs.deleteStale call keys).table.rows ↔ r ∈ fs.table.rows ∧
      ¬ (r.1.1 = call ∧ r.2.review.Untouched ∧ flagText r.1.2.1 r.1.2.2 ∉ keys) := by
  rw [deleteStale, filter, Table.rows_filter, mem_filter, decide_eq_true_iff]

end Flags

@[simp] theorem Records.upsertPtp_flags (d : Records) (tenant : String) (call : Uuid)
    (p : PromiseToPay) : (d.upsertPtp tenant call p).flags = d.flags := by
  unfold upsertPtp
  split
  · rfl
  · split <;> rfl

theorem Records.get?_upsertPtp {d : Records} {call call' : Uuid} {row : PtpRow}
    (h : d.ptps.get? call = some row) (hcorrected : row.correction.isSome) (tenant : String)
    (p : PromiseToPay) : (d.upsertPtp tenant call' p).ptps.get? call = some row := by
  unfold upsertPtp
  by_cases hcall : call = call'
  · subst hcall
    rw [h]
    dsimp only
    rwa [if_pos hcorrected]
  split
  · exact (Table.get?_put_ne _ hcall _).trans h
  split
  · exact h
  · exact (Table.get?_put_ne _ hcall _).trans h

end Sentinel.Workers
