import Sentinel.Lib.Runs
import Sentinel.Workers.Persistence

/-!
# What people decide, and re-runs

Reviewers decide on flags, agents respond to them or correct a promise to pay (`handlers.go`,
`store/queries.go`); the workers may run a call again at any time.
-/

open List Table Except

namespace Sentinel.Portal

open Workers Runs

/-! ## Requests -/

structure ApiError where
  status : Nat
  code : String
  message : String
  deriving DecidableEq, Repr

def badRequest (message : String) : ApiError := ⟨400, "bad_request", message⟩

def notFound : ApiError := ⟨404, "not_found", "not found"⟩

structure FlagUpdate where
  status : String := ""
  reviewerUid : String := ""
  note : String := ""
  deriving DecidableEq, Repr

structure Confirmation where
  disposition : String
  ptpPresent : Bool := false
  amountPaise : Option Int := none
  dueDate : Option String := none
  note : String := ""
  deriving DecidableEq, Repr

def orKept (new : String) (old : Option String) : Option String :=
  if new = "" then old else some new

def updated (r : Review) (b : FlagUpdate) (at_ : Int) : Review where
  status := if b.status = "" then r.status else (FlagStatus.ofText? b.status).getD r.status
  reviewerUid := orKept b.reviewerUid r.reviewerUid
  reviewerNote := orKept b.note r.reviewerNote
  agentResponse := r.agentResponse
  resolvedAt := if b.status = "upheld" ∨ b.status = "dismissed" then some at_ else r.resolvedAt

def reviewFlag (fs : Flags) (id : Nat) (f : Review → Review) : Flags :=
  fs.update fun _ row => (row.extraction, if row.id = id then f row.review else row.review)

def HasFlag (fs : Flags) (id : Nat) : Prop := ∃ r ∈ fs.table.rows, r.2.id = id

instance (fs : Flags) (id : Nat) : Decidable (HasFlag fs id) :=
  inferInstanceAs (Decidable (∃ r ∈ _, _))

def updateFlag (d : Records) (id : Nat) (b : FlagUpdate) (at_ : Int) : Except ApiError Records :=
  if b.status ≠ "" ∧ (FlagStatus.ofText? b.status).isNone then
    .error (badRequest "unknown status")
  else if ¬ HasFlag d.flags id then .error notFound
  else .ok { d with
    flags := reviewFlag d.flags id fun r => updated r b at_
    auditLog := d.auditLog ++ [⟨"flag.update", "flag", toString id, [("status", b.status)]⟩] }

def respondToMyFlag (d : Records) (id : Nat) (response : String) : Except ApiError Records :=
  if response = "" then .error (badRequest "a response is required")
  else if response.utf8ByteSize > 2000 then .error (badRequest "response too long")
  else if ¬ HasFlag d.flags id then .error notFound
  else .ok { d with
    flags := reviewFlag d.flags id fun r => { r with agentResponse := some response }
    auditLog := d.auditLog ++ [⟨"flag.agent_response", "flag", toString id, []⟩] }

def correctionWindowHours : Int := 24

def corrected (d : Records) (call : Uuid) (tenant : String) (c : Correction) :
    Table Uuid PtpRow :=
  match d.ptps.get? call with
  | none => d.ptps.put call { tenantId := tenant, correction := some c }
  | some row => d.ptps.put call { row with correction := some c }

def confirmMyCall (parseDate : String → Option Int) (d : Records) (call : Uuid)
    (c : Confirmation) (at_ : Int) : Except ApiError Records :=
  if (Disposition.ofText? c.disposition).isNone then .error (badRequest "unknown disposition")
  else if ∃ amount ∈ c.amountPaise, amount < 0 then
    .error (badRequest "amount must be a non-negative integer number of paise")
  else match d.calls.get? call with
  | none => .error notFound
  | some head =>
    if ∃ ended ∈ head.endedAt, correctionWindowHours * (3600 * 10 ^ 6) < at_ - ended then
      .error ⟨409, "window_closed", "the correction window for this call has closed"⟩
    else match c.dueDate.mapM parseDate with
    | none => .error ⟨500, "internal", "internal error"⟩
    | some due => .ok { d with
        ptps := corrected d call head.tenantId ⟨c.ptpPresent, c.amountPaise, due, at_⟩
        auditLog := d.auditLog ++ [⟨"call.confirm", "call", call,
          [("disposition", c.disposition), ("ptp_present", toString c.ptpPresent)]⟩] }

/-! ## Histories -/

inductive Request where
  | updateFlag (id : Nat) (b : FlagUpdate) (at_ : Int)
  | respondToMyFlag (id : Nat) (response : String)
  | confirmMyCall (call : Uuid) (c : Confirmation) (at_ : Int)

inductive Op where
  | rerun (s : Statement)
  | human (r : Request)

section History

variable (parseDate : String → Option Int)

def serve (d : Records) : Request → Except ApiError Records
  | .updateFlag id b at_ => updateFlag d id b at_
  | .respondToMyFlag id response => respondToMyFlag d id response
  | .confirmMyCall call c at_ => confirmMyCall parseDate d call c at_

def step (d : Records) : Op → Records
  | .rerun s => (d.execute s).toOption.getD d
  | .human r => (serve parseDate d r).toOption.getD d

def Request.Decides (d : Records) (id : Nat) : Request → Prop
  | .updateFlag i b _ => i = id ∧ b.status ≠ "" ∧ (FlagStatus.ofText? b.status).isSome ∧
      HasFlag d.flags id
  | .respondToMyFlag i response => i = id ∧ response ≠ "" ∧ response.utf8ByteSize ≤ 2000 ∧
      HasFlag d.flags id
  | .confirmMyCall _ _ _ => False

def Decided (id : Nat) : Records → List Op → Prop
  | _, [] => False
  | d, op :: ops => (∃ r, op = .human r ∧ r.Decides d id) ∨ Decided id (step parseDate d op) ops

def NotReopened (d : Records) : Op → Prop
  | .human (.updateFlag id b at_) => b.status = "open" →
      ∀ r ∈ d.flags.table.rows, r.2.id = id → ¬ (updated r.2.review b at_).Untouched
  | _ => True

end History

def Engaged (fs : Flags) (id : Nat) : Prop :=
  ∃ k row, (k, row) ∈ fs.table.rows ∧ row.id = id ∧ ¬ row.review.Untouched

section Steps

variable {parseDate : String → Option Int} {d : Records} {id : Nat} {k : FlagKey} {row : FlagRow}

theorem step_upsertPtp (tenant : String) (call : Uuid) (p : PromiseToPay) :
    step parseDate d (.rerun (.upsertPtp tenant call p)) =
      if rangeReads p.evidenceSpanMs then d.upsertPtp tenant call p else d := by
  change (if rangeReads p.evidenceSpanMs then Except.ok (d.upsertPtp tenant call p)
    else .error DbError.rangeBounds).toOption.getD d = _
  split <;> rfl

theorem step_upsertPtp_flags (tenant : String) (call : Uuid) (p : PromiseToPay) :
    (step parseDate d (.rerun (.upsertPtp tenant call p))).flags = d.flags := by
  rw [step_upsertPtp]
  split
  · exact d.upsertPtp_flags tenant call p
  · rfl

variable {i : Nat}

theorem rerun_keeps_engaged (h : (k, row) ∈ d.flags.table.rows) (hengaged : ¬ row.review.Untouched)
    (s : Statement) :
    ∃ row', (k, row') ∈ (step parseDate d (.rerun s)).flags.table.rows ∧ row'.id = row.id ∧
      row'.review = row.review := by
  cases s with
  | upsertFlag tenant call version f => exact Flags.exists_mem_upsert h tenant call version f
  | deleteStaleFlags call keys =>
    exact ⟨row, Flags.mem_deleteStale.mpr ⟨h, fun hstale => hengaged hstale.2.1⟩, rfl, rfl⟩
  | upsertPtp tenant call p =>
    exact ⟨row, by rwa [step_upsertPtp_flags], rfl, rfl⟩
  | _ => exact ⟨row, h, rfl, rfl⟩

theorem rerun_keeps_review {row' : FlagRow} (h : (k, row) ∈ d.flags.table.rows) {s : Statement}
    (h' : (k, row') ∈ (step parseDate d (.rerun s)).flags.table.rows) (hid : row'.id = row.id) :
    row'.review = row.review := by
  have hsame : (k, row') ∈ d.flags.table.rows → row'.review = row.review :=
    fun hmem => by rw [eq_of_mem hmem h]
  cases s with
  | upsertFlag tenant call version f =>
    rcases Flags.mem_upsert h' with ⟨old, hold, -, hreview⟩ | hnew
    · rw [hreview, eq_of_mem hold h]
    · exact absurd (d.flags.fresh _ h) (by rw [← hid, hnew]; exact lt_irrefl _)
  | deleteStaleFlags call keys => exact hsame (Flags.mem_deleteStale.mp h').1
  | upsertPtp tenant call p => exact hsame (by rwa [step_upsertPtp_flags] at h')
  | _ => exact hsame h'

theorem rerun_keeps_correction {call : Uuid} {ptp : PtpRow} (h : d.ptps.get? call = some ptp)
    (hcorrected : ptp.correction.isSome) (s : Statement) :
    (step parseDate d (.rerun s)).ptps.get? call = some ptp := by
  cases s with
  | upsertPtp tenant call' p =>
    rw [step_upsertPtp]
    split
    · exact Records.get?_upsertPtp h hcorrected tenant p
    · exact h
  | deleteUnconfirmedPtp call' =>
    refine get?_eq_some.mpr ?_
    refine mem_filter.mpr ⟨get?_eq_some.mp h, ?_⟩
    have hsome : ptp.correction ≠ none := Option.isSome_iff_ne_none.mp hcorrected
    simp [hsome]
  | _ => exact h

theorem orKept_eq_none {new : String} {old : Option String} (h : orKept new old = none) :
    old = none := by
  unfold orKept at h
  split at h
  · exact h
  · cases h

theorem not_untouched_updated {r : Review} {b : FlagUpdate} {at_ : Int}
    (hopen : b.status = "open" → ¬ (updated r b at_).Untouched)
    (hvalid : b.status = "" ∨ (FlagStatus.ofText? b.status).isSome)
    (hengaged : ¬ r.Untouched ∨ b.status ≠ "") : ¬ (updated r b at_).Untouched := by
  intro huntouched
  have ⟨hstatus, hreviewer, hnote, hresponse⟩ := huntouched
  by_cases hempty : b.status = ""
  · -- The status is kept, and so is whatever else there was.
    refine hengaged.elim (fun h => h ?_) (fun h => h hempty)
    have hstatus' : r.status = .opened := by simpa [updated, hempty] using hstatus
    exact ⟨hstatus', orKept_eq_none hreviewer, orKept_eq_none hnote, hresponse⟩
  obtain ⟨st, hst⟩ := Option.isSome_iff_exists.mp (hvalid.resolve_left hempty)
  have hopened : st = .opened := by
    simpa [updated, hempty, hst] using hstatus
  have htext : st.text = b.status := by simpa using find?_some hst
  exact hopen (by rw [← htext, hopened]; rfl) huntouched

theorem engaged_reviewFlag {fs : Flags} {f : Review → Review} {Decision : Prop}
    (hf : ∀ r ∈ fs.table.rows, r.2.id = i → ¬ r.2.review.Untouched ∨ Decision →
      ¬ (f r.2.review).Untouched) (h : Engaged fs id ∨ (i = id ∧ Decision ∧ HasFlag fs id)) :
    Engaged (reviewFlag fs i f) id := by
  have hrow : ∃ k row, (k, row) ∈ fs.table.rows ∧ row.id = id ∧
      (¬ row.review.Untouched ∨ (i = id ∧ Decision)) := by
    rcases h with ⟨k, row, hmem, hid, hengaged⟩ | ⟨hi, hdec, ⟨k, row⟩, hmem, hid⟩
    · exact ⟨k, row, hmem, hid, .inl hengaged⟩
    · exact ⟨k, row, hmem, hid, .inr ⟨hi, hdec⟩⟩
  obtain ⟨k, row, hmem, hid, hor⟩ := hrow
  refine ⟨k, _, Flags.mem_update.mpr ⟨row, hmem, rfl⟩, hid, ?_⟩
  by_cases hi : row.id = i
  · rw [if_pos hi]
    exact hf _ hmem hi (hor.imp_right And.right)
  rw [if_neg hi]
  exact hor.resolve_right fun hdec => hi (hid.trans hdec.1.symm)

theorem engaged_updateFlag {b : FlagUpdate} {at_ : Int}
    (hno : NotReopened d (.human (.updateFlag i b at_)))
    (h : Engaged d.flags id ∨ (Request.updateFlag i b at_).Decides d id) :
    Engaged ((updateFlag d i b at_).toOption.getD d).flags id := by
  unfold updateFlag
  by_cases hbad : b.status ≠ "" ∧ (FlagStatus.ofText? b.status).isNone
  · rw [if_pos hbad]
    refine h.resolve_right fun hdec => ?_
    have hsome := hdec.2.2.1
    rw [Option.isNone_iff_eq_none.mp hbad.2] at hsome
    cases hsome
  rw [if_neg hbad]
  by_cases hhas : HasFlag d.flags i
  · rw [if_neg (not_not.mpr hhas)]
    have hvalid : b.status = "" ∨ (FlagStatus.ofText? b.status).isSome := by
      rw [not_and_or, not_not] at hbad
      exact hbad.imp_right fun hn => Option.isSome_iff_ne_none.mpr (by simpa using hn)
    refine engaged_reviewFlag (fun r hr hi hor => ?_)
      (h.imp_right fun hdec => ⟨hdec.1, hdec.2.1, hdec.2.2.2⟩)
    exact not_untouched_updated (fun hopen => hno hopen r hr hi) hvalid hor
  rw [if_pos hhas]
  exact h.resolve_right fun hdec => hhas (hdec.1 ▸ hdec.2.2.2)

theorem engaged_respondToMyFlag {response : String}
    (h : Engaged d.flags id ∨ (Request.respondToMyFlag i response).Decides d id) :
    Engaged ((respondToMyFlag d i response).toOption.getD d).flags id := by
  unfold respondToMyFlag
  by_cases hempty : response = ""
  · rw [if_pos hempty]
    exact h.resolve_right fun hdec => hdec.2.1 hempty
  rw [if_neg hempty]
  by_cases hlong : response.utf8ByteSize > 2000
  · rw [if_pos hlong]
    exact h.resolve_right fun hdec => absurd hdec.2.2.1 (not_le.mpr hlong)
  rw [if_neg hlong]
  by_cases hhas : HasFlag d.flags i
  · rw [if_neg (not_not.mpr hhas)]
    refine engaged_reviewFlag (fun r _ _ _ huntouched => Option.some_ne_none _ huntouched.2.2.2)
      (h.imp_right fun hdec => ⟨hdec.1, hdec.2.1, hdec.2.2.2⟩)
  rw [if_pos hhas]
  exact h.resolve_right fun hdec => hhas (hdec.1 ▸ hdec.2.2.2)

theorem confirmMyCall_flags (call : Uuid) (c : Confirmation) (at_ : Int) :
    ((confirmMyCall parseDate d call c at_).toOption.getD d).flags = d.flags := by
  unfold confirmMyCall
  split
  · rfl
  split
  · rfl
  split
  · rfl
  split
  · rfl
  · split <;> rfl

theorem engaged_serve {r : Request} (hno : NotReopened d (.human r))
    (h : Engaged d.flags id ∨ r.Decides d id) : Engaged (step parseDate d (.human r)).flags id := by
  cases r with
  | updateFlag i b at_ => exact engaged_updateFlag hno h
  | respondToMyFlag i response => exact engaged_respondToMyFlag h
  | confirmMyCall call c at_ =>
    change Engaged ((confirmMyCall parseDate d call c at_).toOption.getD d).flags id
    rw [confirmMyCall_flags]
    exact h.resolve_right not_false

theorem engaged_step {op : Op} (hno : NotReopened d op)
    (h : Engaged d.flags id ∨ ∃ r, op = .human r ∧ r.Decides d id) :
    Engaged (step parseDate d op).flags id := by
  cases op with
  | human r =>
    refine engaged_serve hno (h.imp_right ?_)
    rintro ⟨r', heq, hdec⟩
    obtain rfl : r = r' := Op.human.inj heq
    exact hdec
  | rerun s =>
    obtain ⟨k, row, hmem, hid, hengaged⟩ := h.resolve_right fun ⟨_, heq, _⟩ => by cases heq
    obtain ⟨row', hmem', hid', hreview⟩ := rerun_keeps_engaged hmem hengaged s
    exact ⟨k, row', hmem', hid'.trans hid, hreview ▸ hengaged⟩

theorem engaged_run {ops : List Op} (hno : Along (step parseDate) NotReopened d ops)
    (h : Engaged d.flags id ∨ Decided parseDate id d ops) :
    Engaged (run (step parseDate) d ops).flags id := by
  induction ops generalizing d with
  | nil => exact h.resolve_right not_false
  | cons op ops ih =>
    refine ih hno.2 ?_
    rcases h with hengaged | hdec | hlater
    · exact .inl (engaged_step hno.1 (.inl hengaged))
    · exact .inl (engaged_step hno.1 (.inr hdec))
    · exact .inr hlater

end Steps

/-- **Human decisions survive re-runs.** -/
theorem human_decisions_survive (parseDate : String → Option Int) (d : Records) (ops : List Op)
    (hno : Along (step parseDate) NotReopened d ops) (s : Statement) :
    (∀ id, Decided parseDate id d ops → ∃ k row row',
      (k, row) ∈ (run (step parseDate) d ops).flags.table.rows ∧ row.id = id ∧
      (k, row') ∈ (step parseDate (run (step parseDate) d ops) (.rerun s)).flags.table.rows ∧
      row'.id = id ∧ row'.review = row.review) ∧
    (∀ k row row', (k, row) ∈ (run (step parseDate) d ops).flags.table.rows →
      (k, row') ∈ (step parseDate (run (step parseDate) d ops) (.rerun s)).flags.table.rows →
      row'.id = row.id → row'.review = row.review) ∧
    ∀ call ptp, (run (step parseDate) d ops).ptps.get? call = some ptp →
      ptp.correction.isSome →
      (step parseDate (run (step parseDate) d ops) (.rerun s)).ptps.get? call = some ptp := by
  refine ⟨fun id hdec => ?_, fun k row row' h h' hid => rerun_keeps_review h h' hid,
    fun call ptp h hcorrected => rerun_keeps_correction h hcorrected s⟩
  obtain ⟨k, row, hmem, hid, hengaged⟩ := engaged_run hno (.inr hdec)
  obtain ⟨row', hmem', hid', hreview⟩ := rerun_keeps_engaged hmem hengaged s
  exact ⟨k, row, row', hmem, hid, hmem', hid'.trans hid, hreview⟩

/-! ## A flag, dismissed and reopened -/

def oneFlag : Records where
  flags :=
    { table := ⟨[(("c1", "abusive_language", 1),
        { id := 0, tenantId := "t1", extraction := { ruleSetVersion := 1, severity := .high } })],
        by decide⟩
      next := 1
      fresh := by decide }

def noDates : String → Option Int := fun _ => none

/-- A reviewer dismisses the flag with a note, and a re-run no longer finds it. -/
theorem dismissed_survives :
    ∃ k row row', (k, row) ∈ (run (step noDates) oneFlag
        [.human (.updateFlag 0 { status := "dismissed", note := "quoting the borrower" } 5)]
        ).flags.table.rows ∧ row.id = 0 ∧
      (k, row') ∈ (step noDates (run (step noDates) oneFlag
        [.human (.updateFlag 0 { status := "dismissed", note := "quoting the borrower" } 5)])
        (.rerun (.deleteStaleFlags "c1" []))).flags.table.rows ∧
      row'.id = 0 ∧ row'.review = row.review :=
  (human_decisions_survive noDates oneFlag
    [.human (.updateFlag 0 { status := "dismissed", note := "quoting the borrower" } 5)]
    ⟨fun hopen => by simp at hopen, trivial⟩ (.deleteStaleFlags "c1" [])).1 0
    (.inl ⟨_, rfl, rfl, by decide, by decide, _, List.mem_cons_self, rfl⟩)

/-- A reviewer dismisses the flag and sets it back to `open`; a re-run that does not find it again
deletes it. -/
theorem reopened_is_deleted :
    Decided noDates 0 oneFlag [.human (.updateFlag 0 { status := "dismissed" } 5),
        .human (.updateFlag 0 { status := "open" } 6)] ∧
      HasFlag (run (step noDates) oneFlag [.human (.updateFlag 0 { status := "dismissed" } 5),
        .human (.updateFlag 0 { status := "open" } 6)]).flags 0 ∧
      ¬ HasFlag (step noDates (run (step noDates) oneFlag
        [.human (.updateFlag 0 { status := "dismissed" } 5),
        .human (.updateFlag 0 { status := "open" } 6)])
        (.rerun (.deleteStaleFlags "c1" []))).flags 0 := by
  refine ⟨.inl ⟨_, rfl, rfl, by decide, by decide, _, List.mem_cons_self, rfl⟩, ?_, ?_⟩
  · decide +kernel
  · decide +kernel

/-! ## The analysis and the agent -/

section Commute

variable {parseDate : String → Option Int} {d d' : Records} {call : Uuid} {tenant : String}
  {a : Analysis} {costPaise : Int} {c : Confirmation} {at_ : Int}

def extractedColumns (e : PtpExtraction) :
    Option Int × Option Int × JsonNum × Option (Int × Int) :=
  (e.amountPaise, e.dueDate, e.confidence.toFloat, e.extractedSpan)

def ptpColumns (row : PtpRow) :=
  (row.tenantId, extractedColumns row.extraction, row.correction)

def extracted (tenant : String) (p : PromiseToPay) : Option PtpRow → PtpRow
  | none => { tenantId := tenant, extraction := p.extraction }
  | some row => if row.correction.isSome then row else { row with extraction := p.extraction }

theorem toOption_eq_some {ε α : Type} {x : Except ε α} {y : α} :
    x.toOption = some y ↔ x = .ok y := by
  cases x <;> simp [Except.toOption]

theorem get?_of_saveAnalysis (h : d.transact (saveAnalysis tenant call a costPaise) = .ok d')
    (hpresent : a.ptp.present = true) :
    d'.ptps.get? call = some (extracted tenant a.ptp (d.ptps.get? call)) ∧ d'.calls = d.calls := by
  let d₀ : Records := { d with analyses := d.analyses.put call (a.row tenant costPaise) }
  have hexec : d.transact (saveAnalysis tenant call a costPaise) =
      d₀.execute (.upsertPtp tenant call a.ptp) := by
    simp only [saveAnalysis, hpresent, if_true]
    exact bind_pure (d₀.execute (.upsertPtp tenant call a.ptp))
  rw [hexec, Records.execute] at h
  split at h
  · obtain rfl := ok.inj h
    have hget : d₀.ptps.get? call = d.ptps.get? call := rfl
    unfold Records.upsertPtp extracted
    rw [hget]
    cases hrow : d.ptps.get? call with
    | none => exact ⟨get?_put_self _ _ _, rfl⟩
    | some row =>
      dsimp only
      split
      · exact ⟨hrow, rfl⟩
      · exact ⟨get?_put_self _ _ _, rfl⟩
  · cases h

theorem get?_of_confirmMyCall (h : confirmMyCall parseDate d call c at_ = .ok d') :
    ∃ head due, d.calls.get? call = some head ∧ c.dueDate.mapM parseDate = some due ∧
      d'.calls = d.calls ∧ d'.ptps.get? call =
        some { (d.ptps.get? call).getD { tenantId := head.tenantId } with
          correction := some ⟨c.ptpPresent, c.amountPaise, due, at_⟩ } := by
  unfold confirmMyCall at h
  split at h
  · cases h
  split at h
  · cases h
  split at h
  · cases h
  next head hhead =>
    split at h
    · cases h
    split at h
    · cases h
    next due hdue =>
      obtain rfl := ok.inj h
      refine ⟨head, due, hhead, hdue, rfl, ?_⟩
      unfold corrected
      cases d.ptps.get? call with
      | none | some => exact get?_put_self _ _ _

def bothOrders (parseDate : String → Option Int) (d : Records) (tenant : String) (call : Uuid)
    (a : Analysis) (costPaise : Int) (c : Confirmation) (at_ : Int) : Option (PtpRow × PtpRow) := do
  let d₁ ← (d.transact (saveAnalysis tenant call a costPaise)).toOption
  let d₂ ← (confirmMyCall parseDate d₁ call c at_).toOption
  let e₁ ← (confirmMyCall parseDate d call c at_).toOption
  let e₂ ← (e₁.transact (saveAnalysis tenant call a costPaise)).toOption
  let row ← d₂.ptps.get? call
  let row' ← e₂.ptps.get? call
  some (row, row')

/-- **Extraction and correction commute** -/
theorem extraction_correction_commute_iff {row row' : PtpRow}
    (h : bothOrders parseDate d tenant call a costPaise c at_ = some (row, row'))
    (hpresent : a.ptp.present = true) {head : CallHead} (hhead : d.calls.get? call = some head)
    {due : Option Int} (hdue : c.dueDate.mapM parseDate = some due) :
    (ptpColumns row = ptpColumns row' ∧
      extractedColumns row'.extraction = extractedColumns a.ptp.extraction ∧
      row'.correction = some ⟨c.ptpPresent, c.amountPaise, due, at_⟩) ↔
    extractedColumns ((d.ptps.get? call).elim {} (·.extraction)) =
        extractedColumns a.ptp.extraction ∧
      (d.ptps.get? call = none → head.tenantId = tenant) := by
  simp only [bothOrders, Option.bind_eq_bind, Option.bind_eq_some_iff, toOption_eq_some,
    Option.some.injEq, Prod.mk.injEq] at h
  obtain ⟨d₁, hsaved, d₂, hconfirmed, e₁, hconfirmed', e₂, hsaved', _, hrow, _, hrow', rfl, rfl⟩ :=
    h
  obtain ⟨hrow₁, hcalls⟩ := get?_of_saveAnalysis hsaved hpresent
  obtain ⟨head₂, due₂, hhead₂, hdue₂, -, hrow₂⟩ := get?_of_confirmMyCall hconfirmed
  obtain ⟨head₁, due₁, hhead₁, hdue₁, -, hcorr⟩ := get?_of_confirmMyCall hconfirmed'
  obtain ⟨hfinal, -⟩ := get?_of_saveAnalysis hsaved' hpresent
  obtain rfl := Option.some.inj (hdue.symm.trans hdue₁)
  obtain rfl := Option.some.inj (hdue.symm.trans hdue₂)
  obtain rfl := Option.some.inj (hhead.symm.trans hhead₁)
  rw [hrow₁] at hrow₂
  rw [hcorr] at hfinal
  obtain rfl := Option.some.inj (hrow₂.symm.trans hrow)
  obtain rfl := Option.some.inj (hfinal.symm.trans hrow')
  cases hold : d.ptps.get? call with
  | none => simp [extracted, ptpColumns, eq_comm, and_comm]
  | some old => cases hc : old.correction.isSome <;> simp [extracted, ptpColumns, hc, eq_comm]

end Commute

def promised : Analysis where
  summary := "The borrower promised to pay."
  disposition := .ptp
  ptp := ⟨true, some 1500000, some 20000, .float (9 / 10), some (4000, 9000)⟩
  sentiment := .null
  talkRatio := .float (1 / 2)
  interruptions := 0

def endedCall (ptps : Table Uuid PtpRow) : Records :=
  { calls := ⟨[("c1", { tenantId := "t1", status := "complete" })], by decide⟩, ptps }

def agreed : Confirmation :=
  { disposition := "ptp", ptpPresent := true, amountPaise := some 1200000 }

def extractedCall : Records :=
  endedCall ⟨[("c1", { tenantId := "t1", extraction := promised.ptp.extraction })], by decide⟩

theorem extracted_before_commutes :
    ∃ row row', bothOrders noDates extractedCall "t1" "c1" promised 3 agreed 7 = some (row, row') ∧
      ptpColumns row = ptpColumns row' :=
  ⟨⟨"t1", promised.ptp.extraction, some ⟨true, some 1200000, none, 7⟩⟩,
    ⟨"t1", promised.ptp.extraction, some ⟨true, some 1200000, none, 7⟩⟩, by decide +kernel,
    ((extraction_correction_commute_iff (by decide +kernel :
      bothOrders noDates extractedCall "t1" "c1" promised 3 agreed 7 = some _) rfl rfl rfl).mpr
      ⟨rfl, nofun⟩).1⟩

/-- **The agent is first.** -/
theorem confirmation_first_loses_extraction :
    bothOrders noDates (endedCall ∅) "t1" "c1" promised 3 agreed 7 = some
      (⟨"t1", promised.ptp.extraction, some ⟨true, some 1200000, none, 7⟩⟩,
        ⟨"t1", {}, some ⟨true, some 1200000, none, 7⟩⟩) := by
  decide +kernel

/-! ## When a flag was resolved -/

section Resolution

def Resolves (st : FlagStatus) : Prop := st = .upheld ∨ st = .dismissed

instance (st : FlagStatus) : Decidable (Resolves st) := inferInstanceAs (Decidable (_ ∨ _))

def updateAll (d : Records) (id : Nat) (us : List (FlagUpdate × Int)) : Except ApiError Records :=
  us.foldlM (fun d u => updateFlag d id u.1 u.2) d

def named (us : List (FlagUpdate × Int)) : List FlagStatus :=
  us.filterMap fun u => FlagStatus.ofText? u.1.status

variable {d d' : Records} {id : Nat} {us : List (FlagUpdate × Int)}

theorem updated_status (r : Review) (b : FlagUpdate) (at_ : Int) :
    (updated r b at_).status = (FlagStatus.ofText? b.status).getD r.status := by
  rw [updated]
  split
  · rename_i hempty
    rw [hempty, show FlagStatus.ofText? "" = none by decide]
    rfl
  · rfl

theorem isSome_updated_resolvedAt (r : Review) (b : FlagUpdate) (at_ : Int) :
    (updated r b at_).resolvedAt.isSome ↔
      r.resolvedAt.isSome ∨ ∃ st ∈ FlagStatus.ofText? b.status, Resolves st := by
  have htext : (b.status = "upheld" ∨ b.status = "dismissed") ↔
      ∃ st ∈ FlagStatus.ofText? b.status, Resolves st := by
    constructor
    · rintro (h | h) <;> rw [h]
      · exact ⟨.upheld, by decide, .inl rfl⟩
      · exact ⟨.dismissed, by decide, .inr rfl⟩
    rintro ⟨st, hst, hres⟩
    have hst : st.text = b.status := by simpa using find?_some hst
    exact hres.imp (fun h => by rw [← hst, h]; rfl) fun h => by rw [← hst, h]; rfl
  rw [← htext, updated]
  dsimp only
  split
  · rename_i hres
    simp [hres]
  rename_i hres
  simp [hres]

theorem review_of_updateFlag {b : FlagUpdate} {at_ : Int} (h : updateFlag d id b at_ = .ok d') :
    d'.flags = reviewFlag d.flags id fun r => updated r b at_ := by
  unfold updateFlag at h
  split at h
  · cases h
  split at h
  · cases h
  · exact (congrArg Records.flags (ok.inj h)).symm

theorem columns_updateAll (h : updateAll d id us = .ok d') {k : FlagKey} {row' : FlagRow}
    (hrow' : (k, row') ∈ d'.flags.table.rows) (hid : row'.id = id) :
    ∃ row, (k, row) ∈ d.flags.table.rows ∧ row.id = id ∧
      row'.review.status = (named us).getLast?.getD row.review.status ∧
      (row'.review.resolvedAt.isSome ↔
        row.review.resolvedAt.isSome ∨ ∃ st ∈ named us, Resolves st) := by
  induction us generalizing d with
  | nil =>
    obtain rfl : d = d' := ok.inj h
    exact ⟨row', hrow', hid, rfl, by simp [named]⟩
  | cons u us ih =>
    rw [updateAll, foldlM_cons] at h
    cases hu : updateFlag d id u.1 u.2 with
    | error e =>
      rw [hu] at h
      cases h
    | ok d₁ =>
      rw [hu] at h
      obtain ⟨row₁, hrow₁, hid₁, hstatus, hresolved⟩ := ih h
      rw [review_of_updateFlag hu] at hrow₁
      obtain ⟨row, hrow, rfl⟩ := Flags.mem_update.mp hrow₁
      rw [hstatus, hresolved, if_pos hid₁, updated_status, isSome_updated_resolvedAt]
      have hnamed : named (u :: us) = (FlagStatus.ofText? u.1.status).toList ++ named us := by
        cases hst : FlagStatus.ofText? u.1.status <;> simp [named, hst]
      refine ⟨row, hrow, hid₁, ?_, ?_⟩ <;> rw [hnamed]
      · cases FlagStatus.ofText? u.1.status <;> cases hlast : (named us).getLast? <;>
          simp [hlast, getLast?_cons]
      · simp [or_assoc, or_and_right, exists_or]

/-- **When the resolution time is right.** -/
theorem resolvedAt_matches_iff (h : updateAll d id us = .ok d')
    (hfresh : ∀ r ∈ d.flags.table.rows, r.2.id = id → r.2.review = {}) {k : FlagKey} {row : FlagRow}
    (hrow : (k, row) ∈ d'.flags.table.rows) (hid : row.id = id) :
    (row.review.resolvedAt.isSome ↔ Resolves row.review.status) ↔
      ((∃ st ∈ named us, Resolves st) → ∃ st ∈ (named us).getLast?, Resolves st) := by
  obtain ⟨row₀, hrow₀, hid₀, hstatus, hresolved⟩ := columns_updateAll h hrow hid
  rw [hfresh _ hrow₀ hid₀] at hstatus hresolved
  rw [hstatus, hresolved]
  cases hlast : (named us).getLast? with
  | none =>
    have hnone : named us = [] := List.getLast?_eq_none_iff.mp hlast
    simp [hnone, Resolves]
  | some st =>
    have hmem : st ∈ named us := List.mem_of_getLast? hlast
    simp only [Option.isSome_none, Bool.false_eq_true, false_or, Option.getD_some,
      Option.mem_some_iff, exists_eq_left']
    exact ⟨fun hiff hres => hiff.mp hres, fun himp => ⟨himp, fun hres => ⟨st, hmem, hres⟩⟩⟩

theorem resolvedAt_of_upheld :
    ∃ row, (("c1", "abusive_language", 1), row) ∈ (reviewFlag oneFlag.flags 0 fun r =>
        updated (updated r { status := "upheld" } 5) { note := "heard twice" } 6).table.rows ∧
      (row.review.resolvedAt.isSome ↔ Resolves row.review.status) :=
  ⟨_, List.mem_cons_self, (@resolvedAt_matches_iff oneFlag _ 0
    [({ status := "upheld" }, 5), ({ note := "heard twice" }, 6)] rfl (by decide) _ _
    List.mem_cons_self rfl).mpr fun _ => ⟨.upheld, by decide, .inl rfl⟩⟩

/-- A flag is dismissed and set back to `open`, and keeps its resolution time. -/
theorem reopened_keeps_resolvedAt :
    ∃ d row, updateAll oneFlag 0 [({ status := "dismissed" }, 5), ({ status := "open" }, 6)] =
        .ok d ∧ d.flags.table.rows = [(("c1", "abusive_language", 1), row)] ∧
      row.review.status = .opened ∧ row.review.resolvedAt = some 5 :=
  ⟨_, _, rfl, rfl, rfl, rfl⟩

end Resolution

end Sentinel.Portal
