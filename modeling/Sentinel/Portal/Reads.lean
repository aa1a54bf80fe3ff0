import Sentinel.Portal.Store

/-!
# Who read what

An operation that hands out what was said in a call writes an entry of the audit log in the same
transaction. `ListCalls` ignores the error of its entry; it may, because the commit then fails too.
-/

open List Option Except

namespace Sentinel.Portal

open Workers Faults

/-! ## Texts, and the entries that account for them -/

structure Excerpt where
  call : Uuid
  flag : Option Nat := none
  text : String
  deriving DecidableEq, Repr

def CallSummary.excerpts (c : CallSummary) : List Excerpt :=
  (c.accountRef.toList ++ c.summary.toList).map fun text => { call := c.id, text }

def Flag.excerpts (f : Flag) : List Excerpt :=
  (f.evidenceText.toList ++ f.judgeRationale.toList).map fun text =>
    { call := f.callId, flag := some f.id, text }

def CallDetail.excerpts (d : CallDetail) : List Excerpt :=
  d.summary.excerpts ++
    (d.transcript.map (·.text) ++ d.nextAction.toList).map
      (fun text => { call := d.summary.id, text }) ++
    d.flags.flatMap Flag.excerpts

def AuditDetail.callIds : AuditDetail → List Uuid
  | .calls _ callIds _ _ _ _ => callIds
  | _ => []

def AuditEntry.Names (dialect : Dialect) (e : AuditEntry) (x : Excerpt) : Prop :=
  (e.entity = "call" ∧ (e.entityId.bind dialect.uuid = some x.call ∨ x.call ∈ e.detail.callIds)) ∨
    (e.entity = "flag" ∧ ∃ i ∈ x.flag, e.entityId.bind dialect.flagId = some i)

instance (dialect : Dialect) (e : AuditEntry) (x : Excerpt) : Decidable (e.Names dialect x) :=
  inferInstanceAs (Decidable (_ ∨ _))

def Traced (dialect : Dialect) (caller : Identity) (db db' : Database) (xs : List Excerpt) : Prop :=
  ∀ x ∈ xs, ∃ e ∈ db'.auditLog.drop db.auditLog.length,
    e.tenantId = caller.tenantId ∧ e.actorUid = caller.userUid ∧ e.Names dialect x

instance (dialect : Dialect) (caller : Identity) (db db' : Database) (xs : List Excerpt) :
    Decidable (Traced dialect caller db db' xs) :=
  inferInstanceAs (Decidable (∀ _ ∈ _, _))

inductive Operation where
  | listCalls (f : CallFilter)
  | getCall (callId : String)
  | listFlags (f : FlagFilter)
  | updateFlag (flagId : String) (b : FlagUpdate) (at_ : Int)
  | respondToFlag (flagId response : String)
  | liveCalls (teamId : String) (now : Int)
  | queueEvidenceExport (jobId : String) (flagIds : List String) (includeAudio : Bool)

namespace Operation

section

variable (dialect : Dialect) (w : Weather) (caller : Identity) (db : Database)

def run : Operation → List Excerpt × Database
  | .listCalls f =>
    let r := Store.listCalls dialect w caller db f
    (r.value.1.flatMap CallSummary.excerpts, r.db)
  | .getCall callId =>
    let r := Store.getCall dialect w caller db callId
    (r.value.toList.flatMap CallDetail.excerpts, r.db)
  | .listFlags f =>
    let r := Store.listFlags w caller db f
    (r.value.flatMap Flag.excerpts, r.db)
  | .updateFlag flagId b at_ =>
    let r := Store.updateFlag dialect w caller db flagId b at_
    (r.value.toList.flatMap Flag.excerpts, r.db)
  | .respondToFlag flagId response =>
    let r := Store.respondToFlag dialect w caller db flagId response
    (r.value.toList.flatMap Flag.excerpts, r.db)
  -- No column of these holds a text from a call.
  | .liveCalls teamId now => ([], (Store.liveCalls dialect w caller db teamId now).db)
  | .queueEvidenceExport jobId flagIds includeAudio =>
    ([], (Store.queueEvidenceExport dialect w caller db jobId flagIds includeAudio).db)

def ReadsFlagText : Operation → Prop
  | .listFlags f => caller.tenantId ≠ "" ∧ ∃ n flag, (db.flagPage caller f)[n]? = some flag ∧
      w.budget.Covers (n + 4) ∧ flag.excerpts ≠ []
  | _ => False

end

end Operation

/-! ## Transactions that commit -/

variable {ρ α : Type}

section Committed

variable {dialect : Dialect} {w : Weather} {caller : Identity} {db : Database} {out : ρ}
  {fn : Tx ρ α}

theorem exec_statement_eq_ok {f : Database → Database} {s s' : Faulty (Session ρ)}
    (h : exec (statement f) s = (.ok (), s')) : s'.state = { s.state with db := f s.state.db } := by
  obtain ⟨-, rfl⟩ := exec_call_eq_ok h
  rfl

theorem asIdentity_eq_ok {a : α} (h : (asIdentity caller w db out fn).result = .ok a) :
    ∃ b s, exec fn ⟨⟨db, out⟩, b⟩ = (.ok a, s) ∧ s.budget ≠ some 0 ∧
      (asIdentity caller w db out fn).out = s.state.out ∧
      (asIdentity caller w db out fn).db = s.state.db := by
  unfold asIdentity at h ⊢
  split at h
  · cases h
  rename_i hid
  rw [if_neg hid]
  dsimp only at h ⊢
  split at h
  · rename_i a' s hrun
    obtain ⟨⟨⟩, s₁, hbegin, hrest⟩ := exec_bind_eq_ok hrun
    obtain ⟨⟨⟩, s₂, hset, hrest⟩ := exec_bind_eq_ok hrest
    obtain ⟨a₁, s₃, hfn, hrest⟩ := exec_bind_eq_ok hrest
    obtain ⟨⟨⟩, s₄, hcommit, hrest⟩ := exec_bind_eq_ok hrest
    have hstart : s₂.state = ⟨db, out⟩ := by
      rw [exec_statement_eq_ok hset, exec_statement_eq_ok hbegin]
      rfl
    have hend : s₄.state = s₃.state := exec_statement_eq_ok hcommit
    obtain ⟨hleft, -⟩ := exec_call_eq_ok hcommit
    obtain ⟨hreturn, rfl⟩ := Prod.mk.inj hrest
    obtain rfl := ok.inj hreturn
    refine ⟨s₂.budget, s₃, ?_, hleft, by rw [hend], by rw [hend]⟩
    rw [← hstart]
    split at h
    · cases h
    · rwa [← ok.inj h]
  · cases h

def entryOf (caller : Identity) (action entity entityId : String) (detail : AuditDetail) :
    AuditEntry :=
  ⟨caller.tenantId, caller.userUid, action, entity, if entityId = "" then none else some entityId,
    detail⟩

variable {db' : Database}

variable {xs : List Excerpt}

theorem traced_of_entry {action entity entityId : String} {detail : AuditDetail}
    (hlog : db'.auditLog = db.auditLog ++ [entryOf caller action entity entityId detail])
    (hnames : ∀ x ∈ xs, (entryOf caller action entity entityId detail).Names dialect x) :
    Traced dialect caller db db' xs := by
  intro x hx
  refine ⟨_, ?_, rfl, rfl, hnames x hx⟩
  rw [hlog, drop_left]
  exact mem_singleton_self _

theorem traced_nil : Traced dialect caller db db' [] :=
  forall_mem_nil _

theorem traced_iff_of_log (h : db'.auditLog = db.auditLog) :
    Traced dialect caller db db' xs ↔ xs = [] := by
  constructor
  · intro htraced
    cases xs with
    | nil => rfl
    | cons x xs =>
      obtain ⟨e, he, -⟩ := htraced x mem_cons_self
      rw [h, drop_length] at he
      exact absurd he not_mem_nil
  rintro rfl
  exact traced_nil

end Committed

/-! ## Reading rows -/

theorem statement_performs : Performs (statement : Tx ρ Unit) [id] () := Performs.call _ id

theorem scanInto_performs (rows : List α) :
    Performs (scanInto rows) (id :: rows.map Session.append) () :=
  statement_performs.bind (Performs.forM _ _ rows)

theorem fetch_performs (rows : List α) :
    Performs (fetch rows : Tx ρ (List α)) (id :: rows.map fun _ => id) rows := by
  have h : Performs (fetch rows : Tx ρ (List α)) ([id] ++ ((rows.map fun _ => id) ++ [])) rows :=
    statement_performs.bind ((Performs.forM _ (fun _ => id) rows).bind (Performs.pure rows))
  rwa [append_nil] at h

theorem applyAll_append_rows (rows : List α) (s : Session (List α)) :
    applyAll (rows.map Session.append) s = { s with out := s.out ++ rows } := by
  induction rows generalizing s with
  | nil => simp
  | cons row rows ih =>
    rw [map_cons, applyAll_cons, ih, Session.append, append_assoc, singleton_append]

theorem exec_fetch_eq_ok {rows found : List α} {s s' : Faulty (Session ρ)}
    (h : exec (fetch rows) s = (.ok found, s')) : found = rows ∧ s'.state = s.state := by
  obtain ⟨hfound, rfl⟩ := (fetch_performs rows).eq_of_ok h
  have hkeeps : ∀ f ∈ id :: rows.map fun _ => (id : Session ρ → Session ρ),
      ∀ t, id (f t) = id t := by simp
  exact ⟨hfound, applyAll_keeps hkeeps s.state⟩

/-! ## Each operation -/

namespace Store

variable {dialect : Dialect} {w : Weather} {caller : Identity} {db : Database}

theorem CallFilter.limit_le (f : CallFilter) : f.limit ≤ maxIds := by
  unfold CallFilter.limit maxIds
  split
  · decide
  · split <;> omega

variable {x : Excerpt} {f : CallFilter} {t : Faulty (Session (List CallSummary))}

theorem call_of_mem_excerpts {c : CallSummary} (h : x ∈ c.excerpts) : x.call = c.id := by
  obtain ⟨text, -, rfl⟩ := mem_map.mp h
  rfl

theorem of_mem_flag_excerpts {f : Flag} (h : x ∈ f.excerpts) :
    x.call = f.callId ∧ x.flag = some f.id := by
  obtain ⟨text, -, rfl⟩ := mem_map.mp h
  exact ⟨rfl, rfl⟩

theorem exec_auditList_of_ne_nil (hne : t.state.out ≠ []) :
    exec (auditList caller f) t = exec (auditTx caller "call.list" "call" "" <|
      .calls t.state.out.length ((t.state.out.take maxIds).map (·.id)) (f.search ≠ "")
        f.userUid f.teamId f.hasFlags) t := by
  change exec (if t.state.out = [] then _ else _) t = _
  rw [if_neg hne]

theorem auditList_writes
    (hne : t.state.out ≠ []) (h : (exec (auditList caller f) t).2.budget ≠ some 0) :
    (exec (auditList caller f) t).2.state = { t.state with
      db := { t.state.db with auditLog := t.state.db.auditLog ++
        [entryOf caller "call.list" "call" ""
          (.calls t.state.out.length ((t.state.out.take maxIds).map (·.id)) (f.search ≠ "")
            f.userUid f.teamId f.hasFlags)] } } := by
  rw [exec_auditList_of_ne_nil hne] at h ⊢
  obtain ⟨state, _ | _ | k⟩ := t
  · rfl
  · exact absurd rfl h
  · rfl

theorem exec_auditList_of_nil
    (hnil : t.state.out = []) : exec (auditList caller f) t = (.ok (), t) := by
  change exec (if t.state.out = [] then _ else _) t = _
  rw [if_pos hnil]
  rfl

theorem listCalls_traced (f : CallFilter) :
    Traced dialect caller db (listCalls dialect w caller db f).db
      ((listCalls dialect w caller db f).value.1.flatMap CallSummary.excerpts) := by
  unfold listCalls
  dsimp only
  split
  · exact traced_nil
  rename_i hok
  obtain ⟨b, s, hrun, hleft, hout, hdb⟩ := asIdentity_eq_ok hok
  rw [hout, hdb]
  rw [listCallsTx, exec_deferring] at hrun
  obtain ⟨hbody, rfl⟩ := Prod.mk.inj hrun
  -- The page is complete when the deferred entry is written.
  obtain ⟨t, ht⟩ : ∃ t, exec (do
      let team ← ofExcept (nullUuid dialect f.teamId)
      scanInto (db.callPage dialect caller f team)) ⟨⟨db, []⟩, b⟩ = (.ok (), t) :=
    ⟨_, Prod.ext hbody rfl⟩
  rw [ht] at hleft ⊢
  obtain ⟨team, t₀, hteam, hscan⟩ := exec_bind_eq_ok ht
  rw [exec_ofExcept] at hteam
  obtain ⟨-, rfl⟩ := Prod.mk.inj hteam
  obtain ⟨-, htstate⟩ := (scanInto_performs _).eq_of_ok hscan
  have hstate : t.state = ⟨db, db.callPage dialect caller f team⟩ := by
    rw [htstate, applyAll_cons, applyAll_append_rows]
    rfl
  by_cases hempty : t.state.out = []
  · rw [exec_auditList_of_nil hempty, hempty]
    exact traced_nil
  have hlength : (db.callPage dialect caller f team).length ≤ maxIds := by
    refine Nat.le_trans ?_ (CallFilter.limit_le f)
    rw [Database.callPage, length_map]
    exact length_take_le _ _
  rw [auditList_writes hempty hleft, hstate]
  refine traced_of_entry rfl fun x hx => .inl ⟨rfl, .inr ?_⟩
  obtain ⟨c, hc, hxc⟩ := mem_flatMap.mp hx
  rw [call_of_mem_excerpts hxc]
  rw [take_of_length_le hlength]
  exact mem_map_of_mem hc

theorem getCallTx_spec {callId : String} {d : CallDetail} {s s' : Faulty (Session Unit)}
    (h : exec (getCallTx dialect caller db callId) s = (.ok d, s')) :
    s'.state.db.auditLog = s.state.db.auditLog ++ [entryOf caller "call.read" "call" callId .null] ∧
      ∀ x ∈ d.excerpts, dialect.uuid callId = some x.call := by
  unfold getCallTx at h
  split at h
  · cases (Prod.mk.inj h).1
  rename_i call hcall
  obtain ⟨found, s₁, hfound, h⟩ := exec_bind_eq_ok h
  obtain ⟨rfl, hs₁⟩ := exec_fetch_eq_ok hfound
  split at h
  · cases (Prod.mk.inj h).1
  rename_i row hrow
  obtain ⟨analysis, s₂, hanalysis, h⟩ := exec_bind_eq_ok h
  obtain ⟨transcripts, s₃, htranscripts, h⟩ := exec_bind_eq_ok h
  obtain ⟨flags, s₄, hflags, h⟩ := exec_bind_eq_ok h
  obtain ⟨⟨⟩, s₅, haudit, h⟩ := exec_bind_eq_ok h
  obtain ⟨-, hs₂⟩ := exec_fetch_eq_ok hanalysis
  obtain ⟨-, hs₃⟩ := exec_fetch_eq_ok htranscripts
  obtain ⟨rfl, hs₄⟩ := exec_fetch_eq_ok hflags
  have hs₅ := exec_statement_eq_ok haudit
  obtain ⟨hd, rfl⟩ := Prod.mk.inj h
  obtain rfl := ok.inj hd
  refine ⟨by rw [hs₅, hs₄, hs₃, hs₂, hs₁]; rfl, fun x hx => ?_⟩
  have hid : row.1 = call := by
    exact of_decide_eq_true (mem_filter.mp (mem_of_mem_head? hrow)).2
  suffices hx' : x.call = call by rw [hcall, hx']
  rcases mem_append.mp hx with hx | hx
  · rcases mem_append.mp hx with hx | hx
    · exact (call_of_mem_excerpts hx).trans hid
    obtain ⟨text, -, rfl⟩ := mem_map.mp hx
    exact hid
  obtain ⟨flag, hflag, hx⟩ := mem_flatMap.mp hx
  rw [(of_mem_flag_excerpts hx).1]
  obtain ⟨r, hr, rfl⟩ := mem_map.mp (mem_mergeSort.mp hflag)
  exact of_decide_eq_true (mem_filter.mp hr).2

theorem getCall_traced (callId : String) :
    Traced dialect caller db (getCall dialect w caller db callId).db
      ((getCall dialect w caller db callId).value.toList.flatMap CallDetail.excerpts) := by
  unfold getCall reply
  split
  · rename_i d hok
    obtain ⟨b, s, hrun, -, -, hdb⟩ := asIdentity_eq_ok hok
    obtain ⟨hlog, hfrom⟩ := getCallTx_spec hrun
    refine traced_of_entry (by rw [hdb]; exact hlog) fun x hx => .inl ⟨rfl, .inl ?_⟩
    have hcall : dialect.uuid callId = some x.call := hfrom x (by simpa using hx)
    have hne : callId ≠ "" := by
      rintro rfl
      cases dialect.uuid_empty.symm.trans hcall
    rwa [entryOf, if_neg hne]
  · exact traced_nil

theorem reviewTx_traced {flagId action : String} {f : Review → Review} {detail : AuditDetail}
    {fn : Tx Unit Flag} (hfn : ∀ s a s', exec fn s = (.ok a, s') →
      exec (reviewTx dialect caller db flagId f action detail) s = (.ok a, s')) :
    Traced dialect caller db (reply (asIdentity caller w db () fn)).db
      ((reply (asIdentity caller w db () fn)).value.toList.flatMap Flag.excerpts) := by
  unfold reply
  split
  · rename_i flag hok
    obtain ⟨b, s, hrun, -, -, hdb⟩ := asIdentity_eq_ok hok
    have h := hfn _ _ _ hrun
    unfold reviewTx at h
    split at h
    · cases (Prod.mk.inj h).1
    rename_i i hi
    split at h
    · obtain ⟨⟨⟩, s₁, -, h⟩ := exec_bind_eq_ok h
      cases (Prod.mk.inj h).1
    rename_i key row hrow
    obtain ⟨⟨⟩, s₁, hupdate, h⟩ := exec_bind_eq_ok h
    obtain ⟨⟨⟩, s₂, haudit, h⟩ := exec_bind_eq_ok h
    obtain ⟨hflag, rfl⟩ := Prod.mk.inj h
    obtain rfl := ok.inj hflag
    have hlog : s₂.state.db.auditLog =
        db.auditLog ++ [entryOf caller action "flag" flagId detail] := by
      rw [exec_statement_eq_ok haudit, exec_statement_eq_ok hupdate]
      rfl
    refine traced_of_entry (by rw [hdb]; exact hlog) fun x hx => .inr ⟨rfl, i, ?_, ?_⟩
    · have hid : row.id = i := by simpa using find?_some hrow
      have hx : x ∈ (flagOf (key, { row with review := f row.review })).excerpts := by
        simpa using hx
      rw [(of_mem_flag_excerpts hx).2, ← hid]
      rfl
    have hne : flagId ≠ "" := by
      rintro rfl
      cases dialect.flagId_empty.symm.trans hi
    rwa [entryOf, if_neg hne]
  · exact traced_nil

theorem applyAll_take_scan (page : List α) (m : Nat) (s : Session (List α)) :
    applyAll (([id, id, id] ++ page.map Session.append ++ [id]).take m) s =
      { s with out := s.out ++ page.take (m - 3) } := by
  match m with
  | 0 | 1 | 2 => simp
  | k + 3 =>
    have hlast : ∀ n (t : Session (List α)), applyAll (take n [id]) t = t := by
      intro n t
      cases n <;> simp
    have htake : ([id, id, id] ++ page.map Session.append ++ [id]).take (k + 3) = id :: id :: id ::
          ((page.take k).map Session.append ++ take (k - page.length) [id]) := by
      simp [take_append, map_take]
    rw [htake, applyAll_cons, applyAll_cons, applyAll_cons, applyAll_append, hlast,
      applyAll_append_rows]
    rfl

theorem mem_take_scan {page : List α} {row : α} {b : Budget} :
    row ∈ page.take (b.getD (page.length + 4) - 3) ↔
      ∃ n, page[n]? = some row ∧ b.Covers (n + 4) := by
  rw [mem_iff_getElem?]
  refine exists_congr fun n => ?_
  rw [getElem?_take]
  constructor
  · intro h
    obtain ⟨hlt, hget⟩ := ite_none_right_eq_some.mp h
    refine ⟨hget, ?_⟩
    cases b with
    | none => exact Budget.covers_none _
    | some k =>
      rw [getD_some] at hlt
      rw [Budget.covers_some]
      omega
  rintro ⟨hget, hcovers⟩
  refine ite_none_right_eq_some.mpr ⟨?_, hget⟩
  obtain ⟨hn, -⟩ := List.getElem?_eq_some_iff.mp hget
  cases b with
  | none =>
    rw [getD_none]
    omega
  | some k =>
    rw [Budget.covers_some] at hcovers
    rw [getD_some]
    omega

theorem listFlags_reads (w : Weather) (caller : Identity) (db : Database) (f : FlagFilter) :
    (listFlags w caller db f).db.auditLog = db.auditLog ∧
      (listFlags w caller db f).value = if caller.tenantId = "" then [] else
        (db.flagPage caller f).take (w.budget.getD ((db.flagPage caller f).length + 4) - 3) := by
  unfold listFlags asIdentity
  dsimp only
  split
  · exact ⟨rfl, rfl⟩
  generalize db.flagPage caller f = page
  have hperforms : Performs (do
      statement
      statement
      let a ← scanInto page
      statement
      return a) ([id, id, id] ++ page.map Session.append ++ [id]) () :=
    statement_performs.bind <| statement_performs.bind <| (scanInto_performs page).bind <|
      statement_performs.bind <| Performs.pure ()
  have hstate := hperforms.state_eq ⟨⟨db, []⟩, w.budget⟩
  rw [applyAll_take_scan] at hstate
  have hlength : ([id, id, id] ++ page.map Session.append ++ [id]).length = page.length + 4 := by
    simp
  rw [hlength] at hstate
  split <;> rename_i hrun <;> rw [hrun] at hstate
  · exact ⟨by rw [hstate], by rw [hstate]; rfl⟩
  · exact ⟨rfl, by rw [hstate]; rfl⟩

end Store

namespace Operation

variable {dialect : Dialect} {w : Weather} {caller : Identity} {db : Database}

/-- **What is read of a call leaves a trace.** -/
theorem traced_iff (dialect : Dialect) (w : Weather) (caller : Identity) (db : Database)
    (op : Operation) :
    Traced dialect caller db (op.run dialect w caller db).2 (op.run dialect w caller db).1 ↔
      ¬ op.ReadsFlagText w caller db := by
  cases op with
  | listCalls f => exact iff_of_true (Store.listCalls_traced f) not_false
  | getCall callId => exact iff_of_true (Store.getCall_traced callId) not_false
  | updateFlag flagId b at_ =>
    have hreview : ∀ s a s', exec (if b.status ≠ "" ∧ (FlagStatus.ofText? b.status).isNone then
        throw .statement else Store.reviewTx dialect caller db flagId (fun r => updated r b at_)
          "flag.update" (.status b.status)) s = (.ok a, s') →
        exec (Store.reviewTx dialect caller db flagId (fun r => updated r b at_)
          "flag.update" (.status b.status)) s = (.ok a, s') := by
      intro s a s' h
      split at h
      · cases (Prod.mk.inj h).1
      · exact h
    exact iff_of_true (Store.reviewTx_traced hreview) not_false
  | respondToFlag flagId response =>
    exact iff_of_true (Store.reviewTx_traced fun _ _ _ h => h) not_false
  | liveCalls teamId now => exact iff_of_true traced_nil not_false
  | queueEvidenceExport jobId flagIds includeAudio => exact iff_of_true traced_nil not_false
  | listFlags f =>
    obtain ⟨hlog, hvalue⟩ := Store.listFlags_reads w caller db f
    rw [run, traced_iff_of_log hlog, hvalue, ReadsFlagText]
    split
    · rename_i hid
      exact iff_of_true rfl fun h => h.1 hid
    rename_i hid
    constructor
    · rintro hempty ⟨-, n, flag, hget, hcovers, hne⟩
      have hread := Store.mem_take_scan.mpr ⟨n, hget, hcovers⟩
      exact hne (flatMap_eq_nil_iff.mp hempty flag hread)
    · intro hnone
      refine flatMap_eq_nil_iff.mpr fun flag hflag => by_contra fun hne => ?_
      obtain ⟨n, hget, hcovers⟩ := Store.mem_take_scan.mp hflag
      exact hnone ⟨hid, n, flag, hget, hcovers, hne⟩

/-! ### The compliance queue -/

def plainDialect : Dialect where
  uuid s := if s = "" then none else some s
  flagId s := if s = "0" then some 0 else none
  uuid_empty := rfl
  flagId_empty := rfl
  searches _ _ := false
  delta _ := none

def queueDb : Database where
  calls := Table.put ∅ "call-1"
    { tenantId := "tenant-1", deviceId := "device-1", userUid := "agent-1", startedAt := 0,
      captureTier := "A", hasFlags := true, status := "complete" }
  flags := Flags.insert ∅ ("call-1", "threat", 1) "tenant-1"
    { ruleSetVersion := 1, severity := .critical, evidenceText := some "we know where you live" }

def reviewer : Identity := ⟨"reviewer-1", "tenant-1", .compliance⟩

/-- A reviewer who pages the queue reads the evidence and leaves no trace. -/
theorem queue_not_traced :
    ¬ Traced plainDialect reviewer queueDb ((listFlags {}).run plainDialect {} reviewer queueDb).2
      ((listFlags {}).run plainDialect {} reviewer queueDb).1 := by
  decide +kernel

end Operation

end Sentinel.Portal
