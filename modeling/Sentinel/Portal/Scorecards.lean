import Mathlib.Tactic.Positivity
import Sentinel.Portal.Reads

/-!
# Scorecards

`TeamScorecards` (`stats.go`) is given a team and does not look at it: the query runs over every
call that the caller sees in the range.
-/

open List

namespace Sentinel.Portal

open Workers Faults

/-! ## The query -/

structure UserRow where
  tenantId : String
  teamId : Option Uuid := none
  displayName : String

structure CoverageRow where
  tenantId : String
  userUid : String
  date : Int
  dialerCalls : Int
  capturedCalls : Int

structure StatsQuery where
  db : Database
  users : Table String UserRow := ∅
  coverage : List CoverageRow := []
  delta : Json → Option ℚ
  talkRatio : JsonNum → ℚ
  day : Int → Int
  caller : Identity
  since : Int
  till : Int

structure AgentStats where
  userUid : String
  displayName : String
  range : Int × Int
  calls : Nat := 0
  coveragePct : Option ℚ := none
  ptpRate : ℚ := 0
  ptpAmountPaise : Int := 0
  avgSentimentDelta : Option ℚ := none
  talkRatio : Option ℚ := none
  flagsPer1000 : ℚ := 0
  deriving DecidableEq

def average (xs : List ℚ) : Option ℚ := if xs = [] then none else some (xs.sum / xs.length)

namespace StatsQuery

variable (q : StatsQuery)

def range : Int × Int := (q.day q.since, q.day q.till)

def scope : List (Uuid × CallRow) :=
  (q.db.visibleCalls q.caller).filter fun r => q.since ≤ r.2.startedAt ∧ r.2.startedAt < q.till

def OwnScope (tenantId userUid : String) : Prop :=
  tenantId = q.caller.tenantId ∧ (q.caller.role ≠ .agent ∨ userUid = q.caller.userUid)

instance (tenantId userUid : String) : Decidable (q.OwnScope tenantId userUid) :=
  inferInstanceAs (Decidable (_ ∧ _))

variable (uid : String)

def callsOf : List (Uuid × CallRow) := q.scope.filter fun r => r.2.userUid = uid

def flagsOf : List (FlagKey × FlagRow) :=
  (q.db.visibleFlags q.caller).filter fun f => f.1.1 ∈ (q.callsOf uid).map Prod.fst

def coveragePct : Option ℚ :=
  let rows := q.coverage.filter fun c => c.userUid = uid ∧ q.OwnScope c.tenantId uid ∧
    q.range.1 ≤ c.date ∧ c.date < q.range.2
  let dialed := (rows.map (·.dialerCalls)).sum
  if 0 < dialed then some (100 * (rows.map (·.capturedCalls)).sum / dialed) else none

def row : AgentStats :=
  let calls := q.callsOf uid
  let analyses := calls.filterMap fun r => q.db.inScope q.caller q.db.analyses (·.tenantId) r.1
  let ptps := calls.filterMap fun r => q.db.inScope q.caller q.db.ptps (·.tenantId) r.1
  { userUid := uid
    displayName := (((q.users.get? uid).filter fun u => q.OwnScope u.tenantId uid).map
      (·.displayName)).getD uid
    range := q.range
    calls := calls.length
    coveragePct := q.coveragePct uid
    ptpRate := if calls = [] then 0
      else (analyses.countP fun a => a.disposition = .ptp) / calls.length
    ptpAmountPaise := (ptps.filterMap fun p =>
      (p.correction.bind (·.agentAmountPaise)).or p.extraction.amountPaise).sum
    avgSentimentDelta := average (analyses.filterMap fun a => q.delta a.sentiment)
    talkRatio := average (analyses.map fun a => q.talkRatio a.talkRatio) }

def rows : List AgentStats := (q.scope.map fun r => r.2.userUid).dedup.map q.row

end StatsQuery

/-! ## The median -/

def medianFloat (v : List ℚ) : ℚ :=
  let v := v.mergeSort fun a b => a ≤ b
  let mid := v.length / 2
  if v.length % 2 = 1 then v.getD mid 0 else (v.getD (mid - 1) 0 + v.getD mid 0) / 2

def truncate (x : ℚ) : Int := x.num.tdiv x.den

def medianOf (agents : List AgentStats) (range : Int × Int) : AgentStats :=
  let optional (f : AgentStats → Option ℚ) : Option ℚ :=
    let v := agents.filterMap f
    if v = [] then none else some (medianFloat v)
  { userUid := "median"
    displayName := "Team median"
    range
    calls := (truncate (medianFloat (agents.map fun a => (a.calls : ℚ)))).toNat
    ptpRate := medianFloat ((agents.filter fun a => 0 < a.calls).map (·.ptpRate))
    ptpAmountPaise := truncate (medianFloat (agents.map fun a => (a.ptpAmountPaise : ℚ)))
    avgSentimentDelta := optional (·.avgSentimentDelta)
    talkRatio := optional (·.talkRatio)
    coveragePct := optional (·.coveragePct) }

def teamScorecards (w : Weather) (q : StatsQuery) (_teamId : Uuid) :
    Except StoreError (AgentStats × List AgentStats) :=
  (asIdentity q.caller w q.db () (fetch q.rows)).result.map fun rows =>
    let agents := rows.mergeSort fun a b => a.displayName ≤ b.displayName
    (medianOf agents q.range, agents)

/-! ## Whose scorecards they are -/

variable {w : Weather} {q : StatsQuery} {teamId : Uuid} {median : AgentStats}
  {agents : List AgentStats}

def StatsQuery.OfTeam (q : StatsQuery) (teamId : Uuid) (uid : String) : Prop :=
  ∃ u ∈ q.users.get? uid, u.teamId = some teamId

instance (uid : String) : Decidable (q.OfTeam teamId uid) :=
  inferInstanceAs (Decidable (∃ _ ∈ _, _))

structure AboutTeam (q : StatsQuery) (teamId : Uuid) (median : AgentStats)
    (agents : List AgentStats) : Prop where
  members : ∀ uid, uid ∈ agents.map (·.userUid) ↔ q.OfTeam teamId uid ∧ q.callsOf uid ≠ []
  median : median = medianOf (agents.filter fun a => q.OfTeam teamId a.userUid) q.range
  rates : ∀ a ∈ agents, a.flagsPer1000 =
    1000 * (q.flagsOf a.userUid).length / (q.callsOf a.userUid).length

theorem teamScorecards_eq_ok (h : teamScorecards w q teamId = .ok (median, agents)) :
    agents.Perm q.rows ∧ median = medianOf agents q.range := by
  unfold teamScorecards at h
  cases hresult : (asIdentity q.caller w q.db () (fetch q.rows)).result with
  | error e =>
    rw [hresult] at h
    cases h
  | ok rows =>
    obtain ⟨_, _, hfetch, -⟩ := asIdentity_eq_ok hresult
    obtain ⟨rfl, -⟩ := exec_fetch_eq_ok hfetch
    rw [hresult] at h
    obtain ⟨rfl, rfl⟩ := Prod.mk.inj (Except.ok.inj h)
    exact ⟨mergeSort_perm _ _, rfl⟩

theorem mem_rows {a : AgentStats} :
    a ∈ q.rows ↔ q.callsOf a.userUid ≠ [] ∧ a = q.row a.userUid := by
  have hcalls : ∀ uid, uid ∈ q.scope.map (fun r => r.2.userUid) ↔ q.callsOf uid ≠ [] := by
    simp [StatsQuery.callsOf]
  rw [StatsQuery.rows, mem_map]
  constructor
  · rintro ⟨uid, huid, rfl⟩
    exact ⟨(hcalls uid).mp (mem_dedup.mp huid), rfl⟩
  rintro ⟨huid, ha⟩
  exact ⟨a.userUid, mem_dedup.mpr ((hcalls _).mpr huid), ha.symm⟩

/-- **When the scorecards are about the team.** -/
theorem aboutTeam_iff (h : teamScorecards w q teamId = .ok (median, agents)) :
    AboutTeam q teamId median agents ↔
      ∀ r ∈ q.scope, q.OfTeam teamId r.2.userUid ∧
        ∀ f ∈ q.db.visibleFlags q.caller, f.1.1 ≠ r.1 := by
  obtain ⟨hperm, hmedian⟩ := teamScorecards_eq_ok h
  have hmem : ∀ a, a ∈ agents ↔ q.callsOf a.userUid ≠ [] ∧ a = q.row a.userUid :=
    fun a => hperm.mem_iff.trans mem_rows
  have hrow : ∀ uid, q.callsOf uid ≠ [] → q.row uid ∈ agents :=
    fun uid huid => (hmem _).mpr ⟨huid, rfl⟩
  constructor
  · intro habout r hr
    have hcall : r ∈ q.callsOf r.2.userUid := mem_filter.mpr ⟨hr, by simp⟩
    have huid := ne_nil_of_mem hcall
    have hagent := hrow _ huid
    refine ⟨((habout.members _).mp (mem_map_of_mem hagent)).1, fun f hf heq => ?_⟩
    -- The rate of the row is zero, so the agent has no flags.
    have hrate : 0 = (1000 : ℚ) * (q.flagsOf r.2.userUid).length / (q.callsOf r.2.userUid).length :=
      habout.rates _ hagent
    have hflag : f ∈ q.flagsOf r.2.userUid :=
      mem_filter.mpr ⟨hf, decide_eq_true (heq ▸ mem_map_of_mem hcall)⟩
    have hn := length_pos_iff.mpr (ne_nil_of_mem hflag)
    have hm := length_pos_iff.mpr huid
    have hpos : (0 : ℚ) <
        1000 * (q.flagsOf r.2.userUid).length / (q.callsOf r.2.userUid).length := by
      positivity
    exact hpos.ne hrate
  · intro hscope
    have hteam : ∀ uid, q.callsOf uid ≠ [] → q.OfTeam teamId uid := by
      intro uid huid
      obtain ⟨r, hr⟩ := exists_mem_of_ne_nil _ huid
      obtain ⟨hr, hr'⟩ := mem_filter.mp hr
      exact of_decide_eq_true hr' ▸ (hscope r hr).1
    refine ⟨fun uid => ⟨fun huid => ?_, fun huid => ?_⟩, ?_, fun a ha => ?_⟩
    · obtain ⟨a, ha, rfl⟩ := mem_map.mp huid
      have hcalls := ((hmem a).mp ha).1
      exact ⟨hteam _ hcalls, hcalls⟩
    · exact mem_map.mpr ⟨_, hrow uid huid.2, rfl⟩
    · rw [hmedian, filter_eq_self.mpr fun a ha => decide_eq_true (hteam _ ((hmem a).mp ha).1)]
    · have hnone : q.flagsOf a.userUid = [] := by
        refine filter_eq_nil_iff.mpr fun f hf hcall => ?_
        obtain ⟨r, hr, hcall⟩ := mem_map.mp (of_decide_eq_true hcall)
        exact (hscope r (mem_of_mem_filter hr)).2 f hf hcall.symm
      rw [hnone, length_nil, Nat.cast_zero, mul_zero, zero_div, ((hmem a).mp ha).2]
      rfl

/-! ## An agent of another team -/

def floorOfB (flags : Flags) : StatsQuery where
  db :=
    { calls := ⟨[("c1",
        { tenantId := "t1", deviceId := "d1", userUid := "u1", startedAt := 5, captureTier := "A",
          status := "complete" })], by decide⟩
      flags }
  users := ⟨[("u1", ⟨"t1", some "b", "Asha"⟩)], by decide⟩
  delta _ := none
  talkRatio _ := 0
  day t := t
  caller := ⟨"qa1", "t1", .qa⟩
  since := 0
  till := 10

theorem scorecards_of_own_team :
    ∃ median agents, teamScorecards {} (floorOfB ∅) "b" = .ok (median, agents) ∧
      AboutTeam (floorOfB ∅) "b" median agents :=
  ⟨_, _, rfl, (aboutTeam_iff (w := {}) (q := floorOfB ∅) rfl).mpr (by decide +kernel)⟩

/-- The scorecards of team `a`: an agent of team `b`, with a flag on their only call and none in a
thousand. -/
theorem scorecards_of_other_team :
    teamScorecards {} (floorOfB oneFlag.flags) "a" =
      .ok (medianOf [(floorOfB oneFlag.flags).row "u1"] (0, 10),
        [(floorOfB oneFlag.flags).row "u1"]) ∧
    ¬ (floorOfB oneFlag.flags).OfTeam "a" "u1" ∧
    ((floorOfB oneFlag.flags).row "u1").flagsPer1000 = 0 ∧
    ((floorOfB oneFlag.flags).flagsOf "u1").length = 1 ∧
    ((floorOfB oneFlag.flags).callsOf "u1").length = 1 :=
  ⟨by decide +kernel, by decide +kernel, rfl, by decide +kernel, by decide +kernel⟩

end Sentinel.Portal
