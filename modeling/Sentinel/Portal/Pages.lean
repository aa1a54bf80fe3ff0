import Sentinel.Lib.Paging
import Sentinel.Portal.Reads

/-!
# Following the cursor of a listing

`ListCalls` returns a page of calls, the latest first, and with a full page the start of its last
call, which a client sends back for the calls before it.
-/

open List

namespace Sentinel.Portal

open Faults Workers Operation

namespace Store

variable {dialect : Dialect} {caller : Identity} {db : Database} {f : CallFilter}
  {team : Option Uuid}

theorem exec_auditList (caller : Identity) (f : CallFilter) (s : Session (List CallSummary)) :
    ∃ db', (exec (auditList caller f) ⟨s, none⟩).2 = ⟨⟨db', s.out⟩, none⟩ := by
  by_cases hempty : s.out = []
  · exact ⟨_, congrArg Prod.snd (exec_auditList_of_nil hempty)⟩
  · exact ⟨_, (congrArg Prod.snd (exec_auditList_of_ne_nil hempty)).trans rfl⟩

theorem listCalls_value (hcaller : caller.tenantId ≠ "")
    (hteam : nullUuid dialect f.teamId = .ok team) :
    (listCalls dialect {} caller db f).value = (db.callPage dialect caller f team,
      if (db.callPage dialect caller f team).length = f.limit then
        (db.callPage dialect caller f team).getLast?.map (·.startedAt) else none) := by
  have hbody : exec (do
      let team ← ofExcept (nullUuid dialect f.teamId)
      scanInto (db.callPage dialect caller f team)) ⟨⟨db, []⟩, none⟩ =
      (.ok (), ⟨⟨db, db.callPage dialect caller f team⟩, none⟩) := by
    rw [exec_bind, exec_ofExcept, hteam]
    refine ((scanInto_performs _).covered _ (Budget.covers_none _)).trans ?_
    rw [applyAll_cons, applyAll_append_rows]
    rfl
  obtain ⟨db', haudit⟩ := exec_auditList caller f ⟨db, db.callPage dialect caller f team⟩
  have htx : exec (listCallsTx dialect caller db f) ⟨⟨db, []⟩, none⟩ =
      (.ok (), ⟨⟨db', db.callPage dialect caller f team⟩, none⟩) := by
    rw [listCallsTx, exec_deferring, hbody]
    exact Prod.ext rfl haudit
  have hrun : asIdentity caller {} db [] (listCallsTx dialect caller db f) =
      ⟨.ok (), db.callPage dialect caller f team, db'⟩ := by
    have hexec : exec (do
        statement
        statement
        let a ← listCallsTx dialect caller db f
        statement
        return a) ⟨⟨db, []⟩, none⟩ =
        (.ok (), ⟨⟨db', db.callPage dialect caller f team⟩, none⟩) := by
      change exec (do
        let a ← listCallsTx dialect caller db f
        statement
        return a) ⟨⟨db, []⟩, none⟩ = _
      rw [exec_bind, htx]
      rfl
    unfold asIdentity
    rw [if_neg hcaller]
    dsimp only
    rw [hexec]
    rfl
  unfold listCalls
  rw [hrun]

def following (dialect : Dialect) (caller : Identity) (db : Database) :
    Nat → CallFilter → List (List CallSummary × Option Int)
  | 0, _ => []
  | n + 1, f =>
    let answer := (listCalls dialect {} caller db f).value
    answer :: match answer.2 with
      | none => []
      | some t => following dialect caller db n { f with cursor := some t }

def matching (dialect : Dialect) (caller : Identity) (db : Database) (f : CallFilter)
    (team : Option Uuid) : List (Uuid × CallRow) :=
  (db.visibleCalls caller).filter fun r =>
    db.Selects dialect caller { f with cursor := none } team r

def startOf (r : Uuid × CallRow) : Int := r.2.startedAt

theorem callPage_eq (cursor : Option Int) :
    db.callPage dialect caller { f with cursor := cursor } team =
      (Paging.page startOf f.limit (matching dialect caller db f team) cursor).map
        (db.callSummary dialect caller) := by
  have hrows : (db.visibleCalls caller).filter (fun r =>
      db.Selects dialect caller { f with cursor := cursor } team r) =
      Paging.below startOf (matching dialect caller db f team) cursor := by
    rw [Paging.below, matching, filter_filter]
    refine filter_congr fun r _ => ?_
    rw [← Bool.decide_and, decide_eq_decide]
    simp only [Database.Selects, startOf]
    tauto
  unfold Database.callPage
  rw [hrows]
  rfl

theorem following_eq (hcaller : caller.tenantId ≠ "")
    (hteam : nullUuid dialect f.teamId = .ok team) (n : Nat) (cursor : Option Int) :
    following dialect caller db n { f with cursor := cursor } =
      (Paging.walk startOf f.limit (matching dialect caller db f team) n cursor).map
        (Prod.map (List.map (db.callSummary dialect caller)) id) := by
  induction n generalizing cursor with
  | zero => rfl
  | succ n ih =>
    have hvalue : (listCalls dialect {} caller db { f with cursor := cursor }).value =
        Prod.map (List.map (db.callSummary dialect caller)) id
          (Paging.page startOf f.limit (matching dialect caller db f team) cursor,
            Paging.next startOf f.limit (matching dialect caller db f team) cursor) := by
      rw [listCalls_value (f := { f with cursor := cursor }) hcaller hteam, callPage_eq, length_map,
        getLast?_map, Option.map_map]
      rfl
    rw [following, Paging.walk, map_cons, hvalue]
    dsimp only [Prod.map, id]
    split
    next h => simp [h]
    next t h => simp [h, ih]

theorem nodup_matching : (matching dialect caller db f team).Nodup :=
  ((db.calls.nodup.of_map _).filter _).filter _

theorem callSummary_inj {r r' : Uuid × CallRow} (hr : r ∈ matching dialect caller db f team)
    (hr' : r' ∈ matching dialect caller db f team)
    (h : db.callSummary dialect caller r = db.callSummary dialect caller r') : r = r' := by
  have hid : r.1 = r'.1 := congrArg CallSummary.id h
  have hrow : r ∈ db.calls.rows := mem_of_mem_filter (mem_of_mem_filter hr)
  have hrow' : r' ∈ db.calls.rows := mem_of_mem_filter (mem_of_mem_filter hr')
  exact Prod.ext hid (Table.eq_of_mem hrow (hid ▸ hrow'))

theorem CallFilter.limit_pos (f : CallFilter) : 0 < f.limit := by
  unfold CallFilter.limit
  split
  · decide
  · split <;> omega

def twoCalls (start start' : Int) : Database where
  calls := (Table.put ∅ "call-1" (callAt start)).put "call-2" (callAt start')
where
  callAt (start : Int) : CallRow :=
    { tenantId := "tenant-1", deviceId := "device-1", userUid := "agent-1", startedAt := start,
      captureTier := "A", status := "complete" }

theorem matching_twoCalls (start start' : Int) :
    matching plainDialect reviewer (twoCalls start start') { limit_ := 1 } none =
      [("call-1", twoCalls.callAt start), ("call-2", twoCalls.callAt start')] := by
  rfl

theorem following_twoCalls (start start' : Int) (h : start' ≤ start) :
    following plainDialect reviewer (twoCalls start start') 3 { limit_ := 1 } =
      (if start' < start then
        [([("call-1", twoCalls.callAt start)], some start),
          ([("call-2", twoCalls.callAt start')], some start'), ([], none)]
      else [([("call-1", twoCalls.callAt start)], some start), ([], none)]).map
        (Prod.map (List.map ((twoCalls start start').callSummary plainDialect reviewer)) id) := by
  have hfollow := @following_eq plainDialect reviewer (twoCalls start start') { limit_ := 1 } none
    (by decide) rfl 3 none
  rw [matching_twoCalls] at hfollow
  rw [hfollow]
  congr 1
  split <;> simp_all [Paging.walk, Paging.next, Paging.page, Paging.sorted, Paging.below,
    CallFilter.limit, mergeSort, startOf, twoCalls.callAt]

end Store

end Sentinel.Portal
