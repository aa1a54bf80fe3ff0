import Mathlib.Algebra.Group.Nat.Defs
import Mathlib.Data.List.Sort
import Mathlib.Order.Bounds.Basic
import Sentinel.Lib.Runs
import Sentinel.Lib.Table

/-!
# The watchdog

`supervisor.rs` keeps a slot for each session with a user in it and says when an agent is to be
launched there. What it is for is said over histories.
-/

open List Function Table

namespace Sentinel.Service

open Runs

/-! ## The slots -/

def u64Max : Nat := 2 ^ 64 - 1

def u32Max : Nat := 2 ^ 32 - 1

def healthyRunMs : Nat := 120000

def counterResetMs : Nat := 24 * 3600000

structure Backoff where
  attempt : Nat := 0
  deriving DecidableEq, Repr

def Backoff.ceiling (b : Backoff) : Nat := min (1000 * 2 ^ min b.attempt 20) 60000

def Backoff.nextDelay (b : Backoff) : Nat × Backoff := (b.ceiling, ⟨min (b.attempt + 1) u32Max⟩)

structure Slot where
  running : Bool
  nextAttemptMs : Nat
  backoff : Backoff
  startedMs : Option Nat
  deriving DecidableEq, Repr

inductive Action where
  | launch (sessionId : UInt32)
  | idle (nextDeadlineMs : Option Nat)
  deriving DecidableEq, Repr

structure Supervisor where
  sessions : Table UInt32 Slot := ∅
  restarts : Nat := 0
  counterEpochMs : Nat

namespace Supervisor

def onLogon (s : Supervisor) (sessionId : UInt32) (nowMs : Nat) : Supervisor :=
  { s with sessions := s.sessions.insertNew sessionId ⟨false, nowMs, {}, none⟩ }

def onLogoff (s : Supervisor) (sessionId : UInt32) : Supervisor :=
  { s with sessions := s.sessions.erase sessionId }

def onLaunched (s : Supervisor) (sessionId : UInt32) (nowMs : Nat) : Supervisor :=
  match s.sessions.get? sessionId with
  | some slot =>
    { s with
      sessions := s.sessions.put sessionId { slot with running := true, startedMs := some nowMs } }
  | none => s

def onExited (s : Supervisor) (sessionId : UInt32) (nowMs : Nat) (expected : Bool) : Supervisor :=
  match s.sessions.get? sessionId with
  | none => s
  | some slot =>
    let lifetime := nowMs - slot.startedMs.getD nowMs
    if expected then
      { s with
        sessions := s.sessions.put sessionId ⟨false, nowMs, slot.backoff, none⟩ }
    else
      let backoff := if healthyRunMs ≤ lifetime then {} else slot.backoff
      let (delay, backoff) := backoff.nextDelay
      { s with
        sessions := s.sessions.put sessionId ⟨false, min (nowMs + delay) u64Max, backoff, none⟩
        restarts := min (s.restarts + 1) u32Max }

def earlier (nextDeadline : Option Nat) (nextAttemptMs : Nat) : Nat :=
  match nextDeadline with
  | some d => min d nextAttemptMs
  | none => nextAttemptMs

def due (nowMs : Nat) : Option Nat → List (UInt32 × Slot) → Action
  | nextDeadline, [] => .idle nextDeadline
  | nextDeadline, (sessionId, slot) :: rest =>
    if slot.running then due nowMs nextDeadline rest
    else if slot.nextAttemptMs ≤ nowMs then .launch sessionId
    else due nowMs (some (earlier nextDeadline slot.nextAttemptMs)) rest

def poll (s : Supervisor) (nowMs : Nat) : Action × Supervisor :=
  let s := if counterResetMs ≤ nowMs - s.counterEpochMs then
    { s with restarts := 0, counterEpochMs := nowMs } else s
  (due nowMs none (s.sessions.rows.insertionSort (·.1 ≤ ·.1)), s)

end Supervisor

/-! ## Histories -/

inductive WatchEvent where
  | logon (sessionId : UInt32) (nowMs : Nat)
  | logoff (sessionId : UInt32)
  | launched (sessionId : UInt32) (nowMs : Nat)
  | exited (sessionId : UInt32) (nowMs : Nat) (expected : Bool)
  | poll (nowMs : Nat)

def Supervisor.step (s : Supervisor) : WatchEvent → Supervisor
  | .logon sessionId nowMs => s.onLogon sessionId nowMs
  | .logoff sessionId => s.onLogoff sessionId
  | .launched sessionId nowMs => s.onLaunched sessionId nowMs
  | .exited sessionId nowMs expected => s.onExited sessionId nowMs expected
  | .poll nowMs => (s.poll nowMs).2

inductive AgentEvent where
  | launched (nowMs : Nat)
  | exited (nowMs : Nat) (expected : Bool)

def runStart : List AgentEvent → Option Nat
  | .launched nowMs :: _ => some nowMs
  | _ => none

def EndsHealthy (nowMs : Nat) (past : List AgentEvent) : Prop :=
  ∃ t ∈ runStart past, t + healthyRunMs ≤ nowMs

instance (nowMs : Nat) (past : List AgentEvent) : Decidable (EndsHealthy nowMs past) :=
  inferInstanceAs (Decidable (∃ t ∈ runStart past, t + healthyRunMs ≤ nowMs))

def exits : List AgentEvent → Nat
  | [] => 0
  | .exited nowMs false :: past => if EndsHealthy nowMs past then 1 else exits past + 1
  | _ :: past => exits past

def pause (n : Nat) : Nat := 1000 * min (2 ^ (n - 1)) 60

def deadline (logonMs : Nat) : List AgentEvent → Nat
  | [] => logonMs
  | .launched _ :: past => deadline logonMs past
  | .exited nowMs true :: _ => nowMs
  | .exited nowMs false :: past =>
    min (nowMs + pause (exits (.exited nowMs false :: past))) u64Max

structure Watch where
  logonMs : Nat
  events : List AgentEvent := []

namespace Watch

variable (w : Watch)

def running : Bool := (runStart w.events).isSome

def deadline : Nat := Service.deadline w.logonMs w.events

def slot : Slot := ⟨w.running, w.deadline, ⟨min (exits w.events) u32Max⟩, runStart w.events⟩

end Watch

structure Watched where
  watch : UInt32 → Option Watch := fun _ => none
  exits : Nat := 0
  resetMs : Nat

def Watched.happens (h : Watched) (id : UInt32) (e : AgentEvent) : UInt32 → Option Watch :=
  Function.update h.watch id ((h.watch id).map fun w => { w with events := e :: w.events })

def Watched.record (h : Watched) : WatchEvent → Watched
  | .logon id nowMs =>
    { h with watch := Function.update h.watch id (some ((h.watch id).getD ⟨nowMs, []⟩)) }
  | .logoff id => { h with watch := Function.update h.watch id none }
  | .launched id nowMs => { h with watch := h.happens id (.launched nowMs) }
  | .exited id nowMs expected =>
    { h with
      watch := h.happens id (.exited nowMs expected)
      exits := if (h.watch id).isSome ∧ ¬ expected then h.exits + 1 else h.exits }
  | .poll nowMs =>
    if counterResetMs ≤ nowMs - h.resetMs then { h with exits := 0, resetMs := nowMs } else h

/-! ## The slots summarise the history -/

structure Follows (s : Supervisor) (h : Watched) : Prop where
  sessions : ∀ id, s.sessions.get? id = (h.watch id).map Watch.slot
  restarts : s.restarts = min h.exits u32Max
  reset : s.counterEpochMs = h.resetMs

theorem ceiling_eq (n : Nat) : Backoff.ceiling ⟨min n u32Max⟩ = 1000 * min (2 ^ n) 60 := by
  rw [Backoff.ceiling]
  by_cases hn : n ≤ 20
  · have hmin : min (min n u32Max) 20 = n := by unfold u32Max; omega
    rw [hmin]
    omega
  have hmin : min (min n u32Max) 20 = 20 := by unfold u32Max; omega
  have hpow : 2 ^ 20 ≤ 2 ^ n := Nat.pow_le_pow_right (by decide) (by omega)
  rw [hmin]
  omega

theorem endsHealthy_iff (nowMs : Nat) (past : List AgentEvent) :
    EndsHealthy nowMs past ↔ healthyRunMs ≤ nowMs - (runStart past).getD nowMs := by
  unfold EndsHealthy
  cases runStart past with
  | none => simp [healthyRunMs]
  | some t => simp [healthyRunMs]; omega

theorem nextDelay_eq (nowMs : Nat) (past : List AgentEvent) :
    Backoff.nextDelay (if healthyRunMs ≤ nowMs - (runStart past).getD nowMs then {}
      else ⟨min (exits past) u32Max⟩) =
    (pause (exits (.exited nowMs false :: past)),
      ⟨min (exits (.exited nowMs false :: past)) u32Max⟩) := by
  rw [exits, Backoff.nextDelay, pause]
  by_cases hhealthy : EndsHealthy nowMs past
  · rw [if_pos ((endsHealthy_iff nowMs past).mp hhealthy), if_pos hhealthy]
    rfl
  rw [if_neg (mt (endsHealthy_iff nowMs past).mpr hhealthy), if_neg hhealthy, ceiling_eq,
    Nat.add_sub_cancel]
  congr 2
  dsimp only
  omega

namespace Follows

variable {s : Supervisor} {h : Watched}

theorem get?_put_eq (hs : Follows s h) (id : UInt32) {slot : Slot} {w : Option Watch}
    (hw : w.map Watch.slot = some slot) (id' : UInt32) :
    (s.sessions.put id slot).get? id' = (update h.watch id w id').map Watch.slot := by
  rw [get?_put, update_apply]
  split
  · exact hw.symm
  · exact hs.sessions id'

theorem onLogon (hs : Follows s h) (id : UInt32) (nowMs : Nat) :
    Follows (s.onLogon id nowMs) (h.record (.logon id nowMs)) := by
  refine ⟨fun id' => ?_, hs.restarts, hs.reset⟩
  change (s.sessions.insertNew id _).get? id' = (update h.watch id _ id').map Watch.slot
  by_cases hid : id' = id
  · subst hid
    rw [get?_insertNew_self, hs.sessions, update_self]
    cases h.watch id' <;> rfl
  rw [get?_insertNew_of_ne _ hid, update_of_ne hid]
  exact hs.sessions id'

theorem onLogoff (hs : Follows s h) (id : UInt32) :
    Follows (s.onLogoff id) (h.record (.logoff id)) := by
  refine ⟨fun id' => ?_, hs.restarts, hs.reset⟩
  change (s.sessions.erase id).get? id' = (update h.watch id none id').map Watch.slot
  by_cases hid : id' = id
  · subst hid
    rw [get?_erase_self, update_self]
    rfl
  rw [get?_erase_ne _ hid, update_of_ne hid]
  exact hs.sessions id'

theorem happens_of_none {id : UInt32} (hid : h.watch id = none) (e : AgentEvent) :
    h.happens id e = h.watch := by
  rw [Watched.happens, hid, Option.map_none, ← hid, update_eq_self]

theorem onLaunched (hs : Follows s h) (id : UInt32) (nowMs : Nat) :
    Follows (s.onLaunched id nowMs) (h.record (.launched id nowMs)) := by
  have hslot := hs.sessions id
  rw [Supervisor.onLaunched, Watched.record]
  cases hw : h.watch id with
  | none =>
    rwa [hslot, hw, happens_of_none hw]
  | some w =>
    rw [hslot, hw]
    exact ⟨hs.get?_put_eq id (by rw [hw]; rfl), hs.restarts, hs.reset⟩

theorem onExited (hs : Follows s h) (id : UInt32) (nowMs : Nat) (expected : Bool) :
    Follows (s.onExited id nowMs expected) (h.record (.exited id nowMs expected)) := by
  have hslot := hs.sessions id
  rw [Supervisor.onExited, Watched.record]
  cases hw : h.watch id with
  | none =>
    rwa [hslot, hw, happens_of_none hw, if_neg (fun htracked => absurd htracked.1 (by decide))]
  | some w =>
    rw [hslot, hw, Option.map_some]
    cases expected with
    | true => exact ⟨hs.get?_put_eq id (by rw [hw]; rfl), hs.restarts, hs.reset⟩
    | false =>
      dsimp only [Watch.slot]
      rw [if_neg Bool.false_ne_true, nextDelay_eq, if_pos ⟨rfl, Bool.false_ne_true⟩]
      refine ⟨hs.get?_put_eq id (by rw [hw]; rfl), ?_, hs.reset⟩
      have hrestarts := hs.restarts
      dsimp only
      omega

theorem poll (hs : Follows s h) (nowMs : Nat) :
    Follows (s.poll nowMs).2 (h.record (.poll nowMs)) := by
  unfold Supervisor.poll Watched.record
  rw [hs.reset]
  dsimp only
  split
  · exact ⟨hs.sessions, rfl, rfl⟩
  · exact hs

theorem step (hs : Follows s h) (e : WatchEvent) : Follows (s.step e) (h.record e) := by
  cases e with
  | logon id nowMs => exact hs.onLogon id nowMs
  | logoff id => exact hs.onLogoff id
  | launched id nowMs => exact hs.onLaunched id nowMs
  | exited id nowMs expected => exact hs.onExited id nowMs expected
  | poll nowMs => exact hs.poll nowMs

theorem run (hs : Follows s h) (es : List WatchEvent) :
    Follows (run Supervisor.step s es) (run Watched.record h es) := by
  induction es generalizing s h with
  | nil => exact hs
  | cons e es ih => exact ih (hs.step e)

end Follows

/-! ## The answers -/

variable {nowMs : Nat} {rows : List (UInt32 × Slot)} {next : Option Nat}

theorem launch_of_due {id : UInt32} (h : Supervisor.due nowMs next rows = .launch id) :
    ∃ slot, (id, slot) ∈ rows ∧ ¬ slot.running ∧ slot.nextAttemptMs ≤ nowMs := by
  induction rows generalizing next with
  | nil => cases h
  | cons row rows ih =>
    obtain ⟨id', slot⟩ := row
    have hrest : ∀ {next}, Supervisor.due nowMs next rows = .launch id →
        ∃ slot', (id, slot') ∈ (id', slot) :: rows ∧ ¬ slot'.running ∧
          slot'.nextAttemptMs ≤ nowMs := by
      intro next hdue
      obtain ⟨slot', hmem, hslot⟩ := ih hdue
      exact ⟨slot', mem_cons_of_mem _ hmem, hslot⟩
    rw [Supervisor.due] at h
    split at h
    · exact hrest h
    case isFalse hrun =>
      split at h
      case isTrue hdue =>
        obtain rfl := Action.launch.inj h
        exact ⟨slot, mem_cons_self, hrun, hdue⟩
      · exact hrest h

def waiting (rows : List (UInt32 × Slot)) : List Nat :=
  (rows.filter (¬ ·.2.running)).map (·.2.nextAttemptMs)

theorem mem_waiting {t : Nat} :
    t ∈ waiting rows ↔ ∃ id slot, (id, slot) ∈ rows ∧ ¬ slot.running ∧ slot.nextAttemptMs = t := by
  simp [waiting, and_assoc]

theorem min?_of_due {d : Option Nat}
    (h : Supervisor.due nowMs next rows = .idle d) : d = (next.toList ++ waiting rows).min? := by
  induction rows generalizing next with
  | nil =>
    obtain rfl := Action.idle.inj h
    cases next <;> rfl
  | cons row rows ih =>
    obtain ⟨id, slot⟩ := row
    rw [Supervisor.due] at h
    split at h
    case isTrue hrun =>
      have hwaiting : waiting ((id, slot) :: rows) = waiting rows := by simp [waiting, hrun]
      rw [hwaiting]
      exact ih h
    case isFalse hrun =>
      have hwaiting : waiting ((id, slot) :: rows) = slot.nextAttemptMs :: waiting rows := by
        simp [waiting, hrun]
      split at h
      · cases h
      rw [ih h, hwaiting]
      cases next <;> rfl

/-- **The watchdog's policy.** -/
theorem watchdog_policy (startMs : Nat) (es : List WatchEvent) :
    let s := run Supervisor.step ⟨∅, 0, startMs⟩ es
    let h := run Watched.record ⟨fun _ => none, 0, startMs⟩ es
    (∀ nowMs id, (s.poll nowMs).1 = .launch id →
      ∃ w, h.watch id = some w ∧ ¬ w.running ∧ w.deadline ≤ nowMs) ∧
    (∀ nowMs d, (s.poll nowMs).1 = .idle d → ∀ m, d = some m ↔
      IsLeast {t | ∃ id w, h.watch id = some w ∧ ¬ w.running ∧ w.deadline = t} m) ∧
    (∀ id w nowMs, h.watch id = some w →
      ((s.onExited id nowMs false).sessions.get? id).map Slot.nextAttemptMs = some (min
        (nowMs + 1000 * min (2 ^ (exits (.exited nowMs false :: w.events) - 1)) 60) u64Max)) ∧
    s.restarts = min h.exits u32Max := by
  intro s h
  have hs : Follows s h := Follows.run ⟨fun _ => rfl, rfl, rfl⟩ es
  have hrows : ∀ nowMs row, row ∈ (s.poll nowMs).2.sessions.rows.insertionSort (·.1 ≤ ·.1) ↔
      ∃ w, h.watch row.1 = some w ∧ w.slot = row.2 := by
    intro nowMs row
    have hget : (row.1, row.2) ∈ s.sessions.rows ↔
        ∃ w, h.watch row.1 = some w ∧ w.slot = row.2 := by
      rw [← Table.get?_eq_some, hs.sessions, Option.map_eq_some_iff]
    have hpoll : (s.poll nowMs).2.sessions = s.sessions := by
      unfold Supervisor.poll
      split <;> rfl
    rwa [mem_insertionSort, hpoll]
  refine ⟨fun nowMs id hlaunch => ?_, fun nowMs d hidle m => ?_, fun id w nowMs hw => ?_,
    hs.restarts⟩
  · obtain ⟨slot, hmem, hrun, hdue⟩ := launch_of_due hlaunch
    obtain ⟨w, hw, rfl⟩ := (hrows nowMs _).mp hmem
    exact ⟨w, hw, hrun, hdue⟩
  · rw [min?_of_due hidle, Option.toList_none, nil_append, min?_eq_some_iff]
    have hset : ∀ t, t ∈ waiting ((s.poll nowMs).2.sessions.rows.insertionSort (·.1 ≤ ·.1)) ↔
        ∃ id w, h.watch id = some w ∧ ¬ w.running ∧ w.deadline = t := by
      intro t
      rw [mem_waiting]
      constructor
      · rintro ⟨id, slot, hmem, hrun, rfl⟩
        obtain ⟨w, hw, rfl⟩ := (hrows nowMs _).mp hmem
        exact ⟨id, w, hw, hrun, rfl⟩
      · rintro ⟨id, w, hw, hrun, rfl⟩
        exact ⟨id, w.slot, (hrows nowMs _).mpr ⟨w, hw, rfl⟩, hrun, rfl⟩
    exact and_congr (hset m) (forall_congr' fun t => imp_congr_left (hset t))

  · rw [(hs.onExited id nowMs false).sessions]
    simp only [Watched.record, Watched.happens, Function.update_self, hw]
    rfl

/-- At the end of the clock, the deadline is not a second off. -/
theorem deadline_saturates :
    ((run Supervisor.step ⟨∅, 0, 0⟩ [.logon 1 0, .launched 1 (2 ^ 64 - 2),
      .exited 1 (2 ^ 64 - 1) false]).sessions.get? 1).map Slot.nextAttemptMs ≠
      some (2 ^ 64 - 1 + 1000) := by
  decide +kernel

end Sentinel.Service
