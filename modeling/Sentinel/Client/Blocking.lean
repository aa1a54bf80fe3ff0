import Sentinel.Client.Turns

/-!
# What a pass leaves behind

A pass reads the first forty rows of a call that are not acknowledged, sent or not, and sends of
them what is new. So while forty rows are sent and not acknowledged, nothing behind them is read.
-/

open List

namespace Sentinel

def ClientFrame.carries (c : CallId) : ClientFrame → Bool
  | .media records => records.any fun m => m.callId = c
  | _ => false

namespace Uplink

variable {u v : Uplink} {p : SendPass} {c d : CallId} {now : Nat} {budget : Option Nat}

def isNew (u : Uplink) (c : CallId) (r : SegmentRow) : Bool :=
  picks (u.resumePointFor c) u r && encodable r

theorem outgoing_eq_filter (c : CallId) (u : Uplink) :
    outgoing c u = (u.spool.takePending c segmentsPerPass).filter (u.isNew c) := by
  rw [outgoing, selected, filter_filter]
  exact filter_congr fun r _ => Bool.and_comm _ _

theorem any_carries_mediaFrames :
    (mediaFrames d u).any (·.carries c) = true ↔ d = c ∧ outgoing d u ≠ [] := by
  have hflat := (batches_spec ((outgoing d u).map toRecord)).1
  have hrecords : (mediaFrames d u).any (·.carries c) =
      ((outgoing d u).map toRecord).any fun m => m.callId = c := by
    conv_rhs => rw [← hflat]
    rw [mediaFrames, any_map, any_flatten]
    rfl
  rw [hrecords, any_map, any_eq_true]
  constructor
  · rintro ⟨r, hr, hcall⟩
    have hd : r.1.callId = d := (mem_outgoing hr).2.1
    exact ⟨hd.symm.trans (of_decide_eq_true hcall), ne_nil_of_mem hr⟩
  rintro ⟨rfl, hne⟩
  obtain ⟨r, hr⟩ := exists_mem_of_ne_nil _ hne
  exact ⟨r, hr, decide_eq_true (mem_outgoing hr).2.1⟩

theorem any_carries_startFrames : (startFrames d u).any (·.carries c) = false := by
  unfold startFrames
  split
  · rfl
  · cases u.spool.callStartJson d <;> rfl

theorem any_carries_endFrames : (endFrames d u).any (·.carries c) = false := by
  unfold endFrames
  split
  · rfl
  · cases u.spool.callEndJson d <;> rfl

theorem any_carries_turnFrames : (turnFrames now d u).any (·.carries c) = true ↔
    d = c ∧ u.spool.isSealed d = false ∧ holds now d (opened now d u) = false ∧
      outgoing d (opened now d u) ≠ [] := by
  unfold turnFrames
  cases hsealed : u.spool.isSealed d with
  | true => simp
  | false =>
    rw [if_neg Bool.false_ne_true, any_append, any_carries_startFrames, Bool.false_or]
    cases hholds : holds now d (opened now d u) with
    | true => simp
    | false =>
      rw [if_neg Bool.false_ne_true, any_append, any_carries_endFrames, Bool.or_false,
        any_carries_mediaFrames]
      simp

structure Ready (u : Uplink) (c : CallId) : Prop where
  started : c ∈ u.startedThisConnection
  resumed : u.awaitingResume.get? c = none

theorem Ready.opened (h : u.Ready c) (now : Nat) : Uplink.opened now c u = u := by
  rw [Uplink.opened, startFrames, if_pos h.started, if_pos rfl]

theorem Ready.holds (h : u.Ready c) (now : Nat) : Uplink.holds now c u = false := by
  rw [Uplink.holds, h.resumed]
  rfl

theorem Ready.sameFor (h : u.Ready c) (hsame : SameFor c u v) : v.Ready c :=
  ⟨hsame.started.mpr h.started, hsame.awaiting.trans h.resumed⟩

theorem Ready.afterTurn (h : u.Ready c) (now : Nat)
    (hquiet : u.spool.isSealed c = true ∨ outgoing c u = []) :
    (Uplink.afterTurn now c u).Ready c ∧
      outgoing c (Uplink.afterTurn now c u) = outgoing c u := by
  unfold Uplink.afterTurn
  rw [h.opened, h.holds]
  split
  · exact ⟨⟨h.started, h.resumed⟩, rfl⟩
  rename_i hsealed
  rw [if_neg Bool.false_ne_true, hquiet.resolve_left hsealed, closed]
  have hnone := hquiet.resolve_left hsealed
  split
  · exact ⟨⟨h.started, Table.get?_erase_self _ _⟩, hnone⟩
  · exact ⟨⟨h.started, Table.get?_erase_self _ _⟩, hnone⟩

theorem spool_afterTurn (now : Nat) (d : CallId) (u : Uplink) :
    (Uplink.afterTurn now d u).spool = u.spool :=
  (sendCall_writes now d { up := u }).spool

theorem Ready.any_carries_turns (h : u.Ready c) (cs : List CallId) :
    (turns now cs u).any (·.carries c) = true ↔
      c ∈ cs ∧ u.spool.isSealed c = false ∧ outgoing c u ≠ [] := by
  induction cs generalizing u with
  | nil => simp [turns]
  | cons d cs ih =>
    rw [turns, any_append, Bool.or_eq_true, any_carries_turnFrames]
    by_cases hd : d = c
    · subst hd
      rw [h.opened, h.holds]
      by_cases hsends : u.spool.isSealed d = false ∧ outgoing d u ≠ []
      · simp [hsends]
      have hquiet : u.spool.isSealed d = true ∨ outgoing d u = [] := by
        rwa [not_and_or, Bool.not_eq_false, not_not] at hsends
      obtain ⟨hready, hsame⟩ := h.afterTurn now hquiet
      rw [ih hready, hsame, spool_afterTurn]
      simp [hsends]
    have hsame := sameFor_afterTurn (c := d) (d := c) now u (Ne.symm hd)
    rw [ih (h.sameFor hsame), hsame.outgoing_eq, hsame.spool]
    simp [hd, Ne.symm hd]

theorem any_carries_out (hok : u.sendPending now budget = .ok p) (hready : u.Ready c) :
    p.out.any (·.carries c) = true ↔
      c ∈ u.passCalls ∧ u.spool.isSealed c = false ∧ outgoing c u ≠ [] := by
  have hout := ((sendPending_writes u now budget).ok p hok).1
  have hready' : ({ u with knownCalls := u.passCalls } : Uplink).Ready c :=
    ⟨hready.started, hready.resumed⟩
  rw [hout, nil_append, passFrames]
  exact hready'.any_carries_turns u.passCalls

/-- **When a pass sends something of a call.** -/
theorem carries_iff (u : Uplink) (c : CallId) (now : Nat) (budget : Option Nat) (p : SendPass)
    (hok : u.sendPending now budget = .ok p) (hready : u.Ready c) :
    p.out.any (·.carries c) = true ↔ c ∈ u.passCalls ∧ u.spool.isSealed c = false ∧
      ∃ r ∈ u.spool.takePending c segmentsPerPass, u.isNew c r = true := by
  have hnew : outgoing c u ≠ [] ↔
      ∃ r ∈ u.spool.takePending c segmentsPerPass, u.isNew c r = true := by
    rw [outgoing_eq_filter, ne_eq, filter_eq_nil_iff]
    push Not
    rfl
  rw [any_carries_out hok hready, hnew]

def behindForty : Uplink where
  spool := (List.range 41).foldl
    (fun s q => s.insert (⟨"call-1", .far, q⟩, ⟨1000 * q, {}, [], 1000 * q⟩))
    (Spool.beginCall {} "call-1"
      { callId := "call-1", startedAt := "", userUid := "alice", deviceId := "dev-1" } 0)
  connected := true

theorem behindForty_ready : (afterPass 0 behindForty).Ready "call-1" :=
  ⟨by decide +kernel, by decide +kernel⟩

/-- The first pass sends forty of them. -/
theorem behindForty_blocked : ∃ p₁ p₂, behindForty.sendPending 0 none = .ok p₁ ∧
    p₁.up.sendPending 50 none = .ok p₂ ∧ p₁.up.Ready "call-1" ∧
    (∃ r ∈ p₁.up.spool.segments.rows, r.1.callId = "call-1" ∧ p₁.up.isNew "call-1" r = true) ∧
    p₂.out.any (·.carries "call-1") = false := by
  obtain ⟨p₁, hp₁⟩ := sendPending_holds behindForty 0
  obtain ⟨p₂, hp₂⟩ := sendPending_holds p₁.up 50
  have hup : p₁.up = afterPass 0 behindForty := ((sendPending_writes _ _ _).ok p₁ hp₁).2
  have hready : p₁.up.Ready "call-1" := hup ▸ behindForty_ready
  refine ⟨p₁, p₂, hp₁, hp₂, hready, ?_, ?_⟩
  · rw [hup]
    decide +kernel
  · rw [← Bool.not_eq_true, any_carries_out hp₂ hready, hup]
    decide +kernel

/-- The first pass over the same segments, with the call started, sends something. -/
theorem carries_iff_started : ∃ p,
    sendPending { behindForty with startedThisConnection := ["call-1"] } 0 none = .ok p ∧
      p.out.any (·.carries "call-1") = true := by
  obtain ⟨p, hp⟩ := sendPending_holds { behindForty with startedThisConnection := ["call-1"] } 0
  refine ⟨p, hp, (carries_iff _ "call-1" 0 none p hp ⟨by decide, rfl⟩).mpr ?_⟩
  decide +kernel

end Uplink

end Sentinel
