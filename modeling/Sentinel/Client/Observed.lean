import Sentinel.Client.Pump
import Sentinel.Client.Turns
import Sentinel.Lib.Runs

/-!
# A connection, observed

What the uplink does with a connection is a history of `Moment`s: clock readings of passes, frames
sent and messages received. `Observed` is an uplink with the history of its connection.
-/

open List

namespace Sentinel

open History

inductive Moment where
  | pass (nowMs : Nat)
  | started (nowMs : Nat) (cs : CallStart) (acked : Bool)
  | media (records : List MediaRecord)
  | ended (ce : CallEnd)
  | other
  | got (m : ServerMessage)
  deriving DecidableEq

namespace Moment

def Opened (c : CallId) (t : List Moment) : Prop := ∃ s cs k, started s cs k ∈ t ∧ cs.callId = c

def Closed (c : CallId) (t : List Moment) : Prop := ∃ ce, ended ce ∈ t ∧ ce.callId = c

def seqsOf (c : CallId) (ch : Channel) (t : List Moment) : List Nat :=
  t.flatMap fun
    | media records => (records.filter fun r => r.callId = c ∧ r.channel = ch).map (·.seq)
    | _ => []

def Answered (c : CallId) (s : Nat) (t : List Moment) : Prop :=
  (∃ acked, got (.resume c acked) ∈ t) ∨ ∃ m, pass m ∈ t ∧ s + 5000 ≤ m

def ClockOut (s : Nat) (t : List Moment) : Prop :=
  2 ^ 64 - 1 ≤ s ∨ ∃ m, pass m ∈ t ∧ 2 ^ 64 - 1 ≤ m

def Waited (c : CallId) (s : Nat) (t : List Moment) : Prop := Answered c s t ∨ ClockOut s t

def Allowed (W : CallId → Nat → List Moment → Prop) (past : List Moment) : Moment → Prop
  | media records => ∀ r ∈ records, Opened r.callId past ∧
      ∀ a s cs b, past = a ++ started s cs true :: b → cs.callId = r.callId → W cs.callId s b
  | ended ce => Opened ce.callId past ∧ ¬ Closed ce.callId past
  | _ => True

structure InOrder (W : CallId → Nat → List Moment → Prop) (t : List Moment) : Prop where
  allowed : Each (Allowed W) t
  increasing : ∀ c ch, (seqsOf c ch t).Pairwise (· < ·)

/-! ## Histories end to end -/

variable {c : CallId} {t l : List Moment}

theorem opened_append : Opened c (t ++ l) ↔ Opened c t ∨ Opened c l := by
  simp only [Opened, mem_append]
  constructor
  · rintro ⟨s, cs, k, h | h, hc⟩
    · exact .inl ⟨s, cs, k, h, hc⟩
    · exact .inr ⟨s, cs, k, h, hc⟩
  rintro (⟨s, cs, k, h, hc⟩ | ⟨s, cs, k, h, hc⟩)
  · exact ⟨s, cs, k, .inl h, hc⟩
  · exact ⟨s, cs, k, .inr h, hc⟩

theorem closed_append : Closed c (t ++ l) ↔ Closed c t ∨ Closed c l := by
  simp only [Closed, mem_append]
  constructor
  · rintro ⟨ce, h | h, hc⟩
    · exact .inl ⟨ce, h, hc⟩
    · exact .inr ⟨ce, h, hc⟩
  rintro (⟨ce, h, hc⟩ | ⟨ce, h, hc⟩)
  · exact ⟨ce, .inl h, hc⟩
  · exact ⟨ce, .inr h, hc⟩

@[simp] theorem seqsOf_append (ch : Channel) :
    seqsOf c ch (t ++ l) = seqsOf c ch t ++ seqsOf c ch l :=
  flatMap_append

theorem Waited.append {s : Nat} (h : Waited c s t) (l : List Moment) : Waited c s (t ++ l) := by
  rcases h with (⟨acked, h⟩ | ⟨m, h, hm⟩) | (h | ⟨m, h, hm⟩)
  · exact .inl (.inl ⟨acked, mem_append_left _ h⟩)
  · exact .inl (.inr ⟨m, mem_append_left _ h, hm⟩)
  · exact .inr (.inl h)
  · exact .inr (.inr ⟨m, mem_append_left _ h, hm⟩)

variable {W : CallId → Nat → List Moment → Prop}

theorem InOrder.of_prefix (h : InOrder W t) (hl : l <+: t) : InOrder W l := by
  refine ⟨h.allowed.of_prefix hl, fun c ch => ?_⟩
  obtain ⟨rest, rfl⟩ := hl
  have hall := h.increasing c ch
  rw [seqsOf_append] at hall
  exact (pairwise_append.mp hall).1

def quiet : Moment → Bool
  | pass _ => true
  | other => true
  | got _ => true
  | _ => false

theorem InOrder.quiet {m : Moment} (h : InOrder W t) (hm : m.quiet) : InOrder W (t ++ [m]) := by
  cases m with
  | pass s =>
    exact ⟨h.allowed.concat trivial, fun c ch => by simpa [seqsOf] using h.increasing c ch⟩
  | other | got =>
    exact ⟨h.allowed.concat trivial, fun c ch => by simpa [seqsOf] using h.increasing c ch⟩
  | started | media | ended => cases hm

end Moment

open Moment

/-! ## An observed uplink -/

def Uplink.observed (nowMs : Nat) (u : Uplink) : ClientFrame → Moment
  | .callStart cs => .started nowMs cs (locallyAcked cs.callId u)
  | .media records => .media records
  | .callEnd ce => .ended ce
  | _ => .other

def Uplink.heard (u : Uplink) (nowMs : Nat) (env : PumpEnv) (incoming : List ServerMessage) :
    List ServerMessage :=
  match u.sender.sendPending nowMs env.budget with
  | .ok _ => readable incoming
  | .error _ => []

inductive UplinkOp where
  | beginCall (cs : CallStart) (nowMs : Nat)
  | push (row : SegmentRow)
  | endCall (ce : CallEnd)
  | pump (nowMs : Nat) (env : Uplink.PumpEnv) (incoming : List ServerMessage)
  | takeEvents
  | restart

structure Observed where
  up : Uplink
  trace : List Moment := []

namespace Observed

def pump (o : Observed) (nowMs : Nat) (env : Uplink.PumpEnv) (incoming : List ServerMessage) :
    Observed :=
  let r := o.up.pump nowMs env incoming
  if o.up.connected || o.up.dials nowMs env then
    { up := r.up
      trace := (if o.up.connected then o.trace else []) ++ .pass nowMs ::
        r.out.map (o.up.observed nowMs) ++ (o.up.heard nowMs env incoming).map .got }
  else { o with up := r.up }

def step (o : Observed) : UplinkOp → Observed
  | .beginCall cs nowMs => { o with up := o.up.beginCall cs.callId cs nowMs }
  | .push row =>
    match o.up.pushSegment row with
    | .ok up => { o with up }
    | .error _ => o
  | .endCall ce => { o with up := o.up.endCall ce.callId ce }
  | .pump nowMs env incoming => o.pump nowMs env incoming
  | .takeEvents => { o with up := { o.up with events := [] } }
  | .restart => { o with up := .new o.up.spool }

end Observed

end Sentinel
