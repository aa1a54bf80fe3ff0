import Sentinel.Lib.Runs
import Sentinel.Capture.Pipeline

/-!
# The agent

The agent (`agent.rs`) owns the pipeline, the uplink and the identity gate (`identity.rs`), and
advances them on one tick.
-/

namespace Sentinel

open Capture
open Faults (Budget)

/-! ## The identity gate -/

inductive IdentityStatus where
  | online
  | grace (remainingMs : Nat)
  | expired
  | blocked (reason : BlockReason)
  deriving DecidableEq, Repr

namespace IdentityStatus

def mayCapture : IdentityStatus → Bool
  | .online | .grace _ => true
  | _ => false

def blockReason : IdentityStatus → Option BlockReason
  | .online | .grace _ => none
  | .expired => some .offlineGraceExpired
  | .blocked r => some r

end IdentityStatus

structure IdentityGate where
  graceMs : Nat
  lastVerifiedMs : Option Nat := none
  signedIn : Bool := false
  deviceRevoked : Bool := false
  pinnedDevicePresent : Bool := false
  deriving DecidableEq, Repr

namespace IdentityGate

def new (graceMs : Nat) : IdentityGate := { graceMs }

def observeVerified (g : IdentityGate) (now : Nat) : IdentityGate :=
  { g with lastVerifiedMs := some now }

def setSignedIn (g : IdentityGate) (signedIn : Bool) : IdentityGate :=
  { g with signedIn, lastVerifiedMs := if signedIn then g.lastVerifiedMs else none }

def setDeviceRevoked (g : IdentityGate) (revoked : Bool) : IdentityGate :=
  { g with deviceRevoked := revoked }

def setPinnedDevicePresent (g : IdentityGate) (present : Bool) : IdentityGate :=
  { g with pinnedDevicePresent := present }

def status (g : IdentityGate) (now : Nat) : IdentityStatus :=
  -- Revocation outranks everything.
  if g.deviceRevoked then .blocked .deviceRevoked
  else if !g.signedIn then .blocked .signedOut
  else if !g.pinnedDevicePresent then .blocked .pinnedDeviceMissing
  else
    match g.lastVerifiedMs with
    | none => .expired
    | some last =>
      if now - last = 0 then .online
      else if now - last < g.graceMs then .grace (g.graceMs - (now - last))
      else .expired

def VerifiedWithin (g : IdentityGate) (now : Nat) : Prop :=
  ∃ last ∈ g.lastVerifiedMs, now - last = 0 ∨ now - last < g.graceMs

instance (g : IdentityGate) (now : Nat) : Decidable (g.VerifiedWithin now) :=
  inferInstanceAs (Decidable (∃ _ ∈ _, _))

theorem mayCapture_status_iff (g : IdentityGate) (now : Nat) :
    (g.status now).mayCapture = true ↔ g.deviceRevoked = false ∧ g.signedIn = true ∧
      g.pinnedDevicePresent = true ∧ g.VerifiedWithin now := by
  unfold status VerifiedWithin
  by_cases hrevoked : g.deviceRevoked = true
  · simp [hrevoked, IdentityStatus.mayCapture]
  by_cases hsigned : g.signedIn = true
  swap
  · simp [hrevoked, hsigned, IdentityStatus.mayCapture]
  by_cases hpresent : g.pinnedDevicePresent = true
  swap
  · simp [hrevoked, hsigned, hpresent, IdentityStatus.mayCapture]
  cases hlast : g.lastVerifiedMs with
  | none => simp [hrevoked, hsigned, hpresent, IdentityStatus.mayCapture]
  | some last =>
    by_cases hzero : now - last = 0
    · simp [hrevoked, hsigned, hpresent, hzero, IdentityStatus.mayCapture]
    by_cases hgrace : now - last < g.graceMs <;>
      simp [hrevoked, hsigned, hpresent, hzero, hgrace, IdentityStatus.mayCapture]

end IdentityGate

/-! ## The agent's state -/

variable {α : Type} {dsp : Dsp α}

structure Agent (dsp : Dsp α) where
  book : Recorder α
  auth : Option String
  gate : IdentityGate
  pipeline : Option (Pipeline dsp) := none
  policy : Policy
  deviceId : String
  clockMs : Nat := 0
  lastHeartbeatMs : Option Nat := none
  lastCallAt : Option String := none
  dialerSessionActive : Bool := false
  pinnedDevicePresent : Bool := false
  pendingEvents : List ClientEvent := []
  revoked : Bool := false

namespace Agent

def new (u : Uplink) (auth : Option String) (policy : Policy) (deviceId : String) :
    Agent dsp where
  book := ⟨u, []⟩
  auth := auth
  gate := (IdentityGate.new policy.offlineGraceMs).setSignedIn auth.isSome
  policy := policy
  deviceId := deviceId

def captureState (a : Agent dsp) : CallState :=
  match a.pipeline with
  | some p => p.detector.state
  | none => .blocked

structure OpenEnv where
  devices : List AudioDevice
  budget : Budget := none
  tier : CaptureTier
  userUid : String

def openCapture (a : Agent dsp) (env : OpenEnv) : Agent dsp :=
  let opened := (Pipeline.new a.policy env.tier a.deviceId env.userUid : Pipeline dsp).openPinned
    ⟨a.policy, env.devices, env.budget⟩
  if opened.2 then { a with pinnedDevicePresent := true, pipeline := some opened.1 }
  else
    { a with
      pinnedDevicePresent := false
      pendingEvents := a.pendingEvents ++ opened.1.events
      pipeline := none }

def onSessionState (a : Agent dsp) (active : Bool) : Agent dsp :=
  { a with
    dialerSessionActive := active
    pipeline := a.pipeline.map (·.onSessionState active) }

def onSignedIn (a : Agent dsp) (uid : String) : Agent dsp :=
  { a with
    gate := a.gate.setSignedIn true
    pipeline := a.pipeline.map (·.onUserChanged uid) }

structure SignOutEnv where
  flushed : Uplink
  clears : Bool := true

def signOut (a : Agent dsp) (env : SignOutEnv) : Except (Agent dsp) (Agent dsp) :=
  let a := { a with book := { a.book with uplink := env.flushed } }
  if env.clears then
    .ok
      { a with
        auth := none
        pipeline := a.pipeline.map (·.block .signedOut)
        gate := a.gate.setSignedIn false }
  else .error a

/-! ## The tick -/

inductive HeartbeatReply where
  | accepted
  | forbidden
  | failed
  deriving DecidableEq, Repr

structure TickEnv (α : Type) where
  now : Nat
  source : Option (StepEnv α) := none
  pump : Uplink.PumpEnv := {}
  incoming : List ServerMessage := []
  heartbeat : HeartbeatReply := .failed
  wallClock : String := ""
  widgetFails : Bool := false
  signOuts : List SignOutEnv := []

structure TickResult where
  segmentsSpooled : Nat := 0
  segmentsSent : Nat := 0
  segmentsAcked : Nat := 0
  heartbeatSent : Bool := false
  captureState : Option CallState := none
  signedOut : Bool := false
  deriving DecidableEq, Repr

structure Tick (dsp : Dsp α) where
  agent : Agent dsp
  result : TickResult := {}
  ranCapture : Bool := false

def gatePipeline (status : IdentityStatus) (p : Pipeline dsp) : Pipeline dsp :=
  match status.blockReason with
  | some reason => if p.detector.state ≠ .blocked then p.block reason else p
  | none => if p.detector.state = .blocked then p.unblock else p

namespace Tick

def capture [Inhabited α] (t : Tick dsp) (env : TickEnv α) (status : IdentityStatus) :
    Except (Tick dsp) (Tick dsp) :=
  match status.mayCapture, t.agent.pipeline, env.source with
  | true, some p, some source =>
    match Work.step ⟨p, t.agent.book, source.budget, {}⟩ source with
    | .error w =>
      .error { t with
        agent := { t.agent with pipeline := some w.pipeline, book := w.book }
        ranCapture := true }
    | .ok w =>
      let ended : Bool := match w.result.transition with
        | some (.callEnded _) => true
        | _ => false
      .ok { t with
        agent := { t.agent with
          pipeline := some w.pipeline
          book := w.book
          lastCallAt := if ended then some env.wallClock else t.agent.lastCallAt }
        result := { t.result with segmentsSpooled := w.result.segmentsSpooled }
        ranCapture := true }
  | _, _, _ => .ok t

def collect (t : Tick dsp) : Tick dsp :=
  { t with
    agent := { t.agent with
      pendingEvents := t.agent.pendingEvents ++ (t.agent.pipeline.map (·.events)).getD []
      pipeline := t.agent.pipeline.map fun p => { p with events := [] } }
    result := { t.result with captureState := some t.agent.captureState } }

def pump (t : Tick dsp) (env : TickEnv α) : Tick dsp :=
  if t.agent.revoked then
    { t with agent := { t.agent with gate := t.agent.gate.setDeviceRevoked true } }
  else
    let pumped := t.agent.book.uplink.pump env.now env.pump env.incoming
    let gate := if pumped.outcome.verified then t.agent.gate.observeVerified env.now
      else t.agent.gate
    { t with
      agent := { t.agent with
        book := { t.agent.book with uplink := { pumped.up with events := [] } }
        pendingEvents := t.agent.pendingEvents ++ pumped.up.events
        revoked := pumped.outcome.deviceRevoked
        gate := if pumped.outcome.deviceRevoked then gate.setDeviceRevoked true else gate }
      result := { t.result with
        segmentsSent := pumped.outcome.sent
        segmentsAcked := pumped.outcome.acked } }

def heartbeatIntervalMs : Nat := 30000

def sendHeartbeat (t : Tick dsp) (env : TickEnv α) : Tick dsp :=
  match t.agent.auth with
  | none => t
  | some _ =>
    match env.heartbeat with
    | .accepted =>
      { t with
        agent := { t.agent with
          pendingEvents := []
          gate := t.agent.gate.observeVerified env.now }
        result := { t.result with heartbeatSent := true } }
    | .forbidden =>
      { t with
        agent := { t.agent with
          pendingEvents := []
          revoked := true
          gate := t.agent.gate.setDeviceRevoked true } }
    | .failed => t

def heartbeat (t : Tick dsp) (env : TickEnv α) : Tick dsp :=
  let due : Bool := t.agent.lastHeartbeatMs.all fun last => heartbeatIntervalMs ≤ env.now - last
  if due then
    { t with agent := { t.agent with lastHeartbeatMs := some env.now } }.sendHeartbeat env
  else t

def signOuts : List SignOutEnv → Tick dsp → Except (Tick dsp) (Tick dsp)
  | [], t => .ok t
  | env :: rest, t =>
    match t.agent.signOut env with
    | .error a => .error { t with agent := a }
    | .ok a => signOuts rest { t with agent := a, result := { t.result with signedOut := true } }

def widget (t : Tick dsp) (env : TickEnv α) : Except (Tick dsp) (Tick dsp) :=
  if env.widgetFails then .error t else t.signOuts env.signOuts

end Tick

def tick [Inhabited α] (a : Agent dsp) (env : TickEnv α) : Except (Tick dsp) (Tick dsp) :=
  let a := { a with clockMs := env.now }
  let status := a.gate.status env.now
  let a := { a with pipeline := a.pipeline.map (gatePipeline status) }
  (Tick.capture { agent := a } env status).bind fun t =>
    (((t.collect).pump env).heartbeat env).widget env

def Tick.either : Except (Tick dsp) (Tick dsp) → Tick dsp
  | .ok t | .error t => t

def ticked [Inhabited α] (a : Agent dsp) (env : TickEnv α) : Tick dsp := .either (a.tick env)

/-! ## The machine -/

inductive Event (α : Type) where
  | openCapture (env : OpenEnv)
  | sessionState (active : Bool)
  | signedIn (uid : String)
  | signOut (env : SignOutEnv)
  | tick (env : TickEnv α)
  | recordEvent (ev : ClientEvent)
  | auth (user : Option String)
  | uplink (u : Uplink)

def step [Inhabited α] (a : Agent dsp) : Event α → Agent dsp
  | .openCapture env => a.openCapture env
  | .sessionState active => a.onSessionState active
  | .signedIn uid => a.onSignedIn uid
  | .signOut env =>
    match a.signOut env with
    | .ok a | .error a => a
  | .tick env => (a.ticked env).agent
  | .recordEvent ev => { a with pendingEvents := a.pendingEvents ++ [ev] }
  | .auth user => { a with auth := user }
  | .uplink u => { a with book := { a.book with uplink := u } }

/-! ## When a tick captures -/

def Eligible (a : Agent dsp) (now : Nat) : Prop :=
  (∃ p ∈ a.pipeline, a.auth = some p.userUid) ∧ a.pinnedDevicePresent = true ∧
    a.gate.signedIn = true ∧ a.revoked = false ∧ a.gate.deviceRevoked = false ∧
    a.gate.VerifiedWithin now

instance (a : Agent dsp) (now : Nat) : Decidable (a.Eligible now) :=
  inferInstanceAs (Decidable (_ ∧ _))

section Ticks

variable [Inhabited α]

def CapturesWhenEligible (a : Agent dsp) (env : TickEnv α) : Prop :=
  a.Eligible env.now → env.source.isSome = true → (a.ticked env).ranCapture = true

instance (a : Agent dsp) (env : TickEnv α) : Decidable (a.CapturesWhenEligible env) :=
  inferInstanceAs (Decidable (_ → _))

end Ticks

namespace Tick

structure Keeps (t t' : Tick dsp) : Prop where
  ranCapture : t'.ranCapture = t.ranCapture
  present : t'.agent.gate.pinnedDevicePresent = t.agent.gate.pinnedDevicePresent

theorem Keeps.trans {t t' t'' : Tick dsp} (h : Keeps t t') (h' : Keeps t' t'') : Keeps t t'' :=
  ⟨h'.ranCapture.trans h.ranCapture, h'.present.trans h.present⟩

variable (t : Tick dsp)

theorem collect_keeps : Keeps t t.collect := ⟨rfl, rfl⟩

theorem pump_keeps (env : TickEnv α) : Keeps t (t.pump env) := by
  unfold pump
  split
  · exact ⟨rfl, rfl⟩
  refine ⟨rfl, ?_⟩
  dsimp only
  split_ifs <;> rfl

theorem sendHeartbeat_keeps (env : TickEnv α) : Keeps t (t.sendHeartbeat env) := by
  unfold sendHeartbeat
  split
  · exact ⟨rfl, rfl⟩
  · split <;> exact ⟨rfl, rfl⟩

theorem heartbeat_keeps (env : TickEnv α) : Keeps t (t.heartbeat env) := by
  unfold heartbeat
  dsimp only
  split
  · have h := sendHeartbeat_keeps
      { t with agent := { t.agent with lastHeartbeatMs := some env.now } } env
    exact ⟨h.ranCapture, h.present⟩
  · exact ⟨rfl, rfl⟩

end Tick

theorem signOut_present (a : Agent dsp) (env : SignOutEnv) {a' : Agent dsp}
    (h : a.signOut env = .ok a' ∨ a.signOut env = .error a') :
    a'.gate.pinnedDevicePresent = a.gate.pinnedDevicePresent := by
  unfold signOut at h
  cases hc : env.clears <;> simp only [hc] at h <;> rcases h with h | h <;> cases h <;> rfl

namespace Tick

theorem signOuts_keeps (envs : List SignOutEnv) (t : Tick dsp) :
    Keeps t (either (t.signOuts envs)) := by
  induction envs generalizing t with
  | nil => exact ⟨rfl, rfl⟩
  | cons env rest ih =>
    unfold signOuts
    split
    · rename_i a ha
      exact ⟨rfl, signOut_present _ env (.inr ha)⟩
    rename_i a ha
    have h := ih { t with agent := a, result := { t.result with signedOut := true } }
    exact ⟨h.ranCapture, h.present.trans (signOut_present _ env (.inl ha))⟩

theorem widget_keeps (t : Tick dsp) (env : TickEnv α) : Keeps t (either (t.widget env)) := by
  unfold widget
  split
  · exact ⟨rfl, rfl⟩
  · exact signOuts_keeps _ t

variable [Inhabited α]

theorem capture_present (t : Tick dsp) (env : TickEnv α) (status : IdentityStatus) :
    (either (t.capture env status)).agent.gate = t.agent.gate := by
  unfold capture
  split
  · split <;> rfl
  · rfl

theorem capture_ranCapture (t : Tick dsp) (env : TickEnv α) (status : IdentityStatus) :
    (either (t.capture env status)).ranCapture = (t.ranCapture ||
      status.mayCapture && t.agent.pipeline.isSome && env.source.isSome) := by
  unfold capture
  split
  · rename_i hmay hp hs
    rw [hmay, hp, hs]
    split <;> simp [either]
  rename_i hnot
  cases hmay : status.mayCapture with
  | false => simp [either]
  | true =>
    cases hp : t.agent.pipeline with
    | none => simp [either]
    | some p =>
      cases hs : env.source with
      | none => simp [either]
      | some source => exact absurd hs (hnot p source hmay hp)

end Tick

section Results

variable [Inhabited α]

variable (a : Agent dsp)

theorem ticked_spec (env : TickEnv α) :
    (a.ticked env).ranCapture = ((a.gate.status env.now).mayCapture && a.pipeline.isSome &&
        env.source.isSome) ∧
      (a.ticked env).agent.gate.pinnedDevicePresent = a.gate.pinnedDevicePresent := by
  set t0 : Tick dsp := { agent := { a with
    clockMs := env.now
    pipeline := a.pipeline.map (gatePipeline (a.gate.status env.now)) } } with ht0
  have hran := t0.capture_ranCapture env (a.gate.status env.now)
  have hgate := t0.capture_present env (a.gate.status env.now)
  have hrest : Tick.Keeps (Tick.either (t0.capture env (a.gate.status env.now)))
      (a.ticked env) := by
    change Tick.Keeps _ (Tick.either ((t0.capture env (a.gate.status env.now)).bind _))
    cases t0.capture env (a.gate.status env.now) with
    | error t => exact ⟨rfl, rfl⟩
    | ok t =>
      exact (t.collect_keeps.trans (Tick.pump_keeps _ env)).trans
        ((Tick.heartbeat_keeps _ env).trans (Tick.widget_keeps _ env))
  refine ⟨?_, ?_⟩
  · rw [hrest.ranCapture, hran, ht0]
    simp
  · rw [hrest.present, hgate]

theorem step_present (e : Event α) :
    (a.step e).gate.pinnedDevicePresent = a.gate.pinnedDevicePresent := by
  cases e with
  | openCapture env =>
    simp only [step, openCapture]
    split <;> rfl
  | tick env => exact (a.ticked_spec env).2
  | signOut env =>
    simp only [step]
    split
    · rename_i ha
      exact signOut_present a env (.inl ha)
    rename_i ha
    exact signOut_present a env (.inr ha)
  | _ => rfl

theorem run_present (es : List (Event α)) :
    (Runs.run step a es).gate.pinnedDevicePresent = a.gate.pinnedDevicePresent := by
  induction es generalizing a with
  | nil => rfl
  | cons e es ih => exact (ih _).trans (step_present a e)

/-- **No tick ever captures.** -/
theorem tick_never_captures (u : Uplink) (auth : Option String) (policy : Policy)
    (deviceId : String) (es : List (Event α)) (env : TickEnv α) :
    ((Runs.run step (new u auth policy deviceId : Agent dsp) es).ticked env).ranCapture =
      false := by
  set a := Runs.run step (new u auth policy deviceId : Agent dsp) es with ha
  have hflag : a.gate.pinnedDevicePresent = false := run_present _ es
  have hmay : (a.gate.status env.now).mayCapture = false := by
    rw [← Bool.not_eq_true, IdentityGate.mayCapture_status_iff, hflag]
    simp
  rw [(a.ticked_spec env).1, hmay, Bool.false_and, Bool.false_and]

end Results

/-! ## A concrete run -/

def readyRun : List (Event Int) :=
  [.auth (some "alice"), .signedIn "alice",
    .openCapture { devices := headset.devices, tier := .A, userUid := "alice" },
    .tick { now := 0, heartbeat := .accepted }]

def readyTick : TickEnv Int where
  now := 20
  source := some { far := some [1], near := some [0], callId := "call-1" }

theorem readyRun_does_not_capture :
    ¬ CapturesWhenEligible (Runs.run step (new { spool := {} } none briskPolicy "device-1" :
      Agent (thresholdDsp fun a : Int => a ≠ 0)) readyRun) readyTick := by
  decide +kernel

end Agent

end Sentinel
