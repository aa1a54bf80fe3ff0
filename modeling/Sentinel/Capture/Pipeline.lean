import Sentinel.Client.Uplink
import Sentinel.Capture.Detector
import Sentinel.Capture.Encoder

/-!
# The capture pipeline

The pipeline (`pipeline.rs`) reads both channels, feeds the detector, encodes, and spools what
belongs to a call.
-/

namespace Sentinel.Capture

open Faults (Budget)

/-! ## Foreign audio -/

structure SuppressorParams where
  trailingGraceMs : Nat := 1500
  reportAfterMs : Nat := 2000

inductive Decision where
  | keep
  | markForeign
  deriving DecidableEq, Repr

structure ForeignAudioSuppressor where
  params : SuppressorParams := {}
  enabled : Bool := true
  sessionActive : Bool := false
  inactiveSinceMs : Option Nat := some 0
  activeSinceMs : Option Nat := none
  suppressedMs : Nat := 0
  unreportedMs : Nat := 0

namespace ForeignAudioSuppressor

def forTierA : ForeignAudioSuppressor := { enabled := false }

def setSessionActive (s : ForeignAudioSuppressor) (now : Nat) (active : Bool) :
    ForeignAudioSuppressor :=
  if active = s.sessionActive then s
  else
    { s with
      sessionActive := active
      activeSinceMs := if active then some now else none
      inactiveSinceMs := if active then none else some now }

def inTrailingGrace (s : ForeignAudioSuppressor) (now : Nat) : Bool :=
  s.inactiveSinceMs.any fun since => now - since < s.params.trailingGraceMs

def judge (s : ForeignAudioSuppressor) (now : Nat) (voiced : Bool) (durationMs : Nat) :
    ForeignAudioSuppressor × Decision :=
  if !s.enabled || s.sessionActive || s.inTrailingGrace now || !voiced then (s, .keep)
  else
    ({ s with
        suppressedMs := s.suppressedMs + durationMs
        unreportedMs := s.unreportedMs + durationMs }, .markForeign)

def takeEvent (s : ForeignAudioSuppressor) (now : Nat) :
    ForeignAudioSuppressor × Option ClientEvent :=
  if s.unreportedMs < s.params.reportAfterMs then (s, none)
  else
    ({ s with unreportedMs := 0 },
      some
        { kind := .foreignAudioSuppressed
          atMs := now
          count := some s.unreportedMs
          detail := some "loopback energy while the softphone session was inactive" })

end ForeignAudioSuppressor

/-! ## The pinned endpoint -/

inductive Direction where
  | render
  | capture
  deriving DecidableEq, Repr

structure AudioDevice where
  id : String
  containerId : Option String
  friendlyName : String
  direction : Direction
  active : Bool
  deriving DecidableEq, Repr

structure PinnedDevice where
  containerId : String
  friendlyName : Option String := none
  deriving DecidableEq, Repr

def resolvePinned (pinned : List PinnedDevice) (available : List AudioDevice)
    (direction : Direction) : Option AudioDevice :=
  (pinned.findSome? fun want => available.find? fun d =>
    d.direction = direction && d.active && d.containerId = some want.containerId) <|>
  (pinned.findSome? fun want => want.friendlyName.bind fun name => available.find? fun d =>
    d.direction = direction && d.active && d.friendlyName = name)

structure Policy where
  vad : VadConfig := {}
  pinnedDevices : List PinnedDevice := []
  offlineGraceHours : Nat := 8

def Policy.offlineGraceMs (policy : Policy) : Nat := policy.offlineGraceHours * 3600000

/-! ## The pipeline's state -/

variable {α : Type}

structure ChannelPipe (dsp : Dsp α) (ch : Channel) where
  vad : dsp.Vad := dsp.vad
  encoder : SegmentEncoder dsp ch := .new
  samplesSeen : Nat := 0
  ready : List (Segment α ch) := []

structure CurrentCall where
  callId : CallId
  startedAt : String
  deriving DecidableEq, Repr

structure Pipeline (dsp : Dsp α) where
  detector : Detector
  far : Option (ChannelPipe dsp .far) := none
  near : Option (ChannelPipe dsp .near) := none
  suppressor : ForeignAudioSuppressor
  tier : CaptureTier
  deviceId : String
  userUid : String
  clockMs : Nat := 0
  currentCall : Option CurrentCall := none
  events : List ClientEvent := []
  lastSeq : Channel → Option Nat := fun _ => none
  accountRef : Option String := none

namespace Pipeline

variable {dsp : Dsp α}

def new (policy : Policy) (tier : CaptureTier) (deviceId userUid : String) : Pipeline dsp where
  detector := ((Detector.new policy.vad).feed 0 (.userChanged userUid)).1
  suppressor := match tier with
    | .A => .forTierA
    | .B => {}
  tier := tier
  deviceId := deviceId
  userUid := userUid

def pipe (p : Pipeline dsp) : (ch : Channel) → Option (ChannelPipe dsp ch)
  | .far => p.far
  | .near => p.near

def setPipe (p : Pipeline dsp) : {ch : Channel} → Option (ChannelPipe dsp ch) → Pipeline dsp
  | .far, q => { p with far := q }
  | .near, q => { p with near := q }

def feed (p : Pipeline dsp) (input : DetectorInput) : Pipeline dsp :=
  { p with detector := (p.detector.feed p.clockMs input).1 }

/-! ## The operations that hand their transition back -/

def deviceLostEvent (p : Pipeline dsp) : ClientEvent where
  kind := .deviceLost
  atMs := p.clockMs

def onSessionState (p : Pipeline dsp) (active : Bool) : Pipeline dsp :=
  { p with suppressor := p.suppressor.setSessionActive p.clockMs active }.feed
    (.sessionState active)

def onUserChanged (p : Pipeline dsp) (uid : String) : Pipeline dsp :=
  { p with userUid := uid }.feed (.userChanged uid)

def block (p : Pipeline dsp) (reason : BlockReason) : Pipeline dsp := p.feed (.block reason)

def unblock (p : Pipeline dsp) : Pipeline dsp := p.feed .unblock

def onDeviceLost (p : Pipeline dsp) : Pipeline dsp :=
  { p with far := none, near := none, events := p.events ++ [p.deviceLostEvent] }.feed
    (.block .pinnedDeviceMissing)

structure OpenEnv where
  policy : Policy
  devices : List AudioDevice
  budget : Budget := none

def OpenEnv.present (env : OpenEnv) : Bool :=
  (resolvePinned env.policy.pinnedDevices env.devices .render).isSome &&
    (resolvePinned env.policy.pinnedDevices env.devices .capture).isSome

def openPipes (p : Pipeline dsp) (budget : Budget) : Pipeline dsp × Bool :=
  match budget.spend with
  | none => (p, false)
  | some left =>
    match left.spend with
    | none => ({ p with far := some {} }, false)
    | some _ => ({ p with far := some {}, near := some {} }.feed .unblock, true)

def openPinned (p : Pipeline dsp) (env : OpenEnv) : Pipeline dsp × Bool :=
  match env.budget.spend with
  -- The endpoints could not be enumerated.
  | none => (p, false)
  | some left =>
    if env.present then
      match left.spend.bind Budget.spend with
      -- One of the two streams did not open.
      | none => (p, false)
      | some left => p.openPipes left
    else
      ({ p.feed (.block .pinnedDeviceMissing) with
          events := p.events ++ [p.deviceLostEvent] }, false)

end Pipeline

/-! ## What is recorded -/

inductive Entry (α : Type) where
  | started (cs : CallStart)
  | spooled (row : SegmentRow) (pcm : List α)
  | ended (ce : CallEnd)

structure Recorder (α : Type) where
  uplink : Uplink
  log : List (Entry α) := []

def toRow {ch : Channel} (callId : CallId) (seg : Segment α ch) (createdMs : Nat) : SegmentRow :=
  (⟨callId, ch, seg.seq⟩, ⟨seg.timestampMs, seg.flags, seg.payload, createdMs⟩)

/-! ## One step -/

def readSamples : Nat := frameSamples

def prerollMaxSegments : Nat := 60

structure StepEnv (α : Type) where
  far : Option (List α)
  near : Option (List α)
  callId : CallId
  startedAt : String := ""
  endedAt : String := ""
  budget : Budget := none

structure StepResult where
  transition : Option Transition := none
  segmentsSpooled : Nat := 0
  callId : Option CallId := none
  deriving DecidableEq, Repr

structure Work (dsp : Dsp α) where
  pipeline : Pipeline dsp
  book : Recorder α
  budget : Budget
  result : StepResult := {}

namespace ChannelPipe

variable {dsp : Dsp α} {ch : Channel}

def restart (q : ChannelPipe dsp ch) : ChannelPipe dsp ch :=
  { q with encoder := .new, ready := [] }

def trim (keep : Bool) (q : ChannelPipe dsp ch) : ChannelPipe dsp ch :=
  if !keep then { q with ready := [] }
  else { q with ready := q.ready.drop (q.ready.length - prerollMaxSegments) }

end ChannelPipe

namespace Pipeline

variable {dsp : Dsp α}

def keepsPreroll (p : Pipeline dsp) : Bool :=
  p.detector.state = .armed || p.currentCall.isSome

def boundPreroll (p : Pipeline dsp) : Pipeline dsp :=
  { p with far := p.far.map (.trim p.keepsPreroll), near := p.near.map (.trim p.keepsPreroll) }

def listen (p : Pipeline dsp) (read : Nat) : Pipeline dsp × Transition :=
  let advanceMs := read * 1000 / sampleRate
  let clock := p.clockMs + advanceMs
  let farVoiced := p.far.any fun q => dsp.isVoiced q.vad
  let nearVoiced := p.near.any fun q => dsp.isVoiced q.vad
  let judged := p.suppressor.judge clock farVoiced advanceMs
  let isForeign : Bool := judged.2 = .markForeign
  let drained := judged.1.takeEvent clock
  -- Foreign audio must not confirm a call.
  let heard := p.detector.hear clock (farVoiced && !isForeign) nearVoiced
  ({ p with
      clockMs := clock
      far := if isForeign then p.far.map fun q => { q with encoder := q.encoder.markForeign }
        else p.far
      suppressor := drained.1
      events := p.events ++ drained.2.toList
      detector := heard.1 }, heard.2)

def callStart (p : Pipeline dsp) (env : StepEnv α) : CallStart where
  callId := env.callId
  startedAt := env.startedAt
  userUid := p.userUid
  deviceId := p.deviceId
  tier := p.tier
  accountRef := p.accountRef
  rate := sampleRate

end Pipeline

namespace Work

variable {dsp : Dsp α}

def readChannel (w : Work dsp) (ch : Channel) (read : Option (List α)) :
    Except (Work dsp) (Nat × Work dsp) :=
  match w.pipeline.pipe ch with
  | none => .ok (0, w)
  | some q =>
    match read with
    | none => .error w
    | some available =>
      let samples := available.take readSamples
      if samples.isEmpty then .ok (0, w)
      else
        let coded := q.encoder.pushSamples samples w.budget
        let q := { q with
          samplesSeen := q.samplesSeen + samples.length
          vad := if samples.length = frameSamples then dsp.pushFrame q.vad samples else q.vad
          encoder := coded.enc }
        match coded.out with
        | none =>
          .error { w with pipeline := w.pipeline.setPipe (some q), budget := coded.budget }
        | some finished =>
          .ok (samples.length,
            { w with
              pipeline := w.pipeline.setPipe (some { q with ready := q.ready ++ finished })
              budget := coded.budget })

def restartChannel (w : Work dsp) (ch : Channel) : Except (Work dsp) (Work dsp) :=
  match w.pipeline.pipe ch with
  | none => .ok w
  | some q =>
    match w.budget.spend with
    | none => .error w
    | some left => .ok { w with pipeline := w.pipeline.setPipe (some q.restart), budget := left }

def spool {ch : Channel} (callId : CallId) (w : Work dsp) (seg : Segment α ch) :
    Except (Work dsp) (Work dsp) :=
  let row := toRow callId seg w.pipeline.clockMs
  match w.budget.spend with
  | none => .error w
  | some left =>
    match w.book.uplink.pushSegment row with
    | .error _ => .error { w with budget := left }
    | .ok uplink =>
      .ok
        { w with
          pipeline := { w.pipeline with
            lastSeq := Function.update w.pipeline.lastSeq ch (some seg.seq) }
          book := ⟨uplink, w.book.log ++ [.spooled row seg.pcm]⟩
          budget := left
          result := { w.result with segmentsSpooled := w.result.segmentsSpooled + 1 } }

def spoolAll {ch : Channel} (callId : CallId) :
    List (Segment α ch) → Work dsp → Except (Work dsp) (Work dsp)
  | [], w => .ok w
  | seg :: rest, w => (w.spool callId seg).bind (spoolAll callId rest)

def drainChannel (w : Work dsp) (callId : CallId) (ch : Channel) :
    Except (Work dsp) (Work dsp) :=
  match w.pipeline.pipe ch with
  | none => .ok w
  | some q =>
    { w with pipeline := w.pipeline.setPipe (some { q with ready := [] }) }.spoolAll callId q.ready

def drainEncoders (w : Work dsp) : Except (Work dsp) (Work dsp) :=
  match w.pipeline.currentCall with
  | none => .ok w
  | some call => (w.drainChannel call.callId .far).bind fun w => w.drainChannel call.callId .near

def flushChannel [Inhabited α] (w : Work dsp) (callId : CallId) (ch : Channel) :
    Except (Work dsp) (Work dsp) :=
  match w.pipeline.pipe ch with
  | none => .ok w
  | some q =>
    let coded := q.encoder.flush w.budget
    let w := { w with
      pipeline := w.pipeline.setPipe (some { q with ready := [], encoder := coded.enc })
      budget := coded.budget }
    match coded.out with
    | none => .error w
    | some tail => w.spoolAll callId (q.ready ++ tail)

def recordEnd (w : Work dsp) (callId : CallId) (env : StepEnv α) (reason : EndReason) :
    Except (Work dsp) (Work dsp) :=
  let ce : CallEnd :=
    { callId, endedAt := env.endedAt, reason, lastSeq := w.pipeline.lastSeq }
  match w.budget.spend with
  | none => .error w
  | some left =>
    .ok { w with
      book := ⟨w.book.uplink.endCall callId ce, w.book.log ++ [.ended ce]⟩
      budget := left }

def finishCall [Inhabited α] (w : Work dsp) (env : StepEnv α) (reason : EndReason) :
    Except (Work dsp) (Work dsp) :=
  match w.pipeline.currentCall with
  | none => .ok w
  | some call =>
    ({ w with pipeline := { w.pipeline with currentCall := none } }.flushChannel
      call.callId .far).bind fun w =>
        (w.flushChannel call.callId .near).bind fun w => w.recordEnd call.callId env reason

def startCall (w : Work dsp) (env : StepEnv α) : Except (Work dsp) (Work dsp) :=
  let cs := w.pipeline.callStart env
  match w.budget.spend with
  | none => .error w
  | some left =>
    .ok { w with
      pipeline := { w.pipeline with
        lastSeq := fun _ => none
        currentCall := some ⟨env.callId, env.startedAt⟩ }
      book := ⟨w.book.uplink.beginCall env.callId cs w.pipeline.clockMs,
        w.book.log ++ [.started cs]⟩
      budget := left
      result := { w.result with callId := some env.callId } }

def applyTransition [Inhabited α] (w : Work dsp) (env : StepEnv α) :
    Transition → Except (Work dsp) (Work dsp)
  | .armed | .armDiscarded => (w.restartChannel .far).bind fun w => w.restartChannel .near
  | .callStarted => w.startCall env
  | .callEnded reason => w.finishCall env reason
  | _ => .ok w

def act [Inhabited α] (w : Work dsp) (env : StepEnv α) (t : Transition) :
    Except (Work dsp) (Work dsp) :=
  (w.applyTransition env t).bind fun w => w.drainEncoders.bind fun w =>
    .ok { w with
      pipeline := w.pipeline.boundPreroll
      result := { w.result with
        transition := if t = .none then none else some t
        callId := w.pipeline.currentCall.map (·.callId) } }

def step [Inhabited α] (w : Work dsp) (env : StepEnv α) : Except (Work dsp) (Work dsp) :=
  (w.readChannel .far env.far).bind fun far =>
    (far.2.readChannel .near env.near).bind fun near =>
      if far.1 = 0 ∧ near.1 = 0 then .ok near.2
      else
        let heard := near.2.pipeline.listen (max far.1 near.1)
        { near.2 with pipeline := heard.1 }.act env heard.2

end Work

/-! ## The machine -/

structure Rig (dsp : Dsp α) where
  pipeline : Pipeline dsp
  book : Recorder α

inductive PipeEvent (α : Type) where
  | openPinned (env : Pipeline.OpenEnv)
  | sessionState (active : Bool)
  | userChanged (uid : String)
  | block (reason : BlockReason)
  | unblock
  | deviceLost
  | step (env : StepEnv α)
  | takeEvents
  | setAccountRef (accountRef : Option String)
  | uplink (u : Uplink)

namespace Rig

variable {dsp : Dsp α}

def init (policy : Policy) (tier : CaptureTier) (deviceId userUid : String) (u : Uplink) :
    Rig dsp :=
  ⟨.new policy tier deviceId userUid, ⟨u, []⟩⟩

def capture [Inhabited α] (r : Rig dsp) (env : StepEnv α) : Rig dsp :=
  match Work.step ⟨r.pipeline, r.book, env.budget, {}⟩ env with
  | .ok w | .error w => ⟨w.pipeline, w.book⟩

def step [Inhabited α] (r : Rig dsp) : PipeEvent α → Rig dsp
  | .openPinned env => { r with pipeline := (r.pipeline.openPinned env).1 }
  | .sessionState active => { r with pipeline := r.pipeline.onSessionState active }
  | .userChanged uid => { r with pipeline := r.pipeline.onUserChanged uid }
  | .block reason => { r with pipeline := r.pipeline.block reason }
  | .unblock => { r with pipeline := r.pipeline.unblock }
  | .deviceLost => { r with pipeline := r.pipeline.onDeviceLost }
  | .step env => r.capture env
  | .takeEvents => { r with pipeline := { r.pipeline with events := [] } }
  | .setAccountRef a => { r with pipeline := { r.pipeline with accountRef := a } }
  | .uplink u => { r with book := { r.book with uplink := u } }

end Rig

/-! ## A concrete rig

What the concrete runs below are made of: a voice detector that hears a frame with a loud
sample in it, a codec that packs every frame into one byte, a headset, and a policy that
confirms and ends calls after one frame. -/

def thresholdDsp (loud : α → Bool) : Dsp α where
  Vad := Bool
  vad := false
  pushFrame _ frame := frame.any loud
  isVoiced voiced := voiced
  Opus := Unit
  opus := ()
  encode _ _ := ((), [0])

def briskPolicy : Policy where
  vad :=
    { speechMsToConfirm := 20, armedTimeoutMs := 20000, hangupSilenceMs := 20, wrapMs := 20
      debounceMs := 0 }
  pinnedDevices := [{ containerId := "headset" }]

def headset : Pipeline.OpenEnv where
  policy := briskPolicy
  devices :=
    [⟨"render", some "headset", "Headset", .render, true⟩,
      ⟨"capture", some "headset", "Headset", .capture, true⟩]

def brisk : Rig (thresholdDsp fun a : Int => a ≠ 0) :=
  .init briskPolicy .A "device-1" "alice" { spool := {} }

def slice (a : Int) (callId : CallId) : PipeEvent Int :=
  .step { far := some (List.replicate 320 a), near := some (List.replicate 320 0), callId }

end Sentinel.Capture
