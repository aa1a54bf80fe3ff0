import Sentinel.Gateway.Sink

/-!
# One ingest connection

`Session` (`session.go`) is the protocol logic of one connection. A handler works on a `Ctx`, the
session, the database and the messages collected so far, and returns the context it leaves.
-/

namespace Sentinel

structure Config where
  ackInterval : Time := 0
  ackEverySegs : Nat := 0
  idleTimeout : Time := 0
  orphanGrace : Time := 0
  orphanGraceText : String := ""
  maxCallsPerConn : Nat := 0

def Config.withDefaults (c : Config) : Config where
  ackInterval := if c.ackInterval = 0 then 2 * 10 ^ 9 else c.ackInterval
  ackEverySegs := if c.ackEverySegs = 0 then 100 else c.ackEverySegs
  idleTimeout := if c.idleTimeout = 0 then 120 * 10 ^ 9 else c.idleTimeout
  orphanGrace := if c.orphanGrace = 0 then 30 * 10 ^ 9 else c.orphanGrace
  orphanGraceText := if c.orphanGrace = 0 then "30s" else c.orphanGraceText
  maxCallsPerConn := if c.maxCallsPerConn = 0 then 64 else c.maxCallsPerConn

structure Peer where
  tenantId : String
  userUid : String
  deviceId : String
  deriving DecidableEq, Repr

structure Outbound where
  acks : List (CallId × Channel × Nat) := []
  resumes : List (CallId × (Channel → Option Nat)) := []
  errors : List CallError := []
  heartbeats : List Int := []
  close : Option (Nat × String) := none

structure ChannelState where
  through : Nat := 0
  started : Bool := false
  ahead : List Nat := []
  sinceAck : Nat := 0
  lastAck : Option Time := none
  acked : Nat := 0
  everAcked : Bool := false
  deriving DecidableEq

structure CallState where
  start : CallStart
  channels : Channel → Option ChannelState := fun _ => none
  ended : Bool := false
  firstSeen : Time

structure Orphan where
  record : MediaRecord
  arrived : Time
  deriving DecidableEq

structure Session where
  peer : Peer
  cfg : Config
  calls : Table CallId CallState := ∅
  orphans : Table CallId (List Orphan) := ∅
  policyVer : Int := 0
  lastActivity : Time

def newSession (peer : Peer) (cfg : Config) (policyVersion : Int) (now : Time) : Session where
  peer := peer
  cfg := cfg.withDefaults
  policyVer := policyVersion
  lastActivity := now

/-! ## The watermark of a channel -/

def absorb : Nat → ChannelState → ChannelState
  | 0, cst => cst
  | fuel + 1, cst =>
    if cst.through + 1 ∈ cst.ahead then
      absorb fuel { cst with
        through := cst.through + 1, ahead := cst.ahead.erase (cst.through + 1) }
    else cst

def advance (cst : ChannelState) (seq : Nat) : ChannelState :=
  if !cst.started then
    if seq = 0 then absorb cst.ahead.length { cst with through := 0, started := true }
    else { cst with ahead := cst.ahead.insert seq }
  else if seq = cst.through + 1 then absorb cst.ahead.length { cst with through := seq }
  else { cst with ahead := cst.ahead.insert seq }

/-! ## The handlers -/

structure Ctx where
  session : Session
  sink : Sink
  out : Outbound := {}

namespace Ctx

variable (env : SinkEnv)

def channelOf (st : CallState) (ch : Channel) : ChannelState := (st.channels ch).getD {}

def setChannel (x : Ctx) (c : CallId) (st : CallState) (ch : Channel) (cst : ChannelState) :
    Ctx :=
  let st := { st with channels := Function.update st.channels ch (some cst) }
  { x with session := { x.session with calls := x.session.calls.put c st } }

def addError (x : Ctx) (e : CallError) : Ctx :=
  { x with out := { x.out with errors := x.out.errors ++ [e] } }

def checkIdentity (x : Ctx) (cs : CallStart) : Ctx × Bool :=
  if cs.userUid ≠ x.session.peer.userUid then
    (x.addError { callId := cs.callId, code := .userMismatch, fatal := true,
                  message := "call.start user does not match the bearer token" }, false)
  else if cs.deviceId ≠ x.session.peer.deviceId then
    (x.addError { callId := cs.callId, code := .deviceMismatch, fatal := true,
                  message := "call.start device does not match the client certificate" }, false)
  else (x, true)

def storeRecord (x : Ctx) (rec : MediaRecord) : Ctx × Bool :=
  match x.session.calls.get? rec.callId with
  | none => (x, true)
  | some st =>
    let cst := channelOf st rec.channel
    -- Already durable: dropped, but it counts toward the next acknowledgement.
    if cst.started && rec.seq ≤ cst.through then
      (x.setChannel rec.callId st rec.channel { cst with sinceAck := cst.sinceAck + 1 }, true)
    else
      let (sink, ok) := x.sink.putSegment env x.session.peer.tenantId rec.callId rec
      let x := { x with sink }
      if ok then
        let cst := advance { cst with sinceAck := cst.sinceAck + 1 } rec.seq
        (x.setChannel rec.callId st rec.channel cst, true)
      else
        ((x.setChannel rec.callId st rec.channel cst).addError
          { callId := rec.callId, code := .internal, fatal := false,
            message := "could not store the segment" }, false)

def storeAll : List Orphan → Ctx → Ctx × Bool
  | [], x => (x, true)
  | o :: os, x =>
    let (x, ok) := x.storeRecord env o.record
    if ok then storeAll os x else (x, false)

def ackChannel (now : Time) (c : CallId) (ch : Channel) (st : CallState) (cst : ChannelState)
    (x : Ctx) : Ctx :=
  let cst := { cst with lastAck := some now, sinceAck := 0 }
  if cst.everAcked && cst.acked = cst.through then x.setChannel c st ch cst
  else
    let (sink, ok) := x.sink.setWatermark env c ch cst.through
    let x := { x with sink }
    if ok then
      let x := x.setChannel c st ch { cst with acked := cst.through, everAcked := true }
      { x with out := { x.out with acks := x.out.acks ++ [(c, ch, cst.through)] } }
    else x.setChannel c st ch cst

def ackIf (now : Time) (select : ChannelState → Bool) (x : Ctx) (c : CallId) (ch : Channel) :
    Ctx :=
  match x.session.calls.get? c with
  | none => x
  | some st =>
    match st.channels ch with
    | none => x
    | some cst => if select cst then x.ackChannel env now c ch st cst else x

def ackSelected (now : Time) (select : ChannelState → Bool) (x : Ctx) : Ctx :=
  (x.session.calls.keys.product [Channel.far, Channel.near]).foldl
    (fun x p => x.ackIf env now select p.1 p.2) x

def isDue (cfg : Config) (now : Time) (cst : ChannelState) : Bool :=
  cst.started && (cfg.ackEverySegs ≤ cst.sinceAck ||
    match cst.lastAck with
    | none => true
    | some last => cfg.ackInterval ≤ now - last)

def emitDueAcks (now : Time) (x : Ctx) : Ctx :=
  x.ackSelected env now (isDue x.session.cfg now)

def flushAcks (now : Time) (x : Ctx) : Ctx :=
  x.ackSelected env now (·.started)

def isExpired (cfg : Config) (now : Time) : List Orphan → Bool
  | [] => false
  | o :: _ => cfg.orphanGrace ≤ now - o.arrived

def expiryError (cfg : Config) (c : CallId) : CallError where
  callId := c
  code := .unknownCall
  message := "no call.start within " ++ cfg.orphanGraceText
  fatal := true

def expireOrphans (now : Time) (x : Ctx) : Ctx :=
  let expired := x.session.orphans.rows.filter fun r => isExpired x.session.cfg now r.2
  let errors := x.out.errors ++ expired.map fun r => expiryError x.session.cfg r.1
  let orphans := x.session.orphans.filter fun r => !isExpired x.session.cfg now r.2
  { x with session := { x.session with orphans }, out := { x.out with errors } }

def watermarkMap (st : CallState) : Channel → Option Nat := fun ch =>
  match st.channels ch with
  | some cst => if cst.started then some cst.through else none
  | none => none

def resumeFrom (st : CallState) (acked : Channel → Option Nat) : CallState :=
  { st with channels := fun ch =>
      match acked ch with
      | some through =>
        some { channelOf st ch with
          through := through, started := true, acked := through, everAcked := true }
      | none => st.channels ch }

def addResume (x : Ctx) (c : CallId) (st : CallState) : Ctx :=
  { x with out := { x.out with resumes := x.out.resumes ++ [(c, watermarkMap st)] } }

def dropOrphans (x : Ctx) (c : CallId) : Ctx :=
  { x with session := { x.session with orphans := x.session.orphans.erase c } }

def afterOpen (x : Ctx) (c : CallId) (st : CallState) (existed : Bool) (now : Time) :
    Ctx × Bool :=
  let x := if existed then x.addResume c st else x
  let pending := (x.session.orphans.get? c).getD []
  let (x, ok) := storeAll env pending (x.dropOrphans c)
  if ok then (x.emitDueAcks env now, true) else (x, false)

def onCallStart (x : Ctx) (cs : CallStart) (now : Time) : Ctx × Bool :=
  let x := { x with session := { x.session with lastActivity := now } }
  let (x, same) := x.checkIdentity cs
  if !same then (x, true)
  else if x.session.cfg.maxCallsPerConn ≤ x.session.calls.rows.length then
    ({ x with out := { x.out with
        close := some (4429, "too many concurrent calls on one connection") } }, true)
  else
    let (sink, r) := x.sink.ensureCall env cs x.session.peer.tenantId x.session.peer.deviceId
    let x := { x with sink }
    match r with
    | none =>
      (x.addError { callId := cs.callId, code := .internal, fatal := false,
                    message := "could not open the call" }, false)
    | some (existed, acked) =>
      let st := (x.session.calls.get? cs.callId).getD { start := cs, firstSeen := now }
      let st := resumeFrom st acked
      let x := { x with session := { x.session with calls := x.session.calls.put cs.callId st } }
      x.afterOpen env cs.callId st existed now

def onMedia (x : Ctx) (rec : MediaRecord) (now : Time) : Ctx × Bool :=
  let x := { x with session := { x.session with lastActivity := now } }
  match x.session.calls.get? rec.callId with
  | none =>
    let waiting := (x.session.orphans.get? rec.callId).getD []
    let orphan : Orphan := { record := rec, arrived := now }
    let orphans := x.session.orphans.put rec.callId (waiting ++ [orphan])
    let x := { x with session := { x.session with orphans } }
    (x.expireOrphans now, true)
  | some _ =>
    let (x, ok) := x.storeRecord env rec
    if ok then (x.emitDueAcks env now, true) else (x, false)

def onCallEnd (x : Ctx) (ce : CallEnd) (now : Time) : Ctx × Bool :=
  let x := { x with session := { x.session with lastActivity := now } }
  match x.session.calls.get? ce.callId with
  | none =>
    (x.addError { callId := ce.callId, code := .unknownCall, fatal := true,
                  message := "no call.start for this call" }, true)
  | some st =>
    let (sink, ok) := x.sink.finishCall env x.session.peer.tenantId ce
    let x := { x with sink }
    if ok then
      let x := { x with session := { x.session with
        calls := x.session.calls.put ce.callId { st with ended := true } } }
      (x.flushAcks env now, true)
    else
      (x.addError { callId := ce.callId, code := .internal, fatal := false,
                    message := "could not finalize the call" }, false)

def onHeartbeat (x : Ctx) (now : Time) : Ctx :=
  let x := { x with session := { x.session with lastActivity := now } }
  let x := { x.expireOrphans now with out := x.out }
  { x with out := { x.out with heartbeats := x.out.heartbeats ++ [x.session.policyVer] } }

def onRecords (now : Time) : List MediaRecord → Ctx → Ctx
  | [], x => x
  | rec :: rest, x =>
    let (x, ok) := x.onMedia env rec now
    if ok then onRecords now rest x else x

end Ctx

def tick (env : SinkEnv) (s : Session) (sink : Sink) (now : Time) : Ctx :=
  let x := (Ctx.emitDueAcks env now { session := s, sink }).expireOrphans now
  if s.cfg.idleTimeout ≤ now - s.lastActivity then
    { x with out := { x.out with close := some (4408, "no frames received") } }
  else x

def dispatch (env : SinkEnv) (s : Session) (sink : Sink) (f : ClientFrame) (now : Time) : Ctx :=
  let x : Ctx := { session := s, sink }
  match f with
  | .media records => x.onRecords env now records
  | .callStart cs => (x.onCallStart env cs now).1
  | .callEnd ce => (x.onCallEnd env ce now).1
  | .heartbeat => x.onHeartbeat now
  | .malformed => { x with out := { close := some (1007, "bad frame") } }
  | .unknown => x

def Outbound.messages (o : Outbound) : List ServerMessage :=
  o.resumes.map (fun r => .resume r.1 r.2) ++ o.acks.map (fun a => .ack a.1 a.2.1 a.2.2) ++
    o.errors.map .callError ++ o.heartbeats.map .heartbeatAck ++
    (o.close.toList.map fun c => .close c.1)

end Sentinel
