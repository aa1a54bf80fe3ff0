import Sentinel.Client.Spool

/-!
# The uplink

The uplink (`uplink/mod.rs`, `uplink/resume.rs`) drains the spool over one ingest connection at a
time.
-/

namespace Sentinel

/-! ## Where to restart a call -/

abbrev ResumePoint := Channel → Nat

def saturatingSucc (n : Nat) : Nat := min (n + 1) (2 ^ 32 - 1)

def saturatingAdd (a b : Nat) : Nat := min (a + b) (2 ^ 64 - 1)

def higherClaim : Option Nat → Option Nat → Option Nat
  | some l, some s => some (max l s)
  | some l, none => some l
  | none, some s => some s
  | none, none => none

def plan (localAcked serverAcked : Channel → Option Nat) : ResumePoint := fun ch =>
  match higherClaim (localAcked ch) (serverAcked ch) with
  | some acked => saturatingSucc acked
  | none => 0

def shouldSend (point : ResumePoint) (channel : Channel) (seq : Nat) : Bool :=
  point channel ≤ seq

theorem covered_of_not_shouldSend {localAcked serverAcked : Channel → Option Nat}
    {ch : Channel} {q : Nat} (h : shouldSend (plan localAcked serverAcked) ch q = false) :
    (∃ t, localAcked ch = some t ∧ q ≤ t) ∨ (∃ t, serverAcked ch = some t ∧ q ≤ t) := by
  have hlt : q < plan localAcked serverAcked ch := by simpa [shouldSend] using h
  unfold plan saturatingSucc at hlt
  cases hl : localAcked ch with
  | none =>
    cases hs : serverAcked ch with
    | none => simp [hl, hs, higherClaim] at hlt
    | some s =>
      simp only [hl, hs, higherClaim] at hlt
      exact Or.inr ⟨s, rfl, by omega⟩
  | some l =>
    cases hs : serverAcked ch with
    | none =>
      simp only [hl, hs, higherClaim] at hlt
      exact Or.inl ⟨l, rfl, by omega⟩
    | some s =>
      simp only [hl, hs, higherClaim] at hlt
      rcases le_total l s with hle | hle
      · exact Or.inr ⟨s, rfl, by omega⟩
      · exact Or.inl ⟨l, rfl, by omega⟩

/-! ## The uplink's state -/

def resumeTimeoutMs : Nat := 5000

def segmentsPerMessage : Nat := 10

def segmentsPerPass : Nat := segmentsPerMessage * 4

structure Uplink where
  spool : Spool
  connected : Bool := false
  nextAttemptMs : Nat := 0
  startedThisConnection : List CallId := []
  endedThisConnection : List CallId := []
  knownCalls : List CallId := []
  resumePoints : Table CallId ResumePoint := ∅
  sentThrough : Table (CallId × Channel) Nat := ∅
  awaitingResume : Table CallId Nat := ∅
  events : List ClientEvent := []
  policyVersion : Int := 0
  connects : Nat := 0

def insertCall (c : CallId) (calls : List CallId) : List CallId :=
  if c ∈ calls then calls else calls.orderedInsert (· ≤ ·) c

@[simp] theorem mem_insertCall {c d : CallId} {calls : List CallId} :
    d ∈ insertCall c calls ↔ d = c ∨ d ∈ calls := by
  unfold insertCall
  split
  · rename_i h
    exact ⟨Or.inr, fun hd => hd.elim (fun he => he ▸ h) id⟩
  · exact List.mem_orderedInsert _

namespace Uplink

def new (spool : Spool) : Uplink :=
  { spool, knownCalls := spool.pendingCalls.foldl (fun known c => insertCall c known) [] }

def beginCall (u : Uplink) (callId : CallId) (start : CallStart) (nowMs : Nat) : Uplink :=
  { u with
    spool := u.spool.beginCall callId start nowMs
    knownCalls := insertCall callId u.knownCalls }

def endCall (u : Uplink) (callId : CallId) (ce : CallEnd) : Uplink :=
  { u with spool := u.spool.endCall callId ce }

def pushSegment (u : Uplink) (seg : SegmentRow) : Except SpoolError Uplink :=
  match u.spool.push seg with
  | .error e => .error e
  | .ok (spool, ev) => .ok { u with spool, events := u.events ++ ev.toList }

theorem pushSegment_ok {u u' : Uplink} {seg : SegmentRow} (h : u.pushSegment seg = .ok u') :
    ∃ spool ev, u.spool.push seg = .ok (spool, ev) ∧
      u' = { u with spool, events := u.events ++ ev.toList } := by
  unfold pushSegment at h
  split at h
  · cases h
  rename_i spool ev hpush
  exact ⟨spool, ev, hpush, (Except.ok.inj h).symm⟩

def resumePointFor (u : Uplink) (callId : CallId) : ResumePoint :=
  match u.resumePoints.get? callId with
  | some p => p
  | none => plan (u.spool.ackedThrough callId) fun _ => none

def onConnected (u : Uplink) : Uplink :=
  { u with
    connects := u.connects + 1
    connected := true
    startedThisConnection := []
    endedThisConnection := []
    resumePoints := ∅
    sentThrough := ∅
    awaitingResume := ∅ }

def reconnectEvent (nowMs : Nat) : ClientEvent where
  kind := .captureError
  atMs := nowMs
  detail := some "uplink_reconnect"

def dropConnection (u : Uplink) (nowMs delayMs : Nat) : Uplink :=
  { u with
    connected := false
    nextAttemptMs := saturatingAdd nowMs delayMs
    events := u.events ++ [reconnectEvent nowMs] }

/-! ## The send pass -/

structure SendPass where
  up : Uplink
  out : List ClientFrame := []
  budget : Option Nat := none
  sent : Nat := 0
  skipped : List SegmentRow := []

def transmit (p : SendPass) (f : ClientFrame) : Except SendPass SendPass :=
  match p.budget with
  | none => .ok { p with out := p.out ++ [f] }
  | some 0 => .error p
  | some (n + 1) => .ok { p with out := p.out ++ [f], budget := some n }

def sendRows (point : ResumePoint) :
    List SegmentRow → List MediaRecord → SendPass → Except SendPass (SendPass × List MediaRecord)
  | [], batch, p => .ok (p, batch)
  | row :: rows, batch, p =>
    if !shouldSend point row.1.channel row.1.seq then
      sendRows point rows batch { p with skipped := p.skipped ++ [row] }
    else if (p.up.sentThrough.get? (row.1.callId, row.1.channel)).any (row.1.seq ≤ ·) then
      sendRows point rows batch p
    -- A payload past the header's `u16` length cannot be encoded and is skipped.
    else if 65535 < row.2.payload.length then sendRows point rows batch p
    else
      let up := { p.up with
        sentThrough := p.up.sentThrough.put (row.1.callId, row.1.channel) row.1.seq }
      let p := { p with up, sent := p.sent + 1 }
      let batch := batch ++ [toRecord row]
      if batch.length = segmentsPerMessage then
        match transmit p (.media batch) with
        | .error p => .error p
        | .ok p => sendRows point rows [] p
      else sendRows point rows batch p

def sendStart (nowMs : Nat) (c : CallId) (p : SendPass) : Except SendPass SendPass :=
  if c ∈ p.up.startedThisConnection then .ok p
  else match p.up.spool.callStartJson c with
    | none => .ok p
    | some cs =>
      match transmit p (.callStart cs) with
      | .error p => .error p
      | .ok p =>
        -- A call with something already acknowledged is a replay, and owes a `resume`.
        let isReplay := (p.up.spool.acks.keys.any fun k => k.1 = c) ||
          p.up.sentThrough.keys.any fun k => k.1 = c
        .ok { p with up := { p.up with
          startedThisConnection := insertCall c p.up.startedThisConnection
          awaitingResume := if isReplay
            then p.up.awaitingResume.put c (saturatingAdd nowMs resumeTimeoutMs)
            else p.up.awaitingResume } }

def sendMedia (c : CallId) (p : SendPass) : Except SendPass SendPass :=
  match sendRows (p.up.resumePointFor c) (p.up.spool.takePending c segmentsPerPass) [] p with
  | .error p => .error p
  | .ok (p, []) => .ok p
  | .ok (p, batch) => transmit p (.media batch)

def sendEnd (c : CallId) (p : SendPass) : Except SendPass SendPass :=
  if c ∈ p.up.endedThisConnection then .ok p
  else match p.up.spool.callEndJson c with
    | none => .ok p
    | some ce =>
      match transmit p (.callEnd ce) with
      | .error p => .error p
      | .ok p => .ok { p with up := { p.up with
          endedThisConnection := insertCall c p.up.endedThisConnection } }

def sendCall (nowMs : Nat) (c : CallId) (p : SendPass) : Except SendPass SendPass :=
  if p.up.spool.isSealed c then
    .ok { p with up := { p.up with knownCalls := p.up.knownCalls.erase c } }
  else do
    let p ← sendStart nowMs c p
    match p.up.awaitingResume.get? c with
    | some deadline =>
      -- Hold the media until the server has said where to restart from, or time is up.
      if nowMs < deadline then .ok p
      else do
        let up := { p.up with awaitingResume := p.up.awaitingResume.erase c }
        let p ← sendMedia c { p with up }
        sendEnd c p
    | none => do
      let p ← sendMedia c p
      sendEnd c p

def sendCalls (nowMs : Nat) : List CallId → SendPass → Except SendPass SendPass
  | [], p => .ok p
  | c :: cs, p => do
    let p ← sendCall nowMs c p
    sendCalls nowMs cs p

def sendPending (u : Uplink) (nowMs : Nat) (budget : Option Nat) : Except SendPass SendPass :=
  let known := u.spool.pendingCalls.foldl (fun known c => insertCall c known) u.knownCalls
  sendCalls nowMs known { up := { u with knownCalls := known }, budget }

/-! ## What arrives -/

structure PumpOutcome where
  connected : Bool := false
  sent : Nat := 0
  acked : Nat := 0
  verified : Bool := false
  deviceRevoked : Bool := false
  tokenRejected : Bool := false
  policyVersion : Option Int := none
  deriving DecidableEq, Repr

def handleControl (u : Uplink) (msg : ServerMessage) (nowMs : Nat) (o : PumpOutcome) :
    Uplink × PumpOutcome :=
  match msg with
  | .ack c ch through =>
    let (spool, deleted) := u.spool.ack c ch through
    ({ u with spool }, { o with acked := o.acked + deleted, verified := true })
  | .resume c acked =>
    let point := plan (u.spool.ackedThrough c) acked
    ({ u with awaitingResume := u.awaitingResume.erase c,
              resumePoints := u.resumePoints.put c point }, { o with verified := true })
  | .callError e =>
    if e.fatal then
      let (spool, ev) := u.spool.sealCall e.callId e.code nowMs
      ({ u with spool, events := u.events ++ [ev], knownCalls := u.knownCalls.erase e.callId },
        o)
    else (u, o)
  | .heartbeatAck version =>
    if version ≠ u.policyVersion then
      ({ u with policyVersion := version },
        { o with verified := true, policyVersion := some version })
    else (u, { o with verified := true })
  -- The close frame is the caller's: it ends the read.
  | .close _ => (u, o)

def readIncoming (nowMs : Nat) :
    List ServerMessage → Uplink → PumpOutcome → Uplink × PumpOutcome × Bool
  | [], u, o => (u, o, true)
  | .close code :: _, u, o =>
    (u, { o with deviceRevoked := o.deviceRevoked || code = 4403,
                 tokenRejected := o.tokenRejected || code = 4401 }, false)
  | msg :: rest, u, o =>
    let (u, o) := u.handleControl msg nowMs o
    readIncoming nowMs rest u o

structure PumpEnv where
  connects : Bool := true
  delayMs : Nat := 0
  budget : Option Nat := none
  recvFails : Bool := false

structure Pumped where
  up : Uplink
  outcome : PumpOutcome := {}
  out : List ClientFrame := []
  skipped : List SegmentRow := []

def pump (u : Uplink) (nowMs : Nat) (env : PumpEnv) (incoming : List ServerMessage) : Pumped :=
  if !u.connected && nowMs < u.nextAttemptMs then { up := u }
  else if !u.connected && !env.connects then
    { up := { u with nextAttemptMs := saturatingAdd nowMs env.delayMs } }
  else
    let u := if u.connected then u else u.onConnected
    match u.sendPending nowMs env.budget with
    | .error p =>
      { up := p.up.dropConnection nowMs env.delayMs, outcome := { sent := p.sent }
        out := p.out, skipped := p.skipped }
    | .ok p =>
      let (u, o, isOpen) := readIncoming nowMs incoming p.up { connected := true, sent := p.sent }
      if isOpen && !env.recvFails then { up := u, outcome := o, out := p.out, skipped := p.skipped }
      else
        { up := u.dropConnection nowMs env.delayMs, outcome := { o with connected := false }
          out := p.out, skipped := p.skipped }

end Uplink

end Sentinel
