import Mathlib.Data.Fintype.Pi

/-!
# The vocabulary of the wire

The frames the client and the gateway exchange, and the events the client reports. Both sides
declare these types (`protocol.rs`, `wire.go`); one Lean type stands for both.
-/

namespace Sentinel

abbrev CallId := String

inductive Channel where
  | far
  | near
  deriving DecidableEq, Repr

instance : Fintype Channel := ⟨{.far, .near}, fun c => by cases c <;> simp⟩

def Channel.asU8 : Channel → Nat
  | .far => 0
  | .near => 1

@[simp] theorem Channel.asU8_inj {c d : Channel} : c.asU8 = d.asU8 ↔ c = d := by
  cases c <;> cases d <;> simp [Channel.asU8]

structure MediaFlags where
  foreign : Bool := false
  silenceInserted : Bool := false
  deriving DecidableEq, Repr

structure MediaRecord where
  callId : CallId
  channel : Channel
  seq : Nat
  timestampMs : Nat
  flags : MediaFlags
  payload : List UInt8
  deriving DecidableEq, Repr

inductive EndReason where
  | hangup
  | deviceLost
  | signedOut
  | shutdown
  | revoked
  | error
  deriving DecidableEq, Repr

inductive CaptureTier where
  | A
  | B
  deriving DecidableEq, Repr

inductive CallDirection where
  | outbound
  | inbound
  deriving DecidableEq, Repr

structure CallStart where
  callId : CallId
  startedAt : String
  userUid : String
  deviceId : String
  tier : CaptureTier := .A
  accountRef : Option String := none
  dialerCallId : Option String := none
  direction : CallDirection := .outbound
  codec : String := "opus"
  rate : Nat := 16000
  deriving DecidableEq, Repr

structure CallEnd where
  callId : CallId
  endedAt : String
  reason : EndReason := .hangup
  lastSeq : Channel → Option Nat
  deriving DecidableEq

inductive ErrorCode where
  | tenantMismatch
  | userMismatch
  | deviceMismatch
  | unknownCall
  | badFrame
  | quotaExceeded
  | internal
  deriving DecidableEq, Repr

def ErrorCode.text : ErrorCode → String
  | .tenantMismatch => "tenant_mismatch"
  | .userMismatch => "user_mismatch"
  | .deviceMismatch => "device_mismatch"
  | .unknownCall => "unknown_call"
  | .badFrame => "bad_frame"
  | .quotaExceeded => "quota_exceeded"
  | .internal => "internal"

structure CallError where
  callId : CallId
  code : ErrorCode
  message : String
  fatal : Bool
  deriving DecidableEq, Repr

inductive ServerMessage where
  | ack (callId : CallId) (channel : Channel) (throughSeq : Nat)
  | resume (callId : CallId) (acked : Channel → Option Nat)
  | callError (e : CallError)
  | heartbeatAck (policyVersion : Int)
  | close (code : Nat)
  deriving DecidableEq

inductive ClientFrame where
  | callStart (cs : CallStart)
  | callEnd (ce : CallEnd)
  | media (records : List MediaRecord)
  | heartbeat
  | malformed
  | unknown
  deriving DecidableEq

/-! ## Client events -/

inductive EventKind where
  | tierDowngrade
  | spoolEviction
  | deviceLost
  | deviceRestored
  | agentRestart
  | captureError
  | foreignAudioSuppressed
  deriving DecidableEq, Repr

structure ClientEvent where
  kind : EventKind
  atMs : Nat
  count : Option Nat := none
  detail : Option String := none
  deriving DecidableEq, Repr

end Sentinel
