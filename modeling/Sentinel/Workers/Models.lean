import Sentinel.Lib.Schema
import Sentinel.Protocol

/-!
# What the workers pass around

The value types of `models.py`. A number that a model provider can have written is a `JsonNum`;
times are milliseconds of the call, money is paise and a date is a number of days.
-/

namespace Sentinel.Workers

inductive Severity where
  | low
  | medium
  | high
  | critical
  deriving DecidableEq, Repr

def Severity.rank : Severity → Nat
  | .low => 0
  | .medium => 1
  | .high => 2
  | .critical => 3

inductive Disposition where
  | ptp
  | refusal
  | dispute
  | wrongNumber
  | noContact
  | callbackRequested
  | partialPayment
  | escalation
  | other
  deriving DecidableEq, Repr

namespace Disposition

def text : Disposition → String
  | .ptp => "ptp"
  | .refusal => "refusal"
  | .dispute => "dispute"
  | .wrongNumber => "wrong_number"
  | .noContact => "no_contact"
  | .callbackRequested => "callback_requested"
  | .partialPayment => "partial_payment"
  | .escalation => "escalation"
  | .other => "other"

def every : List Disposition :=
  [.ptp, .refusal, .dispute, .wrongNumber, .noContact, .callbackRequested, .partialPayment,
    .escalation, .other]

def ofText? (s : String) : Option Disposition := every.find? fun d => d.text = s

end Disposition

structure Word where
  text : String
  startMs : Int
  endMs : Int
  confidence : Option JsonNum := none
  deriving DecidableEq, Repr

structure ChannelTranscript where
  channel : Channel
  text : String
  words : List Word := []
  language : String := "hi"
  provider : String := "unknown"
  providerVersion : String := "unknown"
  confidence : Option JsonNum := none
  deriving DecidableEq, Repr

structure CallContext where
  callId : CallId
  tenantId : String
  userUid : String
  startedAt : Int
  durationMs : Int
  tenantTimezone : String := "Asia/Kolkata"
  language : Option String := none
  accountRef : Option String := none
  direction : String := "outbound"
  captureTier : String := "A"
  priorContacts24h : Nat := 0
  interruptions : Option Int := none
  deriving DecidableEq, Repr

structure Transcript where
  context : CallContext
  channels : List ChannelTranscript := []
  deriving DecidableEq, Repr

structure Finding where
  ruleId : String
  severity : Severity
  tier : Nat
  spanStartMs : Option Int := none
  spanEndMs : Option Int := none
  evidenceText : Option String := none
  rationale : Option String := none
  confidence : Option JsonNum := none
  deriving DecidableEq, Repr

structure PromiseToPay where
  present : Bool
  amountPaise : Option Int := none
  dueDate : Option Int := none
  confidence : JsonNum := .float 0
  evidenceSpanMs : Option (Int × Int) := none
  deriving DecidableEq, Repr

structure Analysis where
  summary : String
  disposition : Disposition
  ptp : PromiseToPay
  sentiment : Json
  talkRatio : JsonNum
  interruptions : Int
  nextAction : Option String := none
  model : String := "unknown"
  promptVersion : String := "unknown"
  inputTokens : Option Int := some 0
  outputTokens : Option Int := some 0
  truncated : Bool := false
  deriving Repr

end Sentinel.Workers
