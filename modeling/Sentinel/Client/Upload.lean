import Mathlib.Data.Vector.Defs
import Sentinel.Client.Codec
import Sentinel.Client.Turns

/-!
# A send pass, in bytes

The program hands the socket bytes: the row loop encodes each record onto the end of a buffer it
reuses and sends the buffer when it has ten.
-/

open List hiding Vector

namespace Sentinel

open Uplink

inductive WireMessage where
  | text (f : ClientFrame)
  | binary (bytes : List UInt8)

def rowRecord (callIdBin : Vector UInt8 16) (row : SegmentRow) : Protocol.MediaRecord where
  channel := row.1.channel
  flags := row.2.flags
  seq := UInt32.ofNat row.1.seq
  timestampMs := UInt64.ofNat row.2.timestampMs
  callId := callIdBin
  payload := row.2.payload

structure Upload where
  up : Uplink
  out : List WireMessage := []
  budget : Option Nat := none
  sent : Nat := 0

namespace Upload

def send (q : Upload) (m : WireMessage) : Except Upload Upload :=
  match q.budget with
  | none => .ok { q with out := q.out ++ [m] }
  | some 0 => .error q
  | some (n + 1) => .ok { q with out := q.out ++ [m], budget := some n }

variable (callIdBytes : CallId → Vector UInt8 16)

def uploadRows (c : CallId) (point : ResumePoint) :
    List SegmentRow → List UInt8 → Nat → Upload → Except Upload (Upload × List UInt8 × Nat)
  | [], batch, inBatch, q => .ok (q, batch, inBatch)
  | row :: rows, batch, inBatch, q =>
    if !shouldSend point row.1.channel row.1.seq then uploadRows c point rows batch inBatch q
    else if (q.up.sentThrough.get? (c, row.1.channel)).any (row.1.seq ≤ ·) then
      uploadRows c point rows batch inBatch q
    else
      match (rowRecord (callIdBytes c) row).encodeInto batch with
      -- The error returns before the first byte is pushed, so the buffer goes on as it is.
      | .error _ => uploadRows c point rows batch inBatch q
      | .ok batch =>
        let q := { q with
          up := { q.up with sentThrough := q.up.sentThrough.put (c, row.1.channel) row.1.seq }
          sent := q.sent + 1 }
        if inBatch + 1 = segmentsPerMessage then
          match q.send (.binary batch) with
          | .error q => .error q
          | .ok q => uploadRows c point rows [] 0 q
        else uploadRows c point rows batch (inBatch + 1) q

def uploadStart (nowMs : Nat) (c : CallId) (q : Upload) : Except Upload Upload :=
  if c ∈ q.up.startedThisConnection then .ok q
  else match q.up.spool.callStartJson c with
    | none => .ok q
    | some cs =>
      match q.send (.text (.callStart cs)) with
      | .error q => .error q
      | .ok q =>
        let isReplay := (q.up.spool.acks.keys.any fun k => k.1 = c) ||
          q.up.sentThrough.keys.any fun k => k.1 = c
        .ok { q with up := { q.up with
          startedThisConnection := insertCall c q.up.startedThisConnection
          awaitingResume := if isReplay
            then q.up.awaitingResume.put c (saturatingAdd nowMs resumeTimeoutMs)
            else q.up.awaitingResume } }

def uploadMedia (c : CallId) (q : Upload) : Except Upload Upload :=
  match uploadRows callIdBytes c (q.up.resumePointFor c)
      (q.up.spool.takePending c segmentsPerPass) [] 0 q with
  | .error q => .error q
  | .ok (q, batch, inBatch) => if 0 < inBatch then q.send (.binary batch) else .ok q

def uploadEnd (c : CallId) (q : Upload) : Except Upload Upload :=
  if c ∈ q.up.endedThisConnection then .ok q
  else match q.up.spool.callEndJson c with
    | none => .ok q
    | some ce =>
      match q.send (.text (.callEnd ce)) with
      | .error q => .error q
      | .ok q => .ok { q with up := { q.up with
          endedThisConnection := insertCall c q.up.endedThisConnection } }

def uploadCall (nowMs : Nat) (c : CallId) (q : Upload) : Except Upload Upload :=
  if q.up.spool.isSealed c then
    .ok { q with up := { q.up with knownCalls := q.up.knownCalls.erase c } }
  else do
    let q ← uploadStart nowMs c q
    match q.up.awaitingResume.get? c with
    | some deadline =>
      if nowMs < deadline then .ok q
      else do
        let up := { q.up with awaitingResume := q.up.awaitingResume.erase c }
        let q ← uploadMedia callIdBytes c { q with up }
        uploadEnd c q
    | none => do
      let q ← uploadMedia callIdBytes c q
      uploadEnd c q

def uploadCalls (nowMs : Nat) : List CallId → Upload → Except Upload Upload
  | [], q => .ok q
  | c :: cs, q => do
    let q ← uploadCall callIdBytes nowMs c q
    uploadCalls nowMs cs q

def uploadPending (u : Uplink) (nowMs : Nat) (budget : Option Nat) : Except Upload Upload :=
  let known := u.spool.pendingCalls.foldl (fun known c => insertCall c known) u.knownCalls
  uploadCalls callIdBytes nowMs known { up := { u with knownCalls := known }, budget }

/-! ## The pass of records, encoded -/

open Uplink (SendPass)

def packed (r : MediaRecord) : Protocol.MediaRecord where
  channel := r.channel
  flags := r.flags
  seq := UInt32.ofNat r.seq
  timestampMs := UInt64.ofNat r.timestampMs
  callId := callIdBytes r.callId
  payload := r.payload

def message (records : List MediaRecord) : List UInt8 :=
  records.flatMap fun r => (packed callIdBytes r).bytes

def onWire : ClientFrame → WireMessage
  | .media records => .binary (message callIdBytes records)
  | f => .text f

def lower (p : SendPass) : Upload where
  up := p.up
  out := p.out.map (onWire callIdBytes)
  budget := p.budget
  sent := p.sent

def lowered : Except SendPass SendPass → Except Upload Upload
  | .ok p => .ok (lower callIdBytes p)
  | .error p => .error (lower callIdBytes p)

theorem lowered_bind {r : Except SendPass SendPass} {k : SendPass → Except SendPass SendPass}
    {l : Upload → Except Upload Upload}
    (h : ∀ p, l (lower callIdBytes p) = lowered callIdBytes (k p)) :
    (lowered callIdBytes r >>= l) = lowered callIdBytes (r >>= k) := by
  cases r with
  | error p => rfl
  | ok p => exact h p

theorem send_lower (p : SendPass) (f : ClientFrame) :
    (lower callIdBytes p).send (onWire callIdBytes f) =
      lowered callIdBytes (transmit p f) := by
  obtain ⟨up, out, budget, sent, skipped⟩ := p
  unfold send transmit lower
  cases budget with
  | none => simp [lowered, lower]
  | some n =>
    cases n with
    | zero => rfl
    | succ n => simp [lowered, lower]

theorem uploadStart_lower (now : Nat) (c : CallId) (p : SendPass) :
    uploadStart now c (lower callIdBytes p) = lowered callIdBytes (sendStart now c p) := by
  unfold uploadStart sendStart
  by_cases hc : c ∈ p.up.startedThisConnection
  · rw [if_pos hc, if_pos (show c ∈ (lower callIdBytes p).up.startedThisConnection from hc)]
    rfl
  rw [if_neg hc, if_neg (show c ∉ (lower callIdBytes p).up.startedThisConnection from hc)]
  rw [show (lower callIdBytes p).up.spool.callStartJson c = p.up.spool.callStartJson c from rfl]
  cases p.up.spool.callStartJson c with
  | none => rfl
  | some cs =>
    dsimp only
    rw [show WireMessage.text (.callStart cs) = onWire callIdBytes (.callStart cs) from rfl,
      send_lower]
    cases transmit p (.callStart cs) with
    | error | ok => rfl

theorem uploadEnd_lower (c : CallId) (p : SendPass) :
    uploadEnd c (lower callIdBytes p) = lowered callIdBytes (sendEnd c p) := by
  unfold uploadEnd sendEnd
  by_cases hc : c ∈ p.up.endedThisConnection
  · rw [if_pos hc, if_pos (show c ∈ (lower callIdBytes p).up.endedThisConnection from hc)]
    rfl
  rw [if_neg hc, if_neg (show c ∉ (lower callIdBytes p).up.endedThisConnection from hc)]
  rw [show (lower callIdBytes p).up.spool.callEndJson c = p.up.spool.callEndJson c from rfl]
  cases p.up.spool.callEndJson c with
  | none => rfl
  | some ce =>
    dsimp only
    rw [show WireMessage.text (.callEnd ce) = onWire callIdBytes (.callEnd ce) from rfl, send_lower]
    cases transmit p (.callEnd ce) with
    | error | ok => rfl

def loweredRows : Except SendPass (SendPass × List MediaRecord) →
    Except Upload (Upload × List UInt8 × Nat)
  | .ok (p, batch) => .ok (lower callIdBytes p, message callIdBytes batch, batch.length)
  | .error p => .error (lower callIdBytes p)

theorem message_append_row {row : SegmentRow} {c : CallId} (hc : row.1.callId = c)
    (batch : List MediaRecord) :
    message callIdBytes (batch ++ [toRecord row]) =
      message callIdBytes batch ++ (rowRecord (callIdBytes c) row).bytes := by
  rw [message, flatMap_append, flatMap_singleton, ← hc]
  rfl

theorem uploadRows_lower {c : CallId} (point : ResumePoint) {rows : List SegmentRow}
    (hrows : ∀ row ∈ rows, row.1.callId = c) (batch : List MediaRecord) (p : SendPass) :
    uploadRows callIdBytes c point rows (message callIdBytes batch) batch.length
        (lower callIdBytes p) = loweredRows callIdBytes (sendRows point rows batch p) := by
  induction rows generalizing batch p with
  | nil => rfl
  | cons row rows ih =>
    have hc : row.1.callId = c := hrows row mem_cons_self
    have hrest : ∀ row ∈ rows, row.1.callId = c :=
      fun r hr => hrows r (mem_cons_of_mem _ hr)
    rw [uploadRows, sendRows]
    by_cases hskip : (!shouldSend point row.1.channel row.1.seq) = true
    · rw [if_pos hskip, if_pos hskip]
      exact ih hrest batch { p with skipped := p.skipped ++ [row] }
    rw [if_neg hskip, if_neg hskip, hc]
    by_cases hsent : (p.up.sentThrough.get? (c, row.1.channel)).any (row.1.seq ≤ ·) = true
    · rw [if_pos hsent, if_pos (show ((lower callIdBytes p).up.sentThrough.get?
        (c, row.1.channel)).any (row.1.seq ≤ ·) = true from hsent)]
      exact ih hrest batch p
    rw [if_neg hsent, if_neg (show ¬ ((lower callIdBytes p).up.sentThrough.get?
      (c, row.1.channel)).any (row.1.seq ≤ ·) = true from hsent)]
    by_cases hlen : 65535 < row.2.payload.length
    · have herr : (rowRecord (callIdBytes c) row).encodeInto (message callIdBytes batch) =
          .error (.payloadTooLarge row.2.payload.length) := by
        refine if_neg ?_
        show ¬ row.2.payload.length < 2 ^ 16
        omega
      rw [if_pos hlen, herr]
      exact ih hrest batch p
    have hfits : (rowRecord (callIdBytes c) row).Fits := by
      show row.2.payload.length < 2 ^ 16
      omega
    rw [if_neg hlen, Protocol.MediaRecord.encodeInto_of_fits hfits,
      ← message_append_row callIdBytes hc]
    dsimp only
    have hcount : batch.length + 1 = (batch ++ [toRecord row]).length := by simp
    rw [hcount]
    set p₁ : SendPass := { p with
      up := { p.up with sentThrough := p.up.sentThrough.put (c, row.1.channel) row.1.seq }
      sent := p.sent + 1 } with hp₁
    rw [show ({ lower callIdBytes p with
        up := { (lower callIdBytes p).up with
          sentThrough :=
            (lower callIdBytes p).up.sentThrough.put (c, row.1.channel) row.1.seq }
        sent := (lower callIdBytes p).sent + 1 } : Upload) = lower callIdBytes p₁ from rfl]
    by_cases hfull : (batch ++ [toRecord row]).length = segmentsPerMessage
    · rw [if_pos hfull, if_pos hfull, show WireMessage.binary
        (message callIdBytes (batch ++ [toRecord row])) =
          onWire callIdBytes (.media (batch ++ [toRecord row])) from rfl, send_lower]
      cases transmit p₁ (.media (batch ++ [toRecord row])) with
      | error p₂ => rfl
      | ok p₂ => exact ih hrest [] p₂
    rw [if_neg hfull, if_neg hfull]
    exact ih hrest (batch ++ [toRecord row]) p₁

theorem uploadMedia_lower (c : CallId) (p : SendPass) :
    uploadMedia callIdBytes c (lower callIdBytes p) =
      lowered callIdBytes (sendMedia c p) := by
  have hcall : ∀ row ∈ p.up.spool.takePending c segmentsPerPass, row.1.callId = c :=
    fun row hrow => (Spool.mem_takePending hrow).2
  have hrows := uploadRows_lower callIdBytes (p.up.resumePointFor c) hcall [] p
  unfold uploadMedia sendMedia
  rw [show uploadRows callIdBytes c ((lower callIdBytes p).up.resumePointFor c)
    ((lower callIdBytes p).up.spool.takePending c segmentsPerPass) [] 0 (lower callIdBytes p) =
      _ from hrows]
  cases sendRows (p.up.resumePointFor c) (p.up.spool.takePending c segmentsPerPass) [] p with
  | error q => rfl
  | ok r =>
    obtain ⟨q, batch⟩ := r
    cases batch with
    | nil => rfl
    | cons r rs => exact send_lower callIdBytes q (.media (r :: rs))

theorem uploadCall_lower (now : Nat) (c : CallId) (p : SendPass) :
    uploadCall callIdBytes now c (lower callIdBytes p) =
      lowered callIdBytes (sendCall now c p) := by
  unfold uploadCall sendCall
  by_cases hsealed : p.up.spool.isSealed c
  · rw [if_pos hsealed, if_pos (show (lower callIdBytes p).up.spool.isSealed c from hsealed)]
    rfl
  rw [if_neg hsealed, if_neg (show ¬ (lower callIdBytes p).up.spool.isSealed c from hsealed),
    uploadStart_lower]
  refine lowered_bind callIdBytes fun p₁ => ?_
  rw [show (lower callIdBytes p₁).up.awaitingResume.get? c = p₁.up.awaitingResume.get? c from rfl]
  have hrest : ∀ p₂, (uploadMedia callIdBytes c (lower callIdBytes p₂) >>= uploadEnd c) =
      lowered callIdBytes (sendMedia c p₂ >>= sendEnd c) := by
    intro p₂
    rw [uploadMedia_lower]
    exact lowered_bind callIdBytes (uploadEnd_lower callIdBytes c)
  cases p₁.up.awaitingResume.get? c with
  | none => exact hrest p₁
  | some deadline =>
    dsimp only
    by_cases hlt : now < deadline
    · rw [if_pos hlt, if_pos hlt]
      rfl
    rw [if_neg hlt, if_neg hlt]
    exact hrest { p₁ with up := _ }

theorem uploadPending_eq (u : Uplink) (now : Nat) (budget : Option Nat) :
    uploadPending callIdBytes u now budget =
      lowered callIdBytes (u.sendPending now budget) := by
  have hcalls : ∀ (cs : List CallId) (p : SendPass),
      uploadCalls callIdBytes now cs (lower callIdBytes p) =
        lowered callIdBytes (sendCalls now cs p) := by
    intro cs
    induction cs with
    | nil => exact fun p => rfl
    | cons c cs ih =>
      intro p
      rw [uploadCalls, sendCalls, uploadCall_lower]
      exact lowered_bind callIdBytes ih
  exact hcalls _ { up := { u with knownCalls := u.passCalls }, budget }

end Upload

end Sentinel
