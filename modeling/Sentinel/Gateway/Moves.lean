import Sentinel.Gateway.Session

/-!
# What a handler can do

The session's handlers share their parts: every one may store records, set watermarks, complain, or
give up on orphans.
-/

open Table

open List

namespace Sentinel

open Sink

/-! ## Storing, acknowledging and opening, case by case -/

def CallStart.By (cs : CallStart) (p : Peer) : Prop :=
  cs.userUid = p.userUid ∧ cs.deviceId = p.deviceId

instance (cs : CallStart) (p : Peer) : Decidable (cs.By p) :=
  inferInstanceAs (Decidable (_ ∧ _))

namespace Sink

def mark (env : SinkEnv) (s : Sink) (c : CallId) (ch : Channel) : Option Nat :=
  (env.callUuid c).bind fun u => s.ackedOf u ch

theorem mark_congr {env : SinkEnv} {a b : Sink} (h : b.watermarks = a.watermarks) (c : CallId)
    (ch : Channel) : b.mark env c ch = a.mark env c ch := by
  unfold mark ackedOf
  rw [h]

theorem ensureCall_watermarks (env : SinkEnv) (s : Sink) (cs : CallStart) (tenant device : String) :
    (s.ensureCall env cs tenant device).1.watermarks = s.watermarks := by
  obtain ⟨calls, fs, he, -⟩ := ensureCall_spec env s cs tenant device
  rw [he]

end Sink

def tooMany : Nat × String := (4429, "too many concurrent calls on one connection")

def Session.pending (s : Session) (c : CallId) : List Orphan := (s.orphans.get? c).getD []

namespace Ctx

inductive Stored (env : SinkEnv) (x : Ctx) (rec : MediaRecord) : Ctx × Bool → Prop where
  | absent (hst : x.session.calls.get? rec.callId = none) : Stored env x rec (x, true)
  | dropped (st : CallState) (hst : x.session.calls.get? rec.callId = some st)
      (hstarted : (channelOf st rec.channel).started = true)
      (hold : rec.seq ≤ (channelOf st rec.channel).through) :
      Stored env x rec (x.setChannel rec.callId st rec.channel
        { channelOf st rec.channel with sinceAck := (channelOf st rec.channel).sinceAck + 1 }, true)
  | stored (st : CallState) (hst : x.session.calls.get? rec.callId = some st)
      (hnew : (channelOf st rec.channel).started = true →
        (channelOf st rec.channel).through < rec.seq)
      (hok : (x.sink.putSegment env x.session.peer.tenantId rec.callId rec).2 = true) :
      Stored env x rec (setChannel
        { x with sink := (x.sink.putSegment env x.session.peer.tenantId rec.callId rec).1 }
        rec.callId st rec.channel (advance { channelOf st rec.channel with
          sinceAck := (channelOf st rec.channel).sinceAck + 1 } rec.seq), true)
  | failed (st : CallState) (hst : x.session.calls.get? rec.callId = some st)
      (hnew : (channelOf st rec.channel).started = true →
        (channelOf st rec.channel).through < rec.seq)
      (hok : (x.sink.putSegment env x.session.peer.tenantId rec.callId rec).2 = false)
      (e : CallError) :
      Stored env x rec ((setChannel
        { x with sink := (x.sink.putSegment env x.session.peer.tenantId rec.callId rec).1 }
        rec.callId st rec.channel (channelOf st rec.channel)).addError e, false)

variable (env : SinkEnv)

theorem storeRecord_stored (x : Ctx) (rec : MediaRecord) :
    Stored env x rec (x.storeRecord env rec) := by
  unfold storeRecord
  split
  · rename_i hst
    exact .absent hst
  rename_i st hst
  dsimp only
  split
  · rename_i hold
    rw [Bool.and_eq_true, decide_eq_true_iff] at hold
    exact .dropped st hst hold.1 hold.2
  rename_i hnew
  rw [Bool.and_eq_true, decide_eq_true_iff, not_and, not_le] at hnew
  split
  · rename_i hok
    exact .stored st hst hnew hok
  rename_i hok
  exact .failed st hst hnew (by simpa using hok) _

@[elab_as_elim] theorem storeRecord_elim {env : SinkEnv} {motive : Ctx × Bool → Prop} (x : Ctx)
    (rec : MediaRecord) (h : ∀ w, Stored env x rec w → motive w) :
    motive (x.storeRecord env rec) :=
  h _ (x.storeRecord_stored env rec)

inductive Acked (env : SinkEnv) (now : Time) (c : CallId) (ch : Channel) (st : CallState)
    (cst : ChannelState) (x : Ctx) : Ctx → Prop where
  | same (hever : cst.everAcked = true) (hacked : cst.acked = cst.through) :
      Acked env now c ch st cst x
        (x.setChannel c st ch { cst with lastAck := some now, sinceAck := 0 })
  | sent (hnew : cst.everAcked = true → cst.acked ≠ cst.through)
      (hok : (x.sink.setWatermark env c ch cst.through).2 = true) :
      Acked env now c ch st cst x { (setChannel
          { x with sink := (x.sink.setWatermark env c ch cst.through).1 } c st ch
          { cst with lastAck := some now, sinceAck := 0, acked := cst.through, everAcked := true })
        with out := { x.out with acks := x.out.acks ++ [(c, ch, cst.through)] } }
  | failed (hok : (x.sink.setWatermark env c ch cst.through).2 = false) :
      Acked env now c ch st cst x (setChannel
        { x with sink := (x.sink.setWatermark env c ch cst.through).1 } c st ch
        { cst with lastAck := some now, sinceAck := 0 })

variable (now : Time)

theorem ackChannel_acked (x : Ctx) (c : CallId) (ch : Channel)
    (st : CallState) (cst : ChannelState) :
    Acked env now c ch st cst x (x.ackChannel env now c ch st cst) := by
  unfold ackChannel
  dsimp only
  split
  · rename_i hsame
    rw [Bool.and_eq_true, decide_eq_true_iff] at hsame
    exact .same hsame.1 hsame.2
  rename_i hnew
  rw [Bool.and_eq_true, decide_eq_true_iff, not_and] at hnew
  split
  · rename_i hok
    exact .sent hnew hok
  rename_i hok
  exact .failed (by simpa using hok)

@[elab_as_elim] theorem ackChannel_elim {env : SinkEnv} {now : Time} {motive : Ctx → Prop}
    (x : Ctx) (c : CallId) (ch : Channel) (st : CallState) (cst : ChannelState)
    (h : ∀ w, Acked env now c ch st cst x w → motive w) :
    motive (x.ackChannel env now c ch st cst) :=
  h _ (x.ackChannel_acked env now c ch st cst)

theorem mark_of_ensureCall {env : SinkEnv} {sink : Sink} {cs : CallStart} {tenant device : String}
    {existed : Bool} {acked : Channel → Option Nat}
    (h : (sink.ensureCall env cs tenant device).2 = some (existed, acked)) :
    acked = (sink.ensureCall env cs tenant device).1.mark env cs.callId := by
  obtain ⟨-, -, -, -, hacked⟩ := ensureCall_spec env sink cs tenant device
  obtain ⟨u, hu, rfl⟩ := hacked existed acked h
  funext ch
  rw [mark_congr (ensureCall_watermarks ..), mark, hu]
  rfl

def active (x : Ctx) (now : Time) : Ctx :=
  { x with session := { x.session with lastActivity := now } }

def ensured (env : SinkEnv) (x : Ctx) (cs : CallStart) : Ctx :=
  { x with sink := (x.sink.ensureCall env cs x.session.peer.tenantId x.session.peer.deviceId).1 }

theorem mark_ensured (x : Ctx) (cs : CallStart) (c : CallId) (ch : Channel) :
    (x.ensured env cs).sink.mark env c ch = x.sink.mark env c ch :=
  mark_congr (ensureCall_watermarks ..) c ch

def openedAt (env : SinkEnv) (x : Ctx) (cs : CallStart) (now : Time) : CallState :=
  resumeFrom ((x.session.calls.get? cs.callId).getD { start := cs, firstSeen := now })
    (x.sink.mark env cs.callId)

def opened (env : SinkEnv) (x : Ctx) (cs : CallStart) (now : Time) : Ctx :=
  { x with session := { x.session with
    calls := x.session.calls.put cs.callId (x.openedAt env cs now) } }

inductive Started (env : SinkEnv) (now : Time) (x : Ctx) (cs : CallStart) : Ctx × Bool → Prop where
  | mismatched (hby : ¬ cs.By x.session.peer) (e : CallError) (he : e.callId = cs.callId) :
      Started env now x cs ((x.active now).addError e, true)
  | full (hby : cs.By x.session.peer)
      (hfull : x.session.cfg.maxCallsPerConn ≤ x.session.calls.rows.length) :
      Started env now x cs ({ x.active now with out := { x.out with close := some tooMany } }, true)
  | failed (hby : cs.By x.session.peer)
      (hlimit : x.session.calls.rows.length < x.session.cfg.maxCallsPerConn)
      (hres : (x.sink.ensureCall env cs x.session.peer.tenantId x.session.peer.deviceId).2 = none)
      (e : CallError) (he : e.fatal = false) :
      Started env now x cs (((x.active now).ensured env cs).addError e, false)
  | opens (hby : cs.By x.session.peer)
      (hlimit : x.session.calls.rows.length < x.session.cfg.maxCallsPerConn) (existed : Bool)
      (hres : (x.sink.ensureCall env cs x.session.peer.tenantId x.session.peer.deviceId).2 =
        some (existed, ((x.active now).ensured env cs).sink.mark env cs.callId)) :
      Started env now x cs ((((x.active now).ensured env cs).opened env cs now).afterOpen env
        cs.callId (((x.active now).ensured env cs).openedAt env cs now) existed now)

theorem onCallStart_started (x : Ctx) (cs : CallStart) :
    Started env now x cs (x.onCallStart env cs now) := by
  unfold onCallStart checkIdentity
  dsimp only
  by_cases hu : cs.userUid = x.session.peer.userUid
  · by_cases hd : cs.deviceId = x.session.peer.deviceId
    · rw [if_neg (not_not.mpr hu), if_neg (not_not.mpr hd)]
      rw [if_neg (by simp)]
      split
      · rename_i hfull
        exact .full ⟨hu, hd⟩ hfull
      rename_i hlimit
      split
      · rename_i hres
        exact .failed ⟨hu, hd⟩ (not_le.mp hlimit) hres _ rfl
      rename_i existed acked hres
      obtain rfl := mark_of_ensureCall hres
      exact .opens ⟨hu, hd⟩ (not_le.mp hlimit) existed hres
    rw [if_neg (not_not.mpr hu), if_pos hd]
    exact .mismatched (fun hby => hd hby.2) _ rfl
  rw [if_pos hu]
  exact .mismatched (fun hby => hu hby.1) _ rfl

@[elab_as_elim] theorem onCallStart_elim {env : SinkEnv} {now : Time} {motive : Ctx × Bool → Prop}
    (x : Ctx) (cs : CallStart) (h : ∀ w, Started env now x cs w → motive w) :
    motive (x.onCallStart env cs now) :=
  h _ (x.onCallStart_started env now cs)

def readied (x : Ctx) (c : CallId) (st : CallState) (existed : Bool) : Ctx :=
  (if existed then x.addResume c st else x).dropOrphans c

theorem readied_session (x : Ctx) (c : CallId) (st : CallState) (existed : Bool) :
    (x.readied c st existed).session = (x.dropOrphans c).session := by
  cases existed <;> rfl

theorem afterOpen_eq (x : Ctx) (c : CallId) (st : CallState) (existed : Bool) :
    x.afterOpen env c st existed now =
      if (storeAll env (x.session.pending c) (x.readied c st existed)).2
      then ((storeAll env (x.session.pending c) (x.readied c st existed)).1.emitDueAcks env now,
        true) else ((storeAll env (x.session.pending c) (x.readied c st existed)).1, false) := by
  have hresume : (if existed then x.addResume c st else x).session = x.session := by
    split <;> rfl
  unfold afterOpen Session.pending readied
  dsimp only
  rw [hresume]

variable {x : Ctx}

variable {rec : MediaRecord} {ce : CallEnd}

theorem onMedia_of_open {st : CallState} (hst : x.session.calls.get? rec.callId = some st) :
    x.onMedia env rec now = if ((x.active now).storeRecord env rec).2
      then (((x.active now).storeRecord env rec).1.emitDueAcks env now, true)
      else (((x.active now).storeRecord env rec).1, false) := by
  unfold onMedia
  simp only [hst]
  rfl

def buffered (x : Ctx) (rec : MediaRecord) (now : Time) : Ctx :=
  { x with session := { x.session with
    orphans := x.session.orphans.put rec.callId
      ((x.session.orphans.get? rec.callId).getD [] ++ [{ record := rec, arrived := now }]) } }

theorem onMedia_of_not_open (hst : x.session.calls.get? rec.callId = none) :
    x.onMedia env rec now = (((x.active now).buffered rec now).expireOrphans now, true) := by
  unfold onMedia
  simp only [hst]
  rfl

theorem onCallEnd_of_not_open (hst : x.session.calls.get? ce.callId = none) :
    ∃ e, x.onCallEnd env ce now = ((x.active now).addError e, true) := by
  unfold onCallEnd
  simp only [hst]
  exact ⟨_, rfl⟩

def finished (env : SinkEnv) (x : Ctx) (ce : CallEnd) : Ctx :=
  { x with sink := (x.sink.finishCall env x.session.peer.tenantId ce).1 }

def endedAt (x : Ctx) (c : CallId) (st : CallState) : Ctx :=
  { x with session := { x.session with calls := x.session.calls.put c { st with ended := true } } }

inductive Ending (env : SinkEnv) (now : Time) (x : Ctx) (ce : CallEnd) (st : CallState) :
    Ctx × Bool → Prop where
  | finished (hok : (x.sink.finishCall env x.session.peer.tenantId ce).2 = true) :
      Ending env now x ce st
        ((((x.active now).finished env ce).endedAt ce.callId st).flushAcks env now, true)
  | failed (hok : (x.sink.finishCall env x.session.peer.tenantId ce).2 = false) (e : CallError) :
      Ending env now x ce st (((x.active now).finished env ce).addError e, false)

theorem onCallEnd_ending (x : Ctx) {st : CallState}
    (hst : x.session.calls.get? ce.callId = some st) :
    Ending env now x ce st (x.onCallEnd env ce now) := by
  unfold onCallEnd
  simp only [hst]
  split
  · rename_i hok
    exact .finished hok
  rename_i hok
  exact .failed (by simpa using hok) _

end Ctx

inductive Input where
  | frame (f : ClientFrame)
  | tick
  deriving DecidableEq

def Carries (s : Session) (i : Input) (r : MediaRecord) : Prop :=
  (∃ records, i = .frame (.media records) ∧ r ∈ records) ∨
    ∃ c os, s.orphans.get? c = some os ∧ ∃ o ∈ os, o.record = r

inductive Move (env : SinkEnv) (now : Time) (i : Input) (src : MediaRecord → Prop) :
    Ctx → Ctx → Prop where
  | neutral (x : Ctx) (t : Time) (beats : List Int) (close : Option (Nat × String)) :
      Move env now i src x { x with
        session := { x.session with lastActivity := t }
        out := { x.out with heartbeats := beats, close := close } }
  | mismatch (x : Ctx) (cs : CallStart) (e : CallError) (hi : i = .frame (.callStart cs))
      (hpeer : ¬ (cs.userUid = x.session.peer.userUid ∧ cs.deviceId = x.session.peer.deviceId))
      (he : e.callId = cs.callId) : Move env now i src x (x.addError e)
  | complain (x : Ctx) (e : CallError) (he : e.fatal = false) : Move env now i src x (x.addError e)
  | ensureFails (x : Ctx) (cs : CallStart) (hi : i = .frame (.callStart cs))
      (hpeer : cs.userUid = x.session.peer.userUid ∧ cs.deviceId = x.session.peer.deviceId)
      (hr : (x.sink.ensureCall env cs x.session.peer.tenantId x.session.peer.deviceId).2 = none) :
      Move env now i src x { x with
        sink := (x.sink.ensureCall env cs x.session.peer.tenantId x.session.peer.deviceId).1 }
  | opens (x : Ctx) (cs : CallStart) (existed : Bool) (acked : Channel → Option Nat)
      (hi : i = .frame (.callStart cs))
      (hpeer : cs.userUid = x.session.peer.userUid ∧ cs.deviceId = x.session.peer.deviceId)
      (hr : (x.sink.ensureCall env cs x.session.peer.tenantId x.session.peer.deviceId).2 =
        some (existed, acked)) :
      Move env now i src x { x with
        sink := (x.sink.ensureCall env cs x.session.peer.tenantId x.session.peer.deviceId).1
        session := { x.session with
          calls := x.session.calls.put cs.callId (Ctx.resumeFrom
            ((x.session.calls.get? cs.callId).getD { start := cs, firstSeen := now }) acked) } }
  | resume (x : Ctx) (c : CallId) (st : CallState) (hst : x.session.calls.get? c = some st) :
      Move env now i src x { x with
        out := { x.out with resumes := x.out.resumes ++ [(c, Ctx.watermarkMap st)] } }
  | take (x : Ctx) (c : CallId) :
      Move env now i src x { x with
        session := { x.session with orphans := x.session.orphans.erase c } }
  | touch (x : Ctx) (c : CallId) (st : CallState) (ch : Channel) (n : Nat) (last : Option Time)
      (hst : x.session.calls.get? c = some st) :
      Move env now i src x
        (x.setChannel c st ch { Ctx.channelOf st ch with sinceAck := n, lastAck := last })
  | store (x : Ctx) (rec : MediaRecord) (st : CallState) (n : Nat)
      (hsrc : src rec) (hst : x.session.calls.get? rec.callId = some st)
      (hok : (x.sink.putSegment env x.session.peer.tenantId rec.callId rec).2 = true) :
      Move env now i src x (Ctx.setChannel { x with
          sink := (x.sink.putSegment env x.session.peer.tenantId rec.callId rec).1 }
        rec.callId st rec.channel
        (advance { Ctx.channelOf st rec.channel with sinceAck := n } rec.seq))
  | storeFails (x : Ctx) (rec : MediaRecord) (st : CallState)
      (hsrc : src rec) (hst : x.session.calls.get? rec.callId = some st)
      (hok : (x.sink.putSegment env x.session.peer.tenantId rec.callId rec).2 = false) :
      Move env now i src x { x with
        sink := (x.sink.putSegment env x.session.peer.tenantId rec.callId rec).1 }
  | acknowledge (x : Ctx) (c : CallId) (ch : Channel) (st : CallState) (cst : ChannelState)
      (hst : x.session.calls.get? c = some st) (hcst : st.channels ch = some cst)
      (hstarted : cst.started = true)
      (hok : (x.sink.setWatermark env c ch cst.through).2 = true) :
      Move env now i src x { (Ctx.setChannel { x with
            sink := (x.sink.setWatermark env c ch cst.through).1 } c st ch
          { cst with lastAck := some now, sinceAck := 0, acked := cst.through, everAcked := true })
        with out := { x.out with acks := x.out.acks ++ [(c, ch, cst.through)] } }
  | markFails (x : Ctx) (c : CallId) (ch : Channel) (st : CallState) (cst : ChannelState)
      (hst : x.session.calls.get? c = some st) (hcst : st.channels ch = some cst)
      (hstarted : cst.started = true)
      (hok : (x.sink.setWatermark env c ch cst.through).2 = false) :
      Move env now i src x { x with sink := (x.sink.setWatermark env c ch cst.through).1 }
  | buffer (x : Ctx) (rec : MediaRecord) (records : List MediaRecord)
      (hi : i = .frame (.media records)) (hrec : rec ∈ records) (hsrc : src rec)
      (hst : x.session.calls.get? rec.callId = none) :
      Move env now i src x { x with session := { x.session with
        orphans := x.session.orphans.put rec.callId
          ((x.session.orphans.get? rec.callId).getD [] ++ [{ record := rec, arrived := now }]) } }
  | expire (x : Ctx) : Move env now i src x (x.expireOrphans now)
  | expireQuietly (x : Ctx) : Move env now i src x { x.expireOrphans now with out := x.out }
  | unknownEnd (x : Ctx) (ce : CallEnd) (e : CallError) (hi : i = .frame (.callEnd ce))
      (hst : x.session.calls.get? ce.callId = none) (he : e.callId = ce.callId) :
      Move env now i src x (x.addError e)
  | finish (x : Ctx) (ce : CallEnd) (st : CallState) (hi : i = .frame (.callEnd ce))
      (hst : x.session.calls.get? ce.callId = some st) :
      Move env now i src x { x with sink := (x.sink.finishCall env x.session.peer.tenantId ce).1 }
  | ended (x : Ctx) (c : CallId) (st : CallState) (hst : x.session.calls.get? c = some st) :
      Move env now i src x { x with session := { x.session with
        calls := x.session.calls.put c { st with ended := true } } }

inductive SinkEffect (env : SinkEnv) (i : Input) (s : Session) (a : Sink) : Sink → Prop where
  | quiet (fs : List Fault) : SinkEffect env i s a { a with faults := fs }
  | create (cs : CallStart) (u : Uuid) (startedAt : Time) (fs : List Fault)
      (hi : i = .frame (.callStart cs))
      (hpeer : cs.userUid = s.peer.userUid ∧ cs.deviceId = s.peer.deviceId)
      (hu : env.callUuid cs.callId = some u) (hnew : u ∉ a.calls.keys) :
      SinkEffect env i s a { a with
        calls := a.calls.insertNew u
          (Sink.newCallRow cs s.peer.tenantId s.peer.deviceId startedAt)
        faults := fs }
  | segment (rec : MediaRecord) (u : Uuid) (entry : SegmentEntry) (fs : List Fault)
      (puts : List MediaRecord) (writes : List Write) (hkey : rec.callId ∈ s.calls.keys)
      (hu : env.callUuid rec.callId = some u)
      (hvisible : (a.calls.get? u).any (·.tenantId = s.peer.tenantId))
      (hputs : puts = a.puts ∨ puts = a.puts ++ [rec])
      (hwrites : writes = a.writes ∨
        writes = a.writes ++ [.segment u rec.channel (asInt32 rec.seq)]) :
      SinkEffect env i s a { a with
        segments := a.segments.insertNew (u, rec.channel, asInt32 rec.seq) entry
        faults := fs, puts := puts, writes := writes }
  | mark (c : CallId) (ch : Channel) (t : Nat) (u : Uuid) (w : Int) (fs : List Fault)
      (hkey : c ∈ s.calls.keys) (hu : env.callUuid c = some u) (hrow : u ∈ a.calls.keys)
      (hw : w = asInt32 t ∨ a.watermarks.get? (u, ch) = some w) :
      SinkEffect env i s a { a with
        watermarks := a.watermarks.put (u, ch) w
        faults := fs, writes := a.writes ++ [.watermark u ch] }
  | finish (ce : CallEnd) (u : Uuid) (row : CallRow) (endedAt : Time) (fs : List Fault)
      (hi : i = .frame (.callEnd ce)) (hkey : ce.callId ∈ s.calls.keys)
      (hu : env.callUuid ce.callId = some u) (hrow : a.calls.get? u = some row)
      (htenant : row.tenantId = s.peer.tenantId) (hopen : row.ended = none) :
      SinkEffect env i s a { a with
        calls := a.calls.put u { row with ended := some (endedAt, ce.reason) }
        outbox := a.outbox.insertNew u { tenantId := s.peer.tenantId, finalizedAt := endedAt }
        faults := fs, writes := a.writes ++ [.ended u] }

namespace SinkEffect

variable {env : SinkEnv} {i : Input} {s : Session} {a : Sink}

theorem ensureCall (cs : CallStart) (hi : i = .frame (.callStart cs))
    (hpeer : cs.userUid = s.peer.userUid ∧ cs.deviceId = s.peer.deviceId) :
    SinkEffect env i s a (a.ensureCall env cs s.peer.tenantId s.peer.deviceId).1 := by
  obtain ⟨calls, fs, he, hcalls, -⟩ := ensureCall_spec env a cs s.peer.tenantId s.peer.deviceId
  rw [he]
  rcases hcalls with rfl | ⟨u, at_, hu, hnew, rfl⟩
  · exact .quiet fs
  · exact .create cs u at_ fs hi hpeer hu hnew

theorem putSegment (rec : MediaRecord) (hkey : rec.callId ∈ s.calls.keys) :
    SinkEffect env i s a (a.putSegment env s.peer.tenantId rec.callId rec).1 := by
  obtain ⟨segments, fs, puts, writes, he, hcases, hputs⟩ :=
    putSegment_spec env a s.peer.tenantId rec.callId rec
  rw [he]
  rcases hcases with ⟨rfl, rfl, rfl⟩ | ⟨u, entry, hu, hvisible, rfl, hwrites⟩
  · exact .quiet fs
  exact .segment rec u entry fs puts writes hkey hu hvisible
    (hputs.elim (fun h => Or.inr h.2) fun h => Or.inl h.2) hwrites

theorem setWatermark (c : CallId) (ch : Channel) (t : Nat) (hkey : c ∈ s.calls.keys) :
    SinkEffect env i s a (a.setWatermark env c ch t).1 := by
  obtain ⟨marks, fs, writes, he, hcases⟩ := setWatermark_spec env a c ch t
  rw [he]
  rcases hcases with ⟨rfl, rfl⟩ | ⟨u, w, hu, hrow, rfl, hw, rfl⟩
  · exact .quiet fs
  · exact .mark c ch t u w fs hkey hu hrow hw

theorem finishCall (ce : CallEnd) (hi : i = .frame (.callEnd ce))
    (hkey : ce.callId ∈ s.calls.keys) :
    SinkEffect env i s a (a.finishCall env s.peer.tenantId ce).1 := by
  obtain ⟨calls, outbox, fs, writes, he, hcases⟩ := finishCall_spec env a s.peer.tenantId ce
  rw [he]
  rcases hcases with ⟨rfl, rfl, rfl⟩ | ⟨u, row, at_, hu, hrow, htenant, hopen, rfl, rfl, rfl⟩
  · exact .quiet fs
  · exact .finish ce u row at_ fs hi hkey hu hrow htenant hopen

theorem row_mono {b : Sink} {u : Uuid} {row : CallRow} (h : SinkEffect env i s a b)
    (hrow : a.calls.get? u = some row) :
    ∃ row', b.calls.get? u = some row' ∧ row'.tenantId = row.tenantId ∧
      (row.ended.isSome → row'.ended.isSome) := by
  cases h with
  | create =>
    exact ⟨row, get?_eq_some.mpr (mem_rows_insertNew.mpr (.inl (get?_eq_some.mp hrow))), rfl, id⟩
  | finish ce v row' at_ fs hi hkey hv hrow' =>
    by_cases huv : u = v
    · subst huv
      obtain rfl : row = row' := Option.some.inj (hrow.symm.trans hrow')
      exact ⟨_, get?_put_self _ _ _, rfl, fun _ => rfl⟩
    · exact ⟨row, (get?_put_ne _ huv _).trans hrow, rfl, id⟩
  | _ => exact ⟨row, hrow, rfl, id⟩

end SinkEffect

namespace Move

variable {env : SinkEnv} {now : Time} {i : Input} {src : MediaRecord → Prop} {x y : Ctx}

theorem peer_cfg (h : Move env now i src x y) :
    y.session.peer = x.session.peer ∧ y.session.cfg = x.session.cfg := by
  cases h <;> exact ⟨rfl, rfl⟩

variable {c : CallId}

theorem keys_mono (h : Move env now i src x y) (hc : c ∈ x.session.calls.keys) :
    c ∈ y.session.calls.keys := by
  cases h with
  | opens => exact mem_keys_put.mpr (Or.inr hc)
  | touch _ _ _ _ _ hst | store _ _ _ _ hst | acknowledge _ _ _ _ hst | ended _ _ hst =>
    exact (mem_keys_put_of_get? hst).mpr hc
  | _ => exact hc

theorem keys_new (h : Move env now i src x y) (hc : c ∈ y.session.calls.keys) :
    c ∈ x.session.calls.keys ∨ ∃ cs r, i = .frame (.callStart cs) ∧ c = cs.callId ∧
      (cs.userUid = x.session.peer.userUid ∧ cs.deviceId = x.session.peer.deviceId) ∧
      (x.sink.ensureCall env cs x.session.peer.tenantId x.session.peer.deviceId).2 = some r ∧
      y.sink = (x.sink.ensureCall env cs x.session.peer.tenantId x.session.peer.deviceId).1 := by
  cases h with
  | opens cs existed acked hi hpeer hr =>
    rcases mem_keys_put.mp hc with rfl | hc
    · exact Or.inr ⟨cs, _, hi, rfl, hpeer, hr, rfl⟩
    · exact Or.inl hc
  | touch _ _ _ _ _ hst | store _ _ _ _ hst | acknowledge _ _ _ _ hst | ended _ _ hst =>
    exact Or.inl ((mem_keys_put_of_get? hst).mp hc)
  | _ => exact Or.inl hc

theorem sinkEffect (h : Move env now i src x y) : SinkEffect env i x.session x.sink y.sink := by
  cases h with
  | ensureFails cs hi hpeer | opens cs _ _ hi hpeer => exact .ensureCall cs hi hpeer
  | store rec _ _ _ hst | storeFails rec _ _ hst =>
    exact .putSegment rec (mem_keys_of_get? hst)
  | acknowledge c ch _ _ hst | markFails c ch _ _ hst =>
    exact .setWatermark c ch _ (mem_keys_of_get? hst)
  | finish ce st hi hst => exact .finishCall ce hi (mem_keys_of_get? hst)
  | _ => exact .quiet _

end Move

abbrev Moves (env : SinkEnv) (now : Time) (i : Input) (src : MediaRecord → Prop) :
    Ctx → Ctx → Prop :=
  Relation.ReflTransGen (Move env now i src)

namespace Ctx

variable {env : SinkEnv} {now : Time} {i : Input} {src : MediaRecord → Prop} {x : Ctx}

open Relation (ReflTransGen)

variable {st : CallState} {I : Ctx → Prop} {select : ChannelState → Bool}

variable {ch : Channel} {cst : ChannelState} {c : CallId} {records : List MediaRecord}

@[simp] theorem channelOf_some (h : st.channels ch = some cst) : channelOf st ch = cst := by
  simp [channelOf, h]

/-! ## What the loops keep -/

theorem ackSelected_keeps (hsel : ∀ cst, select cst = true → cst.started = true)
    (hack : ∀ y c ch st cst, y.session.calls.get? c = some st → st.channels ch = some cst →
      cst.started = true → I y → I (y.ackChannel env now c ch st cst)) (hx : I x) :
    I (x.ackSelected env now select) := by
  unfold ackSelected
  generalize x.session.calls.keys.product [Channel.far, Channel.near] = ps
  induction ps generalizing x with
  | nil => exact hx
  | cons p ps ih =>
    refine ih ?_
    show I (x.ackIf env now select p.1 p.2)
    unfold ackIf
    split
    · exact hx
    rename_i st hst
    split
    · exact hx
    rename_i cst hcst
    split
    · rename_i hs
      exact hack x p.1 p.2 st cst hst hcst (hsel cst hs) hx
    · exact hx

theorem isDue_started {cfg : Config} (cst : ChannelState) (h : isDue cfg now cst = true) :
    cst.started = true :=
  (Bool.and_eq_true_iff.mp h).1

theorem storeAll_keeps {os : List Orphan}
    (hstore : ∀ y, ∀ o ∈ os, I y → I (y.storeRecord env o.record).1) (hx : I x) :
    I (storeAll env os x).1 := by
  induction os generalizing x with
  | nil => exact hx
  | cons o os ih =>
    have ho := hstore x o mem_cons_self hx
    unfold storeAll
    dsimp only
    split
    · exact ih (fun y o' ho' => hstore y o' (mem_cons_of_mem _ ho')) ho
    · exact ho

theorem afterOpen_keeps {I : Ctx → Prop} {st : CallState} {existed : Bool}
    (hstore : ∀ y, ∀ o ∈ x.session.pending c, I y → I (y.storeRecord env o.record).1)
    (hack : ∀ y d ch st cst, y.session.calls.get? d = some st → st.channels ch = some cst →
      cst.started = true → I y → I (y.ackChannel env now d ch st cst))
    (hx : I (x.readied c st existed)) : I (x.afterOpen env c st existed now).1 := by
  have hstored := storeAll_keeps hstore hx
  rw [afterOpen_eq]
  split
  · exact ackSelected_keeps isDue_started hack hstored
  · exact hstored

/-! ## The parts of a handler are moves -/

theorem storeRecord_moves (rec : MediaRecord) (hsrc : src rec) :
    Moves env now i src x (x.storeRecord env rec).1 := by
  unfold storeRecord
  split
  · exact .refl
  rename_i st hst
  dsimp only
  split
  · exact .single (.touch x rec.callId st rec.channel _ _ hst)
  split
  · rename_i hok
    exact .single (.store x rec st _ hsrc hst hok)
  rename_i hok
  refine (ReflTransGen.single (.storeFails x rec st hsrc hst (by simpa using hok))).tail
    (.touch _ rec.callId st rec.channel _ _ hst) |>.tail (.complain _ _ rfl)

theorem ackChannel_moves (hst : x.session.calls.get? c = some st) (hcst : st.channels ch = some cst)
    (hstarted : cst.started = true) : Moves env now i src x (x.ackChannel env now c ch st cst) := by
  have htouch : ∀ y : Ctx, y.session.calls.get? c = some st → Move env now i src y
        (y.setChannel c st ch { cst with lastAck := some now, sinceAck := 0 }) := by
    intro y hy
    have hm : Move env now i src y _ := .touch y c st ch 0 (some now) hy
    rwa [channelOf_some hcst] at hm
  refine x.ackChannel_elim c ch st cst fun y hacked => ?_
  cases hacked with
  | same => exact .single (htouch x hst)
  | sent _ hok => exact .single (.acknowledge x c ch st cst hst hcst hstarted hok)
  | failed hok =>
    exact (ReflTransGen.single (.markFails x c ch st cst hst hcst hstarted hok)).tail (htouch _ hst)

theorem ackSelected_moves (hsel : ∀ cst, select cst = true → cst.started = true) :
    Moves env now i src x (x.ackSelected env now select) :=
  ackSelected_keeps (I := Moves env now i src x) hsel
    (fun _ _ _ _ _ hst hcst hs hy => hy.trans (ackChannel_moves hst hcst hs)) .refl

theorem emitDueAcks_moves : Moves env now i src x (x.emitDueAcks env now) :=
  ackSelected_moves isDue_started

/-! ## Every handler is a sequence of moves -/

theorem neutral_activity (t : Time) :
    Move env now i src x { x with session := { x.session with lastActivity := t } } :=
  .neutral x t x.out.heartbeats x.out.close

theorem afterOpen_moves (hst : x.session.calls.get? c = some st)
    (hsrc : ∀ os, x.session.orphans.get? c = some os → ∀ o ∈ os, src o.record) (existed : Bool) :
    Moves env now i src x (x.afterOpen env c st existed now).1 := by
  refine afterOpen_keeps (I := Moves env now i src x) (fun y o ho hy => ?_)
    (fun y d ch st cst hst hcst hs hy => hy.trans (ackChannel_moves hst hcst hs)) ?_
  · refine hy.trans (storeRecord_moves o.record ?_)
    unfold Session.pending at ho
    cases hos : x.session.orphans.get? c with
    | none => simp [hos] at ho
    | some os => exact hsrc os hos o (by simpa [hos] using ho)
  have hresume : Moves env now i src x (if existed then x.addResume c st else x) := by
    split
    · exact .single (.resume x c st hst)
    · exact .refl
  exact hresume.tail (.take _ c)

theorem onCallStart_moves (cs : CallStart) (hi : i = .frame (.callStart cs))
    (hsrc : ∀ c os, x.session.orphans.get? c = some os → ∀ o ∈ os, src o.record) :
    Moves env now i src x (x.onCallStart env cs now).1 := by
  refine .head (neutral_activity now) ?_
  refine x.onCallStart_elim cs fun w hs => ?_
  cases hs with
  | mismatched hby e he => exact .single (.mismatch (x.active now) cs e hi hby he)
  | full => exact .single (.neutral (x.active now) now x.out.heartbeats _)
  | failed hby _ hres e he =>
    exact .head (.ensureFails (x.active now) cs hi hby hres) (.single (.complain _ e he))
  | opens hby _ existed hres =>
    refine .head (.opens (x.active now) cs existed _ hi hby hres) ?_
    refine afterOpen_moves (get?_put_self _ _ _) ?_ existed
    exact hsrc cs.callId

theorem onMedia_moves (rec : MediaRecord)
    (hi : i = .frame (.media records)) (hrec : rec ∈ records) (hsrc : src rec) :
    Moves env now i src x (x.onMedia env rec now).1 := by
  refine .head (neutral_activity now) ?_
  unfold onMedia
  generalize { x with session := { x.session with lastActivity := now } } = y
  dsimp only
  split
  · rename_i hst
    exact (ReflTransGen.single (.buffer y rec records hi hrec hsrc hst)).tail (.expire _)
  split
  · exact (storeRecord_moves rec hsrc).trans emitDueAcks_moves
  · exact storeRecord_moves rec hsrc

theorem onCallEnd_moves (ce : CallEnd) (hi : i = .frame (.callEnd ce)) :
    Moves env now i src x (x.onCallEnd env ce now).1 := by
  refine .head (neutral_activity now) ?_
  unfold onCallEnd
  generalize { x with session := { x.session with lastActivity := now } } = y
  dsimp only
  split
  · rename_i hst
    exact .single (.unknownEnd y ce _ hi hst rfl)
  rename_i st hst
  refine .head (.finish y ce st hi hst) ?_
  split
  · exact .head (.ended _ ce.callId st hst) (ackSelected_moves fun _ h => h)
  · exact .single (.complain _ _ rfl)

theorem onRecords_moves (hi : i = .frame (.media records))
    (hsrc : ∀ r ∈ records, src r) {rs : List MediaRecord} (hrs : rs ⊆ records) :
    Moves env now i src x (x.onRecords env now rs) := by
  induction rs generalizing x with
  | nil => exact .refl
  | cons rec rs ih =>
    have hmedia : Moves env now i src x (x.onMedia env rec now).1 :=
      onMedia_moves rec hi (hrs mem_cons_self) (hsrc rec (hrs mem_cons_self))
    unfold onRecords
    dsimp only
    split
    · exact hmedia.trans (ih (subset_of_cons_subset hrs))
    · exact hmedia

end Ctx

variable {env : SinkEnv} {now : Time} {s : Session} {sink : Sink}

theorem dispatch_moves (f : ClientFrame) :
    Moves env now (.frame f) (Carries s (.frame f)) { session := s, sink }
      (dispatch env s sink f now) := by
  cases f with
  | callStart cs =>
    exact Ctx.onCallStart_moves cs rfl fun c os hos o ho => Or.inr ⟨c, os, hos, o, ho, rfl⟩
  | callEnd ce => exact Ctx.onCallEnd_moves ce rfl
  | media records =>
    exact Ctx.onRecords_moves rfl (fun r hr => Or.inl ⟨records, rfl, hr⟩) (Subset.refl _)
  | heartbeat =>
    refine .head (Ctx.neutral_activity now) (.head (.expireQuietly _) ?_)
    exact .single (.neutral _ now _ _)
  | malformed => exact .single (.neutral _ s.lastActivity [] _)
  | unknown => exact .refl

theorem tick_moves :
    Moves env now .tick (Carries s .tick) { session := s, sink } (tick env s sink now) := by
  have hwork : Moves env now .tick (Carries s .tick) { session := s, sink }
      ((Ctx.emitDueAcks env now { session := s, sink }).expireOrphans now) :=
    Ctx.emitDueAcks_moves.tail (.expire _)
  unfold tick
  split
  · exact hwork.tail (.neutral _ _ _ _)
  · exact hwork

theorem Moves.keeps {i : Input} {src : MediaRecord → Prop} {I : Ctx → Prop} {x y : Ctx}
    (h : Moves env now i src x y)
    (hI : ∀ x y, Move env now i src x y → I x → I y) (hx : I x) : I y := by
  induction h with
  | refl => exact hx
  | tail _ hm ih => exact hI _ _ hm ih

def respond (env : SinkEnv) (s : Session) (sink : Sink) (i : Input) (now : Time) : Ctx :=
  match i with
  | .frame f => dispatch env s sink f now
  | .tick => tick env s sink now

theorem respond_keeps (i : Input) {I : Ctx → Prop}
    (hI : ∀ x y, Move env now i (Carries s i) x y → I x → I y) (h0 : I { session := s, sink }) :
    I (respond env s sink i now) := by
  cases i with
  | frame f => exact (dispatch_moves f).keeps hI h0
  | tick => exact tick_moves.keeps hI h0

end Sentinel
