import Sentinel.Gateway.Fatal
import Sentinel.Gateway.Acknowledging

/-!
# A session, request by request

A `Request` is a call of one of the five methods of a session, and a run is a list of them, each
with its clock reading and what befalls its transactions.
-/

namespace Sentinel

open Runs Ctx

inductive Request where
  | callStart (cs : CallStart)
  | media (rec : MediaRecord)
  | callEnd (ce : CallEnd)
  | heartbeat
  | tick
  deriving DecidableEq

def Request.call : Request → Option CallId
  | .callStart cs => some cs.callId
  | .media rec => some rec.callId
  | .callEnd ce => some ce.callId
  | .heartbeat => none
  | .tick => none

def serve (env : SinkEnv) (s : Session) (sink : Sink) (r : Request) (now : Time) : Ctx × Bool :=
  match r with
  | .callStart cs => Ctx.onCallStart env { session := s, sink } cs now
  | .media rec => Ctx.onMedia env { session := s, sink } rec now
  | .callEnd ce => Ctx.onCallEnd env { session := s, sink } ce now
  | .heartbeat => (Ctx.onHeartbeat { session := s, sink } now, true)
  | .tick => (tick env s sink now, true)

def Outbound.merge (dst src : Outbound) : Outbound where
  acks := dst.acks ++ src.acks
  resumes := dst.resumes ++ src.resumes
  errors := dst.errors ++ src.errors
  heartbeats := dst.heartbeats ++ src.heartbeats
  close := src.close <|> dst.close

structure Incoming where
  request : Request
  now : Time
  faults : List Fault := []

def Incoming.starts (e : Incoming) : Option CallId :=
  match e.request with
  | .callStart cs => some cs.callId
  | _ => none

theorem Incoming.starts_eq_some {e : Incoming} {c : CallId} :
    e.starts = some c ↔ ∃ cs, e.request = .callStart cs ∧ cs.callId = c := by
  unfold starts
  cases e.request <;> simp

theorem Incoming.media_or_callEnd {e : Incoming} {c : CallId} (h : e.request.call = some c)
    (hstart : e.starts ≠ some c) :
    (∃ rec, e.request = .media rec ∧ rec.callId = c) ∨
      ∃ ce, e.request = .callEnd ce ∧ ce.callId = c := by
  cases hr : e.request with
  | callStart cs =>
    rw [hr] at h
    exact absurd (starts_eq_some.mpr ⟨cs, hr, Option.some.inj h⟩) hstart
  | media rec =>
    rw [hr] at h
    exact .inl ⟨rec, rfl, Option.some.inj h⟩
  | callEnd ce =>
    rw [hr] at h
    exact .inr ⟨ce, rfl, Option.some.inj h⟩
  | heartbeat | tick =>
    rw [hr] at h
    cases h

namespace Ctx

def facing (x : Ctx) (e : Incoming) : Ctx where
  session := x.session
  sink := { x.sink with faults := e.faults }

def answer (env : SinkEnv) (x : Ctx) (e : Incoming) : Ctx × Bool :=
  serve env (x.facing e).session (x.facing e).sink e.request e.now

def step (env : SinkEnv) (x : Ctx) (e : Incoming) : Ctx :=
  { (x.answer env e).1 with out := x.out.merge (x.answer env e).1.out }

end Ctx

/-! ## The parts of the work -/

inductive Part (env : SinkEnv) (now : Time) (r : Request) : Ctx → Ctx → Prop where
  | note (x : Ctx) (t : Time) (errors : List CallError) (beats : List Int)
      (close : Option (Nat × String)) :
      Part env now r x { x with
        session := { x.session with lastActivity := t }
        out := { x.out with errors := errors, heartbeats := beats, close := close } }
  | ensure (x : Ctx) (cs : CallStart) (hr : r = .callStart cs) :
      Part env now r x (x.ensured env cs)
  | opens (x : Ctx) (cs : CallStart) (hr : r = .callStart cs)
      (hlimit : x.session.calls.rows.length < x.session.cfg.maxCallsPerConn) :
      Part env now r x (x.opened env cs now)
  | resume (x : Ctx) (c : CallId) (st : CallState) (hr : r.call = some c)
      (hst : x.session.calls.get? c = some st) : Part env now r x (x.addResume c st)
  | take (x : Ctx) (c : CallId) (hr : r.call = some c) : Part env now r x (x.dropOrphans c)
  | store (x : Ctx) (rec : MediaRecord) (hr : r.call = some rec.callId) :
      Part env now r x (x.storeRecord env rec).1
  | ack (x : Ctx) (c : CallId) (ch : Channel) (st : CallState) (cst : ChannelState)
      (hst : x.session.calls.get? c = some st) (hcst : st.channels ch = some cst)
      (hstarted : cst.started = true) : Part env now r x (x.ackChannel env now c ch st cst)
  | buffer (x : Ctx) (rec : MediaRecord) (hr : r = .media rec)
      (hst : x.session.calls.get? rec.callId = none) :
      Part env now r x (x.buffered rec now)
  | expire (x : Ctx) (errors : List CallError) :
      Part env now r x { x.expireOrphans now with out := { x.out with errors := errors } }
  | finish (x : Ctx) (ce : CallEnd) (hr : r = .callEnd ce) :
      Part env now r x (x.finished env ce)
  | ended (x : Ctx) (ce : CallEnd) (st : CallState) (hr : r = .callEnd ce)
      (hst : x.session.calls.get? ce.callId = some st) :
      Part env now r x (x.endedAt ce.callId st)

abbrev Parts (env : SinkEnv) (now : Time) (r : Request) : Ctx → Ctx → Prop :=
  Relation.ReflTransGen (Part env now r)

def Session.Filed (s : Session) : Prop :=
  ∀ c os, s.orphans.get? c = some os → ∀ o ∈ os, o.record.callId = c

theorem Session.Filed.pending {s : Session} (h : s.Filed) (c : CallId) :
    ∀ o ∈ s.pending c, o.record.callId = c := by
  unfold Session.pending
  cases hos : s.orphans.get? c with
  | none => exact List.forall_mem_nil _
  | some os => exact h c os hos

namespace Ctx

variable {env : SinkEnv} {now : Time} {r : Request} {x : Ctx}

open Relation (ReflTransGen)

theorem ackSelected_parts {select : ChannelState → Bool}
    (hsel : ∀ cst, select cst = true → cst.started = true) :
    Parts env now r x (x.ackSelected env now select) :=
  ackSelected_keeps (I := Parts env now r x) hsel
    (fun y c ch st cst hst hcst hs hy => hy.tail (.ack y c ch st cst hst hcst hs)) .refl

theorem emitDueAcks_parts : Parts env now r x (x.emitDueAcks env now) :=
  ackSelected_parts isDue_started

theorem activity_part (t : Time) :
    Part env now r x { x with session := { x.session with lastActivity := t } } :=
  .note x t x.out.errors x.out.heartbeats x.out.close

theorem addError_part (e : CallError) : Part env now r x (x.addError e) :=
  .note x x.session.lastActivity (x.out.errors ++ [e]) x.out.heartbeats x.out.close

theorem afterOpen_parts {c : CallId} {st : CallState} (hr : r.call = some c)
    (hst : x.session.calls.get? c = some st)
    (hpending : ∀ o ∈ x.session.pending c, o.record.callId = c) (existed : Bool) :
    Parts env now r x (x.afterOpen env c st existed now).1 := by
  refine afterOpen_keeps (I := Parts env now r x) (fun y o ho hy => ?_)
    (fun y d ch st cst hst hcst hs hy => hy.tail (.ack y d ch st cst hst hcst hs)) ?_
  · exact hy.tail (.store y o.record (hr.trans (congrArg some (hpending o ho).symm)))
  have hresume : Parts env now r x (if existed then x.addResume c st else x) := by
    split
    · exact .single (.resume x c st hr hst)
    · exact .refl
  exact hresume.tail (.take _ c hr)

theorem onCallStart_parts (cs : CallStart) (hr : r = .callStart cs) (hfiled : x.session.Filed) :
    Parts env now r x (x.onCallStart env cs now).1 := by
  refine .head (activity_part now) ?_
  refine x.onCallStart_elim cs fun w hs => ?_
  cases hs with
  | mismatched _ e => exact .single (addError_part e)
  | full => exact .single (.note _ now x.out.errors x.out.heartbeats _)
  | failed _ _ _ e => exact .head (.ensure _ cs hr) (.single (addError_part e))
  | opens _ hlimit existed =>
    refine .head (.ensure _ cs hr) (.head (.opens _ cs hr hlimit) ?_)
    have hcall : r.call = some cs.callId := by rw [hr]; rfl
    refine afterOpen_parts hcall ?_ ?_ existed
    · exact Table.get?_put_self _ _ _
    · exact hfiled.pending cs.callId

theorem onMedia_parts (rec : MediaRecord) (hr : r = .media rec) :
    Parts env now r x (x.onMedia env rec now).1 := by
  refine .head (activity_part now) ?_
  cases hst : x.session.calls.get? rec.callId with
  | none =>
    rw [onMedia_of_not_open env now hst]
    exact (ReflTransGen.single (.buffer (x.active now) rec hr hst)).tail (.expire _ _)
  | some st =>
    rw [onMedia_of_open env now hst]
    have hstore : Part env now r (x.active now) ((x.active now).storeRecord env rec).1 :=
      .store _ rec (hr ▸ rfl)
    split
    · exact .head hstore emitDueAcks_parts
    · exact .single hstore

theorem onCallEnd_parts (ce : CallEnd) (hr : r = .callEnd ce) :
    Parts env now r x (x.onCallEnd env ce now).1 := by
  refine .head (activity_part now) ?_
  cases hst : x.session.calls.get? ce.callId with
  | none =>
    obtain ⟨e, he⟩ := onCallEnd_of_not_open env now hst
    rw [he]
    exact .single (addError_part e)
  | some st =>
    have he := x.onCallEnd_ending env now hst
    generalize x.onCallEnd env ce now = w at he
    refine .head (.finish _ ce hr) ?_
    cases he with
    | finished => exact .head (.ended _ ce st hr hst) (ackSelected_parts fun _ h => h)
    | failed _ e => exact .single (addError_part e)

end Ctx

section Serve

variable {env : SinkEnv} {now : Time} {r : Request} {s : Session} {sink : Sink} {x y : Ctx}

theorem serve_parts (hfiled : s.Filed) :
    Parts env now r { session := s, sink } (serve env s sink r now).1 := by
  cases r with
  | callStart cs => exact onCallStart_parts cs rfl hfiled
  | media rec => exact onMedia_parts rec rfl
  | callEnd ce => exact onCallEnd_parts ce rfl
  | heartbeat =>
    refine .head (activity_part now) (.head (.expire _ []) ?_)
    exact .single (.note _ now _ _ _)
  | tick =>
    have hwork : Parts env now .tick { session := s, sink }
        ((emitDueAcks env now { session := s, sink }).expireOrphans now) :=
      emitDueAcks_parts.tail (.expire _ _)
    change Parts env now .tick _ (tick env s sink now)
    unfold tick
    split
    · exact hwork.tail (.note _ _ _ _ _)
    · exact hwork

theorem Parts.keeps {I : Ctx → Prop} (h : Parts env now r x y)
    (hI : ∀ x y, Part env now r x y → I x → I y) (hx : I x) : I y := by
  induction h with
  | refl => exact hx
  | tail _ hm ih => exact hI _ _ hm ih

end Serve

/-! ## The channels -/

def ChannelState.watermark (cst : ChannelState) : Option Nat :=
  if cst.started then some cst.through else none

theorem ChannelState.mem_watermark {cst : ChannelState} {t : Nat} :
    t ∈ cst.watermark ↔ cst.started = true ∧ cst.through = t := by
  unfold watermark
  cases cst.started <;> simp

def Session.channel (s : Session) (c : CallId) (ch : Channel) : ChannelState :=
  match s.calls.get? c with
  | some st => Ctx.channelOf st ch
  | none => {}

def Session.watermark (s : Session) (c : CallId) (ch : Channel) : Option Nat :=
  (s.channel c ch).watermark

namespace Session

variable {s : Session} {x : Ctx} {c d : CallId} {ch ch' : Channel} {st : CallState}

theorem channel_of_get? (h : s.calls.get? c = some st) (ch : Channel) :
    s.channel c ch = channelOf st ch := by
  rw [channel, h]

theorem channel_of_not_open (h : s.calls.get? c = none) (ch : Channel) : s.channel c ch = {} := by
  rw [channel, h]

theorem open_of_mem_watermark {t : Nat} (h : t ∈ s.watermark c ch) :
    ∃ st, s.calls.get? c = some st := by
  cases hst : s.calls.get? c with
  | none =>
    rw [watermark, channel_of_not_open hst] at h
    cases h
  | some st => exact ⟨st, rfl⟩

theorem channel_setChannel (h : x.session.calls.get? c = some st) (cst : ChannelState)
    (d : CallId) (ch' : Channel) :
    (x.setChannel c st ch cst).session.channel d ch' =
      if d = c ∧ ch' = ch then cst else x.session.channel d ch' := by
  unfold channel setChannel
  simp only [Table.get?_put]
  by_cases hd : d = c
  · subst hd
    simp only [if_true, true_and, h, channelOf, Function.update_apply]
    split <;> rfl
  · rw [if_neg hd, if_neg fun he => hd he.1]

theorem channel_endedAt (h : x.session.calls.get? c = some st) (d : CallId) (ch : Channel) :
    (x.endedAt c st).session.channel d ch = x.session.channel d ch := by
  unfold channel endedAt
  rw [Table.get?_put]
  by_cases hd : d = c
  · rw [if_pos hd, hd, h]
    rfl
  · rw [if_neg hd]

theorem watermark_setChannel (h : x.session.calls.get? c = some st) {cst : ChannelState}
    (hcst : cst.watermark = (channelOf st ch).watermark) (d : CallId) (ch' : Channel) :
    (x.setChannel c st ch cst).session.watermark d ch' = x.session.watermark d ch' := by
  rw [watermark, channel_setChannel h]
  split
  · rename_i heq
    rw [hcst, watermark, heq.1, heq.2, channel_of_get? h]
  · rfl

end Session

def ChannelState.resumed (cst : ChannelState) : Option Nat → ChannelState
  | some w => { cst with through := w, started := true, acked := w, everAcked := true }
  | none => cst

theorem Ctx.channelOf_resumeFrom (st : CallState) (marks : Channel → Option Nat) (ch : Channel) :
    channelOf (resumeFrom st marks) ch = (channelOf st ch).resumed (marks ch) := by
  unfold resumeFrom
  rw [channelOf]
  dsimp only
  cases marks ch <;> rfl

theorem Ctx.channel_opened (env : SinkEnv) (now : Time) (x : Ctx) (cs : CallStart) (d : CallId)
    (ch : Channel) :
    (x.opened env cs now).session.channel d ch =
      if d = cs.callId then (x.session.channel d ch).resumed (x.sink.mark env d ch)
      else x.session.channel d ch := by
  by_cases hd : d = cs.callId
  · rw [if_pos hd, hd, Session.channel_of_get? (Table.get?_put_self _ _ _), openedAt,
      channelOf_resumeFrom]
    congr 1
    unfold Session.channel
    cases x.session.calls.get? cs.callId <;> rfl
  rw [if_neg hd]
  unfold Session.channel opened
  rw [Table.get?_put_ne _ hd]

theorem Ctx.channel_opened_fresh (env : SinkEnv) (now : Time) {x : Ctx} {cs : CallStart}
    (hclosed : cs.callId ∉ x.session.calls.keys) (ch : Channel) :
    (((x.active now).ensured env cs).opened env cs now).session.channel cs.callId ch =
      ({} : ChannelState).resumed (x.sink.mark env cs.callId ch) := by
  have hfresh : ((x.active now).ensured env cs).session.channel cs.callId ch = {} :=
    Session.channel_of_not_open (Table.get?_eq_none.mpr hclosed) ch
  rw [channel_opened, if_pos rfl, hfresh, mark_ensured]
  rfl

theorem Ctx.ackChannel_watermark (env : SinkEnv) (now : Time) {x : Ctx} {c : CallId} {ch : Channel}
    {st : CallState} {cst : ChannelState} (hst : x.session.calls.get? c = some st)
    (hcst : st.channels ch = some cst) (d : CallId) (ch' : Channel) :
    (x.ackChannel env now c ch st cst).session.watermark d ch' = x.session.watermark d ch' := by
  have hsame : ∀ cst' : ChannelState, cst'.watermark = cst.watermark →
      cst'.watermark = (channelOf st ch).watermark := by
    rw [channelOf_some hcst]
    exact fun _ h => h
  refine x.ackChannel_elim c ch st cst fun w ha => ?_
  cases ha with
  | same | sent | failed => exact Session.watermark_setChannel hst (hsame _ (by rfl)) d ch'

/-! ## What no part changes -/

namespace Ctx

theorem storeRecord_frame (env : SinkEnv) (x : Ctx) (rec : MediaRecord) :
    (x.storeRecord env rec).1.session.peer = x.session.peer ∧
      (x.storeRecord env rec).1.session.cfg = x.session.cfg ∧
      (x.storeRecord env rec).1.session.orphans = x.session.orphans ∧
      (x.storeRecord env rec).1.out.acks = x.out.acks ∧
      (x.storeRecord env rec).1.out.resumes = x.out.resumes := by
  refine x.storeRecord_elim rec fun w hs => ?_
  cases hs <;> exact ⟨rfl, rfl, rfl, rfl, rfl⟩

theorem ackChannel_frame (env : SinkEnv) (now : Time) (x : Ctx) (c : CallId) (ch : Channel)
    (st : CallState) (cst : ChannelState) :
    (x.ackChannel env now c ch st cst).session.peer = x.session.peer ∧
      (x.ackChannel env now c ch st cst).session.cfg = x.session.cfg ∧
      (x.ackChannel env now c ch st cst).session.orphans = x.session.orphans ∧
      (x.ackChannel env now c ch st cst).out.resumes = x.out.resumes := by
  refine x.ackChannel_elim c ch st cst fun w ha => ?_
  cases ha <;> exact ⟨rfl, rfl, rfl, rfl⟩

end Ctx

namespace Part

variable {env : SinkEnv} {now : Time} {r : Request} {x y : Ctx}

theorem fixed (h : Part env now r x y) :
    y.session.peer = x.session.peer ∧ y.session.cfg = x.session.cfg := by
  cases h with
  | store rec hr =>
    obtain ⟨hpeer, hcfg, -⟩ := x.storeRecord_frame env rec
    exact ⟨hpeer, hcfg⟩
  | ack c ch st cst hst hcst hstarted =>
    obtain ⟨hpeer, hcfg, -⟩ := x.ackChannel_frame env now c ch st cst
    exact ⟨hpeer, hcfg⟩
  | _ => exact ⟨rfl, rfl⟩

theorem calls (h : Part env now r x y) : y.session.calls = x.session.calls ∨
      (∃ c st, c ∈ x.session.calls.keys ∧ y.session.calls = x.session.calls.put c st) ∨
      ∃ cs st, r = .callStart cs ∧ x.session.calls.rows.length < x.session.cfg.maxCallsPerConn ∧
        y.session.calls = x.session.calls.put cs.callId st := by
  have hback : ∀ {c : CallId} {st : CallState}, x.session.calls.get? c = some st →
      c ∈ x.session.calls.keys := fun hst => Table.mem_keys_of_get? hst
  cases h with
  | opens cs hr hlimit => exact .inr (.inr ⟨cs, _, hr, hlimit, rfl⟩)
  | store rec hr =>
    refine x.storeRecord_elim rec fun w hs => ?_
    cases hs with
    | absent => exact .inl rfl
    | dropped st hst | stored st hst | failed st hst =>
      exact .inr (.inl ⟨rec.callId, _, hback hst, rfl⟩)
  | ack c ch st cst hst =>
    refine x.ackChannel_elim c ch st cst fun w ha => ?_
    cases ha with
    | same | sent | failed => exact .inr (.inl ⟨c, _, hback hst, rfl⟩)
  | ended ce st hr hst => exact .inr (.inl ⟨ce.callId, _, hback hst, rfl⟩)
  | _ => exact .inl rfl

theorem keys (h : Part env now r x y) {d : CallId} (hd : d ∈ y.session.calls.keys) :
    d ∈ x.session.calls.keys ∨ ∃ cs, r = .callStart cs ∧ cs.callId = d := by
  rcases h.calls with hc | ⟨c, st, hmem, hc⟩ | ⟨cs, st, hr, -, hc⟩
  · exact .inl (hc ▸ hd)
  · rw [hc, Table.mem_keys_put] at hd
    exact .inl (hd.elim (fun he => he ▸ hmem) id)
  rw [hc, Table.mem_keys_put] at hd
  exact hd.elim (fun he => .inr ⟨cs, hr, he.symm⟩) .inl

theorem grows (h : Part env now r x y) : x.session.calls.rows.length ≤ y.session.calls.rows.length ∧
      ∀ d ∈ x.session.calls.keys, d ∈ y.session.calls.keys := by
  rcases h.calls with hc | ⟨c, st, -, hc⟩ | ⟨cs, st, -, -, hc⟩
  · rw [hc]
    exact ⟨le_rfl, fun d hd => hd⟩
  all_goals
    rw [hc]
    exact ⟨Table.le_length_put _ _ _, fun d hd => Table.mem_keys_put.mpr (.inr hd)⟩

theorem limit (h : Part env now r x y)
    (hx : x.session.calls.rows.length ≤ x.session.cfg.maxCallsPerConn) :
    y.session.calls.rows.length ≤ y.session.cfg.maxCallsPerConn := by
  rw [h.fixed.2]
  rcases h.calls with hc | ⟨c, st, hmem, hc⟩ | ⟨cs, st, -, hlimit, hc⟩
  · rwa [hc]
  · rwa [hc, Table.length_put_of_mem hmem]
  rw [hc]
  exact (Table.length_put_le _ _ _).trans hlimit

theorem sink (h : Part env now r x y) : y.sink = x.sink ∨ (∃ cs, r = .callStart cs ∧ y.sink =
        (x.sink.ensureCall env cs x.session.peer.tenantId x.session.peer.deviceId).1) ∨
      (∃ rec, r.call = some rec.callId ∧
        y.sink = (x.sink.putSegment env x.session.peer.tenantId rec.callId rec).1) ∨
      (∃ c ch t, c ∈ x.session.calls.keys ∧ y.sink = (x.sink.setWatermark env c ch t).1) ∨
      ∃ ce, r = .callEnd ce ∧
        y.sink = (x.sink.finishCall env x.session.peer.tenantId ce).1 := by
  cases h with
  | ensure cs hr => exact .inr (.inl ⟨cs, hr, rfl⟩)
  | store rec hr =>
    refine x.storeRecord_elim rec fun w hs => ?_
    cases hs with
    | absent | dropped => exact .inl rfl
    | stored | failed => exact .inr (.inr (.inl ⟨rec, hr, rfl⟩))
  | ack c ch st cst hst =>
    refine x.ackChannel_elim c ch st cst fun w ha => ?_
    cases ha with
    | same => exact .inl rfl
    | sent | failed =>
      exact .inr (.inr (.inr (.inl ⟨c, ch, cst.through, Table.mem_keys_of_get? hst, rfl⟩)))
  | finish ce hr => exact .inr (.inr (.inr (.inr ⟨ce, hr, rfl⟩)))
  | _ => exact .inl rfl

theorem filed (h : Part env now r x y) (hx : x.session.Filed) : y.session.Filed := by
  cases h with
  | take c hr =>
    intro d os hos
    by_cases hd : d = c
    · subst hd
      simp [dropOrphans] at hos
    · exact hx d os ((Table.get?_erase_ne _ hd).symm.trans hos)
  | store rec hr =>
    rwa [Session.Filed, (x.storeRecord_frame env rec).2.2.1]
  | ack c ch st cst hst hcst hstarted =>
    rwa [Session.Filed, (x.ackChannel_frame env now c ch st cst).2.2.1]
  | buffer rec hr hst =>
    intro d os hos o ho
    simp only [buffered, Table.get?_put] at hos
    split at hos
    · rename_i hd
      cases hos
      rcases List.mem_append.mp ho with ho | ho
      · cases hold : x.session.orphans.get? rec.callId with
        | none => simp [hold] at ho
        | some old => exact hd ▸ hx rec.callId old hold o (by simpa [hold] using ho)
      rw [List.mem_singleton.mp ho]
      exact hd.symm
    · exact hx d os hos o ho
  | expire errors =>
    intro d os hos
    have hmem := Table.get?_eq_some.mp hos
    exact hx d os (Table.get?_eq_some.mpr (List.mem_of_mem_filter hmem))
  | _ => exact hx

end Part

/-! ## Runs -/

section Runs

variable {env : SinkEnv} {x : Ctx} {e : Incoming} {es : List Incoming}

theorem Ctx.answer_parts (hfiled : x.session.Filed) (e : Incoming) :
    Parts env e.now e.request (x.facing e) (x.answer env e).1 :=
  serve_parts hfiled

theorem Ctx.answer_media {rec : MediaRecord} (hr : e.request = .media rec) :
    x.answer env e = (x.facing e).onMedia env rec e.now := by
  rw [answer, hr]
  rfl

theorem Ctx.answer_callEnd {ce : CallEnd} (hr : e.request = .callEnd ce) :
    x.answer env e = (x.facing e).onCallEnd env ce e.now := by
  rw [answer, hr]
  rfl

theorem Ctx.answer_callStart {cs : CallStart} (hr : e.request = .callStart cs) :
    x.answer env e = (x.facing e).onCallStart env cs e.now := by
  rw [answer, hr]
  rfl

def opening (peer : Peer) (cfg : Config) (policyVersion : Int) (t : Time) (sink : Sink) : Ctx where
  session := newSession peer cfg policyVersion t
  sink := sink

theorem Ctx.step_session (x : Ctx) (e : Incoming) :
    (x.step env e).session = (x.answer env e).1.session := rfl

theorem Ctx.step_sink (x : Ctx) (e : Incoming) :
    (x.step env e).sink = (x.answer env e).1.sink := rfl

theorem Ctx.step_filed (hfiled : x.session.Filed) (e : Incoming) : (x.step env e).session.Filed :=
  (answer_parts hfiled e).keeps (I := fun y => y.session.Filed) (fun _ _ h => h.filed) hfiled

theorem Ctx.step_fixed (hfiled : x.session.Filed) (e : Incoming) :
    (x.step env e).session.peer = x.session.peer ∧ (x.step env e).session.cfg = x.session.cfg := by
  refine (answer_parts hfiled e).keeps (I := fun y =>
    y.session.peer = x.session.peer ∧ y.session.cfg = x.session.cfg) (fun _ _ h hy => ?_) ⟨rfl, rfl⟩
  exact ⟨h.fixed.1.trans hy.1, h.fixed.2.trans hy.2⟩

theorem Ctx.step_keys (hfiled : x.session.Filed) {c : CallId}
    (hc : c ∈ (x.step env e).session.calls.keys) :
    c ∈ x.session.calls.keys ∨ e.starts = some c := by
  refine (answer_parts hfiled e).keeps (I := fun y => c ∈ y.session.calls.keys →
    c ∈ x.session.calls.keys ∨ e.starts = some c) (fun y z hp hy hz => ?_) .inl hc
  rcases hp.keys hz with hold | ⟨cs, hr, he⟩
  · exact hy hold
  · exact .inr (Incoming.starts_eq_some.mpr ⟨cs, hr, he⟩)

theorem Ctx.step_grows (hfiled : x.session.Filed) (e : Incoming) :
    x.session.calls.rows.length ≤ (x.step env e).session.calls.rows.length ∧
      ∀ c ∈ x.session.calls.keys, c ∈ (x.step env e).session.calls.keys := by
  refine (answer_parts hfiled e).keeps (I := fun y =>
    x.session.calls.rows.length ≤ y.session.calls.rows.length ∧
      ∀ c ∈ x.session.calls.keys, c ∈ y.session.calls.keys) (fun y z hp hy => ?_)
    ⟨le_rfl, fun c hc => hc⟩
  exact ⟨hy.1.trans hp.grows.1, fun c hc => hp.grows.2 c (hy.2 c hc)⟩

theorem Ctx.run_frame (hfiled : x.session.Filed) (es : List Incoming) :
    (run (step env) x es).session.Filed ∧ (run (step env) x es).session.cfg = x.session.cfg ∧
      x.session.calls.rows.length ≤ (run (step env) x es).session.calls.rows.length := by
  refine run_invariant (I := fun y : Ctx => y.session.Filed ∧ y.session.cfg = x.session.cfg ∧
    x.session.calls.rows.length ≤ y.session.calls.rows.length) ⟨hfiled, rfl, le_rfl⟩
    (fun y e hy => ⟨step_filed hy.1 e, ?_, ?_⟩) es
  · exact (step_fixed hy.1 e).2.trans hy.2.1
  · exact hy.2.2.trans (step_grows hy.1 e).1

theorem opening_filed (peer : Peer) (cfg : Config) (v : Int) (t : Time) (sink : Sink) :
    (opening peer cfg v t sink).session.Filed := by
  intro c os hos
  simp [opening, newSession] at hos

end Runs

end Sentinel
