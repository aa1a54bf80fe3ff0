import Sentinel.Gateway.OneCall

/-!
# Calls do not disturb each other

Two runs of a session are compared: one as it is, and one that gets only the frames of one call and
the ticks.
-/

open List Option Table

namespace Sentinel

open Runs Incoming Sink CallState

def SinkEnv.Own (env : SinkEnv) (c : CallId) : Prop :=
  ∀ d u, env.callUuid d = some u → env.callUuid c = some u → d = c

theorem SinkEnv.Own.ne {env : SinkEnv} {c d : CallId} {u v : Uuid} (h : env.Own c) (hne : d ≠ c)
    (hu : env.callUuid d = some u) (hv : env.callUuid c = some v) : v ≠ u := by
  rintro rfl
  exact hne (h d v hu hv)

/-! ## What the database holds of a call -/

structure Holding where
  puts : List MediaRecord
  row : Option CallRow
  segments : Channel → Int → Option SegmentEntry

namespace Sink

def holding (env : SinkEnv) (s : Sink) (c : CallId) : Holding where
  puts := s.puts.filter fun r => r.callId = c
  row := (env.callUuid c).bind s.calls.get?
  segments := fun ch q => (env.callUuid c).bind fun u => s.segments.get? (u, ch, q)

variable {env : SinkEnv} {s a b : Sink} {c : CallId} {cs : CallStart} {ce : CallEnd}
  {rec : MediaRecord} {tenant device : String}

theorem holding_ext
    (hputs : a.puts.filter (fun r => r.callId = c) = b.puts.filter fun r => r.callId = c)
    (hrow : ∀ u, env.callUuid c = some u → a.calls.get? u = b.calls.get? u)
    (hsegments : ∀ u ch q, env.callUuid c = some u →
      a.segments.get? (u, ch, q) = b.segments.get? (u, ch, q)) :
    a.holding env c = b.holding env c := by
  unfold holding
  rw [hputs]
  cases hc : env.callUuid c with
  | none => rfl
  | some u =>
    congr 1
    · exact hrow u hc
    funext ch q
    exact hsegments u ch q hc

/-! ### Transactions for others -/

theorem holding_ensureCall (hown : env.Own c) (hne : cs.callId ≠ c) :
    (s.ensureCall env cs tenant device).1.holding env c = s.holding env c := by
  obtain ⟨calls, fs, he, hcalls, -⟩ := ensureCall_spec env s cs tenant device
  rw [he]
  refine holding_ext rfl (fun v hv => ?_) fun _ _ _ _ => rfl
  rcases hcalls with rfl | ⟨u, at_, hu, -, rfl⟩
  · rfl
  · exact get?_insertNew_of_ne _ (hown.ne hne hu hv) _

theorem holding_putSegment (hown : env.Own c) (hne : rec.callId ≠ c) :
    (s.putSegment env tenant rec.callId rec).1.holding env c = s.holding env c := by
  obtain ⟨segments, fs, puts, writes, he, hsegments, hputs⟩ :=
    putSegment_spec env s tenant rec.callId rec
  rw [he]
  refine holding_ext ?_ (fun _ _ => rfl) fun v ch q hv => ?_
  · rcases hputs with ⟨-, rfl⟩ | ⟨-, rfl⟩
    · rw [filter_append, filter_cons_of_neg (by simpa using hne), filter_nil, append_nil]
    · rfl
  rcases hsegments with ⟨rfl, -, -⟩ | ⟨u, entry, hu, -, rfl, -⟩
  · rfl
  · exact get?_insertNew_of_ne _ (fun h => hown.ne hne hu hv (Prod.mk.inj h).1) _

theorem holding_setWatermark (d : CallId) (ch : Channel) (t : Nat) :
    (s.setWatermark env d ch t).1.holding env c = s.holding env c := by
  obtain ⟨marks, fs, writes, he, -⟩ := setWatermark_spec env s d ch t
  rw [he]
  rfl

theorem holding_finishCall (hown : env.Own c) (hne : ce.callId ≠ c) :
    (s.finishCall env tenant ce).1.holding env c = s.holding env c := by
  obtain ⟨calls, outbox, fs, writes, he, hcalls⟩ := finishCall_spec env s tenant ce
  rw [he]
  refine holding_ext rfl (fun v hv => ?_) fun _ _ _ _ => rfl
  rcases hcalls with ⟨rfl, -, -⟩ | ⟨u, row, at_, hu, -, -, -, rfl, -, -⟩
  · rfl
  · exact get?_put_ne _ (hown.ne hne hu hv) _

/-! ### Transactions for the call, on two databases -/

theorem nextFault_eq (s : Sink) :
    s.nextFault = (s.faults.headD .none, { s with faults := s.faults.tail }) := by
  obtain ⟨_, _, _, _, faults, _, _⟩ := s
  cases faults <;> rfl

structure Alike (env : SinkEnv) (c : CallId) (a b : Sink) : Prop where
  holding : a.holding env c = b.holding env c
  faults : a.faults = b.faults

namespace Alike

theorem row (h : Alike env c a b) {u : Uuid} (hu : env.callUuid c = some u) :
    a.calls.get? u = b.calls.get? u := by
  have hrow := congrArg Holding.row h.holding
  simpa only [Sink.holding, hu, bind_some] using hrow

theorem segments (h : Alike env c a b) {u : Uuid} (hu : env.callUuid c = some u) (ch : Channel)
    (q : Int) : a.segments.get? (u, ch, q) = b.segments.get? (u, ch, q) := by
  have hrow := congrFun (congrFun (congrArg Holding.segments h.holding) ch) q
  simpa only [Sink.holding, hu, bind_some] using hrow

theorem puts (h : Alike env c a b) :
    a.puts.filter (fun r => r.callId = c) = b.puts.filter fun r => r.callId = c :=
  congrArg Holding.puts h.holding

theorem putSegment (h : Alike env rec.callId a b) (tenant : String) :
    (a.putSegment env tenant rec.callId rec).2 = (b.putSegment env tenant rec.callId rec).2 ∧
      Alike env rec.callId (a.putSegment env tenant rec.callId rec).1
        (b.putSegment env tenant rec.callId rec).1 := by
  unfold Sink.putSegment
  cases hu : env.callUuid rec.callId with
  | none => exact ⟨rfl, h⟩
  | some u =>
    rw [nextFault_eq, nextFault_eq, h.faults]
    dsimp only
    rw [h.row hu]
    split
    · exact ⟨rfl, h.holding, rfl⟩
    split
    · exact ⟨rfl, h.holding, rfl⟩
    split
    · refine ⟨rfl, holding_ext h.puts (fun _ => h.row) fun v ch q hv => ?_, rfl⟩
      exact get?_insertNew_congr (h.segments hv ch q) _ _
    refine ⟨rfl, holding_ext ?_ (fun _ => h.row) fun v ch q hv => ?_, rfl⟩
    · rw [filter_append, filter_append, h.puts]
    · exact get?_insertNew_congr (h.segments hv ch q) _ _

theorem ensureCall (h : Alike env cs.callId a b)
    (hmark : ∀ ch, a.mark env cs.callId ch = b.mark env cs.callId ch) (tenant device : String) :
    (a.ensureCall env cs tenant device).2 = (b.ensureCall env cs tenant device).2 ∧
      Alike env cs.callId (a.ensureCall env cs tenant device).1
        (b.ensureCall env cs tenant device).1 := by
  unfold Sink.ensureCall
  cases hu : env.callUuid cs.callId with
  | none => exact ⟨rfl, h⟩
  | some u =>
    cases env.parseTime cs.startedAt with
    | none => exact ⟨rfl, h⟩
    | some at_ =>
      rw [nextFault_eq, nextFault_eq, h.faults]
      dsimp only
      have hkeys : decide (u ∉ a.calls.keys) = decide (u ∉ b.calls.keys) := by
        rw [decide_eq_decide, ← isSome_get?, ← isSome_get?, h.row hu]
      have hacked : a.ackedOf u = b.ackedOf u := by
        funext ch
        have hch := hmark ch
        rwa [mark, mark, hu] at hch
      have hrow : ∀ (p : Bool) (row : CallRow) (v : Uuid), env.callUuid cs.callId = some v →
          (if p then a.calls.insertNew u row else a.calls).get? v =
            (if p then b.calls.insertNew u row else b.calls).get? v := by
        intro p row v hv
        cases p with
        | false => exact h.row hv
        | true => exact get?_insertNew_congr (h.row hv) u row
      rw [hkeys]
      split
      · exact ⟨rfl, h.holding, rfl⟩
      split
      · exact ⟨rfl, holding_ext h.puts (hrow _ _) fun _ _ _ hv => h.segments hv _ _, rfl⟩
      refine ⟨?_, holding_ext h.puts (hrow _ _) fun _ _ _ hv => h.segments hv _ _, rfl⟩
      exact congrArg (fun acked => some (_, acked)) hacked

theorem finishCall (h : Alike env ce.callId a b) (tenant : String) :
    (a.finishCall env tenant ce).2 = (b.finishCall env tenant ce).2 ∧
      Alike env ce.callId (a.finishCall env tenant ce).1 (b.finishCall env tenant ce).1 := by
  unfold Sink.finishCall
  cases hu : env.callUuid ce.callId with
  | none => exact ⟨rfl, h⟩
  | some u =>
    cases env.parseTime ce.endedAt with
    | none => exact ⟨rfl, h⟩
    | some at_ =>
      rw [nextFault_eq, nextFault_eq, h.faults]
      dsimp only
      rw [h.row hu]
      split
      · exact ⟨rfl, h.holding, rfl⟩
      split
      · split
        · refine ⟨rfl, holding_ext h.puts (fun v hv => ?_) fun _ _ _ hv => h.segments hv _ _, rfl⟩
          obtain rfl : u = v := some.inj (hu.symm.trans hv)
          exact (get?_put_self _ _ _).trans (get?_put_self _ _ _).symm
        · exact ⟨rfl, h.holding, rfl⟩
      · exact ⟨rfl, h.holding, rfl⟩

end Alike

end Sink

/-! ## The affairs of a call -/

def Outbound.resumesFor (o : Outbound) (c : CallId) : List (Channel → Option Nat) :=
  o.resumes.filterMap fun r => if r.1 = c then some r.2 else none

theorem Ctx.resumesFor_addResume (x : Ctx) (d : CallId) (st : CallState) (c : CallId) :
    (x.addResume d st).out.resumesFor c =
      x.out.resumesFor c ++ if d = c then [watermarkMap st] else [] := by
  unfold Outbound.resumesFor addResume
  rw [filterMap_append]
  congr 1
  by_cases hd : d = c <;> simp [hd]

structure Affairs where
  holding : Holding
  standing : Option CallState
  resumes : List (Channel → Option Nat)

def Ctx.affairs (env : SinkEnv) (x : Ctx) (c : CallId) : Affairs where
  holding := x.sink.holding env c
  standing := x.session.standing c
  resumes := x.out.resumesFor c

theorem Ctx.ackChannel_affairs (env : SinkEnv) (now : Time) {x : Ctx} {d : CallId} {ch : Channel}
    {st : CallState} {cst : ChannelState} (hst : x.session.calls.get? d = some st)
    (hcst : st.channels ch = some cst) (c : CallId) :
    (x.ackChannel env now d ch st cst).affairs env c = x.affairs env c := by
  have hholding : (x.ackChannel env now d ch st cst).sink.holding env c =
      x.sink.holding env c := by
    refine x.ackChannel_elim d ch st cst fun w ha => ?_
    cases ha with
    | same => rfl
    | sent | failed => exact holding_setWatermark d ch cst.through
  unfold affairs Outbound.resumesFor
  rw [hholding, ackChannel_standing env now hst hcst c,
    (x.ackChannel_frame env now d ch st cst).2.2.2]

theorem Ctx.ackSelected_affairs {env : SinkEnv} {now : Time} {select : ChannelState → Bool}
    (hsel : ∀ cst, select cst = true → cst.started = true) (x : Ctx) (c : CallId) :
    (x.ackSelected env now select).affairs env c = x.affairs env c :=
  ackSelected_keeps (I := fun y => y.affairs env c = x.affairs env c) hsel
    (fun _ _ _ _ _ hst hcst _ hy => (ackChannel_affairs env now hst hcst c).trans hy) rfl

section Others

variable {env : SinkEnv} {now : Time} {r : Request} {x y : Ctx} {c : CallId}

theorem Part.affairs (h : Part env now r x y) (hown : env.Own c) (hr : r.call ≠ some c) :
    y.affairs env c = x.affairs env c := by
  have hother : ∀ {d : CallId}, r.call = some d → d ≠ c := fun hd he => hr (he ▸ hd)
  have hholding : y.sink.holding env c = x.sink.holding env c := by
    rcases h.sink with hs | ⟨cs, hcs, hs⟩ | ⟨rec, hrec, hs⟩ | ⟨d, ch, t, -, hs⟩ | ⟨ce, hce, hs⟩
    · rw [hs]
    · rw [hs, holding_ensureCall hown (hother (by rw [hcs]; rfl))]
    · rw [hs, holding_putSegment hown (hother hrec)]
    · rw [hs, holding_setWatermark]
    · rw [hs, holding_finishCall hown (hother (by rw [hce]; rfl))]
  have hresumes : y.out.resumesFor c = x.out.resumesFor c := by
    unfold Outbound.resumesFor
    cases h with
    | resume d st hd =>
      have hadd := Ctx.resumesFor_addResume x d st c
      rwa [if_neg (hother hd), append_nil] at hadd
    | store rec => rw [(x.storeRecord_frame env rec).2.2.2.2]
    | ack d ch st cst => rw [(x.ackChannel_frame env now d ch st cst).2.2.2]
    | _ => rfl
  unfold Ctx.affairs
  rw [hholding, h.standing hr, hresumes]

theorem Part.mark (h : Part env now r x y) (hown : env.Own c) (hclosed : c ∉ x.session.calls.keys)
    (ch : Channel) : y.sink.mark env c ch = x.sink.mark env c ch := by
  rcases h.sink with hs | ⟨cs, -, hs⟩ | ⟨rec, -, hs⟩ | ⟨d, ch', t, hd, hs⟩ | ⟨ce, -, hs⟩
  · rw [hs]
  · rw [hs, mark_congr (ensureCall_watermarks ..)]
  · rw [hs, mark_congr (putSegment_watermarks ..)]
  · have hne : d ≠ c := fun he => hclosed (he ▸ hd)
    rw [hs, mark_setWatermark_apart fun u hc hu => absurd (hown d u hu hc) hne]
  · rw [hs, mark_congr (finishCall_watermarks ..)]

end Others

/-! ## Two sessions with the same affairs of a call -/

namespace Ctx

structure Alike (env : SinkEnv) (c : CallId) (x y : Ctx) : Prop where
  peer : x.session.peer = y.session.peer
  faults : x.sink.faults = y.sink.faults
  affairs : x.affairs env c = y.affairs env c

namespace Alike

variable {env : SinkEnv} {now : Time} {x y : Ctx} {c : CallId} {rec : MediaRecord}

theorem sink (h : Alike env c x y) : Sink.Alike env c x.sink y.sink :=
  ⟨congrArg Affairs.holding h.affairs, h.faults⟩

theorem standing (h : Alike env c x y) : x.session.standing c = y.session.standing c :=
  congrArg Affairs.standing h.affairs

theorem resumes (h : Alike env c x y) : x.out.resumesFor c = y.out.resumesFor c :=
  congrArg Affairs.resumes h.affairs

theorem calls (h : Alike env c x y) :
    (x.session.calls.get? c = none ∧ y.session.calls.get? c = none) ∨
      ∃ st st', x.session.calls.get? c = some st ∧ y.session.calls.get? c = some st' ∧
        st.bare = st'.bare := by
  have hstanding := h.standing
  unfold Session.standing at hstanding
  cases hx : x.session.calls.get? c with
  | none =>
    rw [hx, map_none, eq_comm, map_eq_none_iff] at hstanding
    exact .inl ⟨rfl, hstanding⟩
  | some st =>
    rw [hx, map_some, eq_comm, map_eq_some_iff] at hstanding
    obtain ⟨st', hy, hbare⟩ := hstanding
    exact .inr ⟨st, st', rfl, hy, hbare.symm⟩

variable {st : CallState}

theorem put (h : Alike env c x y) {st' : CallState} (hbare : st.bare = st'.bare) :
    Alike env c { x with session := { x.session with calls := x.session.calls.put c st } }
      { y with session := { y.session with calls := y.session.calls.put c st' } } := by
  refine ⟨h.peer, h.faults, ?_⟩
  unfold Ctx.affairs
  rw [Session.standing_put_self, Session.standing_put_self, hbare, h.sink.holding, h.resumes]

theorem setChannel (h : Alike env c x y) {st' : CallState} (hbare : st.bare = st'.bare)
    (ch : Channel) {cst cst' : ChannelState} (hcst : cst.bare = cst'.bare) :
    Alike env c (x.setChannel c st ch cst) (y.setChannel c st' ch cst') := by
  refine h.put ?_
  rw [bare_update, bare_update, hbare, hcst]

theorem ackSelected (h : Alike env c x y) {select select' : ChannelState → Bool}
    (hsel : ∀ cst, select cst = true → cst.started = true)
    (hsel' : ∀ cst, select' cst = true → cst.started = true) :
    (x.ackSelected env now select).affairs env c =
      (y.ackSelected env now select').affairs env c := by
  rw [ackSelected_affairs hsel, ackSelected_affairs hsel', h.affairs]

theorem withSink (h : Alike env c x y) {a b : Sink} (hsink : Sink.Alike env c a b) :
    Alike env c { x with sink := a } { y with sink := b } := by
  refine ⟨h.peer, hsink.faults, ?_⟩
  unfold Ctx.affairs
  rw [hsink.holding, h.standing, h.resumes]

theorem storeRecord (h : Alike env rec.callId x y) :
    (x.storeRecord env rec).2 = (y.storeRecord env rec).2 ∧
      Alike env rec.callId (x.storeRecord env rec).1 (y.storeRecord env rec).1 := by
  unfold Ctx.storeRecord
  rcases h.calls with ⟨hx, hy⟩ | ⟨st, st', hx, hy, hbare⟩
  · rw [hx, hy]
    exact ⟨rfl, h⟩
  have hcst : (channelOf st rec.channel).bare = (channelOf st' rec.channel).bare := by
    rw [← channelOf_bare, ← channelOf_bare, hbare]
  have hold : ((channelOf st rec.channel).started &&
        decide (rec.seq ≤ (channelOf st rec.channel).through)) =
      ((channelOf st' rec.channel).started &&
        decide (rec.seq ≤ (channelOf st' rec.channel).through)) := by
    have hbool := congrArg
      (fun cst : ChannelState => cst.started && decide (rec.seq ≤ cst.through)) hcst
    exact hbool
  obtain ⟨hok, hsink⟩ := h.sink.putSegment x.session.peer.tenantId
  rw [hx, hy]
  dsimp only
  rw [← h.peer, ← hold, ← hok]
  split
  · exact ⟨rfl, h.setChannel hbare rec.channel hcst⟩
  split
  · refine ⟨rfl, (h.withSink hsink).setChannel hbare rec.channel ?_⟩
    rw [advance_bare, advance_bare]
    exact congrArg (advance · rec.seq) hcst
  have hset := (h.withSink hsink).setChannel hbare rec.channel hcst
  exact ⟨rfl, hset.peer, hset.faults, hset.affairs⟩

theorem storeAll (h : Alike env c x y) {os : List Orphan} (hos : ∀ o ∈ os, o.record.callId = c) :
    (storeAll env os x).2 = (storeAll env os y).2 ∧
      Alike env c (storeAll env os x).1 (storeAll env os y).1 := by
  induction os generalizing x y with
  | nil => exact ⟨rfl, h⟩
  | cons o os ih =>
    obtain ⟨rfl, hrest⟩ := forall_mem_cons.mp hos
    obtain ⟨hok, hafter⟩ := h.storeRecord
    unfold Ctx.storeAll
    dsimp only
    rw [← hok]
    split
    · exact ih hafter hrest
    · exact ⟨rfl, hafter⟩

theorem active (h : Alike env c x y) (now : Time) : Alike env c (x.active now) (y.active now) :=
  ⟨h.peer, h.faults, h.affairs⟩

theorem onMedia (h : Alike env rec.callId x y) (now : Time) :
    (x.onMedia env rec now).1.affairs env rec.callId =
      (y.onMedia env rec now).1.affairs env rec.callId := by
  rcases h.calls with ⟨hx, hy⟩ | ⟨st, st', hx, hy, -⟩
  · rw [onMedia_of_not_open env now hx, onMedia_of_not_open env now hy]
    exact h.affairs
  obtain ⟨hok, hafter⟩ := (h.active now).storeRecord
  rw [onMedia_of_open env now hx, onMedia_of_open env now hy, ← hok]
  split
  · exact hafter.ackSelected isDue_started isDue_started
  · exact hafter.affairs

theorem onCallEnd {ce : CallEnd} (h : Alike env ce.callId x y) (now : Time) :
    (x.onCallEnd env ce now).1.affairs env ce.callId =
      (y.onCallEnd env ce now).1.affairs env ce.callId := by
  rcases h.calls with ⟨hx, hy⟩ | ⟨st, st', hx, hy, hbare⟩
  · obtain ⟨e, he⟩ := onCallEnd_of_not_open env now hx
    obtain ⟨e', he'⟩ := onCallEnd_of_not_open env now hy
    rw [he, he']
    exact h.affairs
  obtain ⟨hok, hsink⟩ := h.sink.finishCall x.session.peer.tenantId
  have htenant : y.session.peer.tenantId = x.session.peer.tenantId := by rw [h.peer]
  have hfinished := (h.active now).withSink hsink
  unfold Ctx.onCallEnd
  simp only [hx, hy, htenant, ← hok]
  split
  · have hended : { st with ended := true }.bare = { st' with ended := true }.bare :=
      congrArg (fun st : CallState => { st with ended := true }) hbare
    exact (hfinished.put hended).ackSelected (fun _ hs => hs) fun _ hs => hs
  · exact hfinished.affairs

theorem afterOpen (h : Alike env c x y) (hpending : x.session.pending c = y.session.pending c)
    (hrecords : ∀ o ∈ x.session.pending c, o.record.callId = c) (existed : Bool) (now : Time) :
    (x.afterOpen env c st existed now).1.affairs env c =
      (y.afterOpen env c st existed now).1.affairs env c := by
  have hready : Alike env c (x.readied c st existed) (y.readied c st existed) := by
    cases existed with
    | false => exact ⟨h.peer, h.faults, h.affairs⟩
    | true =>
      refine ⟨h.peer, h.faults, ?_⟩
      change Affairs.mk (x.sink.holding env c) (x.session.standing c)
          ((x.addResume c st).out.resumesFor c) =
        Affairs.mk (y.sink.holding env c) (y.session.standing c)
          ((y.addResume c st).out.resumesFor c)
      rw [resumesFor_addResume, resumesFor_addResume, h.sink.holding, h.standing, h.resumes]
  obtain ⟨hok, hafter⟩ := hready.storeAll hrecords
  rw [afterOpen_eq, afterOpen_eq, ← hpending, ← hok]
  split
  · exact hafter.ackSelected isDue_started isDue_started
  · exact hafter.affairs

theorem onCallStart {cs : CallStart} (h : Alike env cs.callId x y)
    (hmark : ∀ ch, x.sink.mark env cs.callId ch = y.sink.mark env cs.callId ch)
    (hpending : x.session.pending cs.callId = y.session.pending cs.callId)
    (hrecords : ∀ o ∈ x.session.pending cs.callId, o.record.callId = cs.callId)
    (hclosed : cs.callId ∉ x.session.calls.keys)
    (hroom : x.session.calls.rows.length < x.session.cfg.maxCallsPerConn)
    (hroom' : y.session.calls.rows.length < y.session.cfg.maxCallsPerConn) (now : Time) :
    (x.onCallStart env cs now).1.affairs env cs.callId =
      (y.onCallStart env cs now).1.affairs env cs.callId := by
  obtain ⟨hres, hsink⟩ := h.sink.ensureCall hmark x.session.peer.tenantId x.session.peer.deviceId
  have hensured := (h.active now).withSink hsink
  have hensure : y.sink.ensureCall env cs y.session.peer.tenantId y.session.peer.deviceId =
      y.sink.ensureCall env cs x.session.peer.tenantId x.session.peer.deviceId := by rw [h.peer]
  obtain ⟨hx, hy⟩ : x.session.calls.get? cs.callId = none ∧ y.session.calls.get? cs.callId = none :=
    h.calls.resolve_right fun ⟨_, _, hx, _⟩ => hclosed (mem_keys_of_get? hx)
  unfold Ctx.onCallStart Ctx.checkIdentity
  by_cases hu : cs.userUid = x.session.peer.userUid
  · by_cases hd : cs.deviceId = x.session.peer.deviceId
    · simp only [ne_eq, eq_true hu, eq_true hd, eq_true (h.peer ▸ hu), eq_true (h.peer ▸ hd),
        not_true_eq_false, if_false, Bool.not_true, Bool.false_eq_true, not_le.mpr hroom,
        not_le.mpr hroom', hensure, ← hres, hx, hy]
      split
      · exact hensured.affairs
      · exact (hensured.put rfl).afterOpen hpending hrecords _ now
    simp only [← h.peer, ne_eq, eq_true hu, hd, not_true, if_false]
    exact h.affairs
  simp only [← h.peer, ne_eq, hu]
  exact h.affairs

end Alike

/-! ## Steps -/

variable {env : SinkEnv} {x y : Ctx} {c : CallId} {a : Incoming}

theorem step_affairs (x : Ctx) (a : Incoming) (c : CallId) :
    (x.step env a).affairs env c = { (x.answer env a).1.affairs env c with
      resumes := (x.affairs env c).resumes ++ ((x.answer env a).1.affairs env c).resumes } := by
  unfold affairs step Outbound.resumesFor Outbound.merge
  rw [filterMap_append]

theorem facing_alike (hpeer : x.session.peer = y.session.peer)
    (haffairs : x.affairs env c = y.affairs env c) (a : Incoming) :
    Alike env c (x.facing a) (y.facing a) := by
  refine ⟨hpeer, rfl, ?_⟩
  have hholding := congrArg Affairs.holding haffairs
  have hstanding := congrArg Affairs.standing haffairs
  exact congrArg₂ (fun holding standing => Affairs.mk holding standing []) hholding hstanding

theorem step_other (hown : env.Own c) (hfiled : x.session.Filed) (ha : a.request.call ≠ some c) :
    (x.step env a).affairs env c = x.affairs env c := by
  have hanswer : (x.answer env a).1.affairs env c = (x.facing a).affairs env c :=
    (answer_parts hfiled a).keeps (I := fun y => y.affairs env c = (x.facing a).affairs env c)
      (fun _ _ hp hy => (hp.affairs hown ha).trans hy) rfl
  rw [step_affairs, hanswer]
  change Affairs.mk _ _ ((x.affairs env c).resumes ++ []) = _
  rw [append_nil]
  rfl

theorem step_own (hpeer : x.session.peer = y.session.peer)
    (haffairs : x.affairs env c = y.affairs env c) (ha : a.request.call = some c)
    (hstart : a.starts ≠ some c) : (x.step env a).affairs env c = (y.step env a).affairs env c := by
  have hfacing := facing_alike hpeer haffairs a
  have hanswer : (x.answer env a).1.affairs env c = (y.answer env a).1.affairs env c := by
    rcases media_or_callEnd ha hstart with ⟨rec, hr, rfl⟩ | ⟨ce, hr, rfl⟩
    · rw [answer_media hr, answer_media hr]
      exact hfacing.onMedia a.now
    rw [answer_callEnd hr, answer_callEnd hr]
    exact hfacing.onCallEnd a.now
  rw [step_affairs, step_affairs, haffairs, hanswer]

theorem step_mark (hown : env.Own c) (h : Awaited c x) (hstart : a.starts ≠ some c) (ch : Channel) :
    (x.step env a).sink.mark env c ch = x.sink.mark env c ch := by
  refine ((answer_parts h.filed a).keeps (I := fun y => c ∉ y.session.calls.keys ∧
    y.sink.mark env c ch = x.sink.mark env c ch) (fun y z hp hy => ⟨fun hc => ?_, ?_⟩)
    ⟨h.closed, rfl⟩).2
  · rcases hp.keys hc with hold | ⟨cs, hr, he⟩
    · exact hy.1 hold
    · exact hstart (starts_eq_some.mpr ⟨cs, hr, he⟩)
  · exact (hp.mark hown hy.1 ch).trans hy.2

end Ctx

/-! ## Runs -/

def Incoming.concerns (c : CallId) (a : Incoming) : Bool :=
  a.request.call = some c || a.request = .tick

theorem Incoming.concerns_of_call {c : CallId} {a : Incoming} (h : a.request.call = some c) :
    a.concerns c = true := by
  simp [concerns, h]

theorem Incoming.concerns_of_brings {c : CallId} {a : Incoming} (h : (a.brings c).isSome) :
    a.concerns c = true := by
  by_contra hnot
  rw [brings_of_call_ne fun hc => hnot (concerns_of_call hc)] at h
  cases h

theorem Incoming.starts_eq_none {c : CallId} {a : Incoming} (h : a.concerns c = true)
    (hstart : a.starts ≠ some c) : a.starts = none := by
  refine eq_none_iff_forall_ne_some.mpr fun d hd => ?_
  obtain ⟨cs, hr, rfl⟩ := starts_eq_some.mp hd
  have hc : cs.callId = c := by simpa [concerns, hr, Request.call] using h
  exact hstart (hc ▸ hd)

theorem filterMap_brings_filter (c : CallId) (es : List Incoming) :
    (es.filter (concerns c)).filterMap (brings c) =
      es.filterMap (brings c) := by
  rw [filterMap_filter]
  refine filterMap_congr fun a _ => ?_
  split
  · rfl
  rename_i hnot
  exact (not_isSome_iff_eq_none.mp fun h => hnot (concerns_of_brings h)).symm

theorem InTime.filter {grace : Time} {c : CallId} {es : List Incoming} (h : InTime grace c es) :
    InTime grace c (es.filter (concerns c)) := by
  induction es with
  | nil => trivial
  | cons a es ih =>
    unfold InTime at h
    by_cases hbrings : (a.brings c).isSome
    · rw [if_pos hbrings] at h
      rw [filter_cons_of_pos (concerns_of_brings hbrings)]
      unfold InTime
      rw [if_pos hbrings]
      refine fun b hb => h b ?_
      exact (mem_cons.mp hb).elim (fun he => he ▸ mem_cons_self)
        fun hb => mem_cons_of_mem a (mem_of_mem_filter hb)
    rw [if_neg hbrings] at h
    by_cases hkeep : a.concerns c = true
    · rw [filter_cons_of_pos hkeep]
      unfold InTime
      rw [if_neg hbrings]
      exact ih h
    rw [filter_cons_of_neg hkeep]
    exact ih h

namespace Ctx

variable {env : SinkEnv} {x y : Ctx} {c : CallId} {a : Incoming} {es : List Incoming}

structure Matching (env : SinkEnv) (c : CallId) (x y : Ctx) : Prop where
  peer : x.session.peer = y.session.peer
  affairs : x.affairs env c = y.affairs env c
  filed : x.session.Filed
  filed' : y.session.Filed

theorem Matching.kept (hown : env.Own c) (h : Matching env c x y) (hstart : a.starts ≠ some c) :
    Matching env c (x.step env a) (y.step env a) := by
  refine ⟨?_, ?_, step_filed h.filed a, step_filed h.filed' a⟩
  · rw [(step_fixed h.filed a).1, (step_fixed h.filed' a).1, h.peer]
  by_cases hcall : a.request.call = some c
  · exact step_own h.peer h.affairs hcall hstart
  · rw [step_other hown h.filed hcall, step_other hown h.filed' hcall, h.affairs]

theorem Matching.dropped (hown : env.Own c) (h : Matching env c x y) (ha : a.concerns c = false) :
    Matching env c (x.step env a) y := by
  have hcall : a.request.call ≠ some c := fun hc => by
    rw [concerns_of_call hc] at ha
    cases ha
  refine ⟨(step_fixed h.filed a).1.trans h.peer, ?_, step_filed h.filed a, h.filed'⟩
  rw [step_other hown h.filed hcall, h.affairs]

theorem Matching.run (hown : env.Own c) (h : Matching env c x y)
    (hes : ∀ a ∈ es, a.starts ≠ some c) :
    Matching env c (run (step env) x es) (run (step env) y (es.filter (concerns c))) :=
  run_filter h (fun _ _ a ha _ h => h.kept hown (hes a ha))
    fun _ _ _ _ hdrop h => h.dropped hown hdrop

structure Poised (env : SinkEnv) (c : CallId) (x y : Ctx) : Prop where
  matching : Matching env c x y
  marks : ∀ ch, x.sink.mark env c ch = y.sink.mark env c ch
  closed : c ∉ x.session.calls.keys
  closed' : c ∉ y.session.calls.keys

theorem Poised.kept (hown : env.Own c) (h : Poised env c x y) (hstart : a.starts ≠ some c) :
    Poised env c (x.step env a) (y.step env a) := by
  have hx : Awaited c x := ⟨h.matching.filed, h.closed⟩
  have hy : Awaited c y := ⟨h.matching.filed', h.closed'⟩
  refine ⟨h.matching.kept hown hstart, fun ch => ?_, (hx.step hstart).closed,
    (hy.step hstart).closed⟩
  rw [step_mark hown hx hstart, step_mark hown hy hstart, h.marks]

theorem Poised.dropped (hown : env.Own c) (h : Poised env c x y) (ha : a.concerns c = false)
    (hstart : a.starts ≠ some c) : Poised env c (x.step env a) y := by
  have hx : Awaited c x := ⟨h.matching.filed, h.closed⟩
  refine ⟨h.matching.dropped hown ha, fun ch => ?_, (hx.step hstart).closed, h.closed'⟩
  rw [step_mark hown hx hstart, h.marks]

theorem Poised.run (hown : env.Own c) (h : Poised env c x y) (hes : ∀ a ∈ es, a.starts ≠ some c) :
    Poised env c (run (step env) x es) (run (step env) y (es.filter (concerns c))) :=
  run_filter h (fun _ _ a ha _ h => h.kept hown (hes a ha))
    fun _ _ a ha hdrop h => h.dropped hown hdrop (hes a ha)

theorem pending_run_filter (h : Awaited c x) (hes : ∀ a ∈ es, a.starts ≠ some c)
    (hnone : x.session.pending c = []) (htime : InTime x.session.cfg.orphanGrace c es) :
    (run (step env) x es).session.pending c =
      (run (step env) x (es.filter (concerns c))).session.pending c := by
  have hkept : ∀ a ∈ es.filter (concerns c), a.starts ≠ some c :=
    fun a ha => hes a (mem_of_mem_filter ha)
  rw [pending_run h hes hnone htime, pending_run h hkept hnone htime.filter,
    filterMap_brings_filter]

theorem Poised.start (h : Poised env c x y) (hstart : a.starts = some c)
    (hpending : x.session.pending c = y.session.pending c)
    (hroom : x.session.calls.rows.length < x.session.cfg.maxCallsPerConn)
    (hroom' : y.session.calls.rows.length < y.session.cfg.maxCallsPerConn) :
    Matching env c (x.step env a) (y.step env a) := by
  obtain ⟨hpeer, haffairs, hfiled, hfiled'⟩ := h.matching
  obtain ⟨cs, hr, rfl⟩ := starts_eq_some.mp hstart
  refine ⟨?_, ?_, step_filed hfiled a, step_filed hfiled' a⟩
  · rw [(step_fixed hfiled a).1, (step_fixed hfiled' a).1, hpeer]
  have hanswer : (x.answer env a).1.affairs env cs.callId =
      (y.answer env a).1.affairs env cs.callId := by
    rw [answer_callStart hr, answer_callStart hr]
    exact (facing_alike hpeer haffairs a).onCallStart h.marks hpending
      (hfiled.pending cs.callId) h.closed hroom hroom' a.now
  rw [step_affairs, step_affairs, haffairs, hanswer]

theorem no_calls (hfiled : x.session.Filed) (hnone : ∀ d, d ∉ x.session.calls.keys)
    (hes : ∀ a ∈ es, a.starts = none) : (run (step env) x es).session.calls.rows.length = 0 := by
  have hrun : (run (step env) x es).session.Filed ∧
      ∀ d, d ∉ (run (step env) x es).session.calls.keys := by
    refine run_invariant_of_mem
      (I := fun y : Ctx => y.session.Filed ∧ ∀ d, d ∉ y.session.calls.keys) ⟨hfiled, hnone⟩
      fun y a ha hy => ⟨step_filed hy.1 a, fun d hd => ?_⟩
    rcases step_keys hy.1 hd with hold | hstart
    · exact hy.2 d hold
    rw [hes a ha] at hstart
    cases hstart
  rw [length_eq_zero_iff]
  refine eq_nil_iff_forall_not_mem.mpr fun r hr => ?_
  exact hrun.2 r.1 (mem_keys.mpr ⟨r.2, hr⟩)

structure Undisturbed (env : SinkEnv) (c : CallId) (x y : Ctx) : Prop where
  stored : x.sink.puts.filter (fun r => r.callId = c) = y.sink.puts.filter fun r => r.callId = c
  rows : ∀ u ch q, env.callUuid c = some u →
    x.sink.segments.get? (u, ch, q) = y.sink.segments.get? (u, ch, q)
  watermarks : ∀ ch, x.session.watermark c ch = y.session.watermark c ch
  ended :
    (x.session.calls.get? c).map CallState.ended = (y.session.calls.get? c).map CallState.ended
  resumes : x.out.resumesFor c = y.out.resumesFor c

theorem Matching.undisturbed (h : Matching env c x y) : Undisturbed env c x y := by
  have halike : Sink.Alike env c { x.sink with faults := [] } { y.sink with faults := [] } :=
    ⟨congrArg Affairs.holding h.affairs, rfl⟩
  have hstanding := congrArg Affairs.standing h.affairs
  refine ⟨halike.puts, fun u ch q hu => halike.segments hu ch q, Session.watermark_congr hstanding,
    ?_, congrArg Affairs.resumes h.affairs⟩
  have hended : ∀ s : Session,
      (s.calls.get? c).map ended = (s.standing c).map ended := by
    intro s
    rw [Session.standing, Option.map_map]
    rfl
  rw [hended, hended]
  exact congrArg (Option.map ended) hstanding

/-- **Calls do not disturb each other.** -/
theorem isolated (env : SinkEnv) (peer : Peer) (cfg : Config) (policyVersion : Int) (t : Time)
    (sink : Sink) (c : CallId) (pre : List Incoming) (e : Incoming) (post : List Incoming)
    (hown : env.Own c) (hstart : e.starts = some c) (honce : ∀ a ∈ pre ++ post, a.starts ≠ some c)
    (htime : InTime cfg.withDefaults.orphanGrace c (pre ++ [e]))
    (hfew : (run (step env) (opening peer cfg policyVersion t sink)
      (pre ++ e :: post)).session.calls.rows.length < cfg.withDefaults.maxCallsPerConn) :
    Undisturbed env c (run (step env) (opening peer cfg policyVersion t sink) (pre ++ e :: post))
      (run (step env) (opening peer cfg policyVersion t sink)
        ((pre ++ e :: post).filter (Incoming.concerns c))) := by
  have hpre : ∀ a ∈ pre, a.starts ≠ some c := fun a ha => honce a (mem_append_left post ha)
  have hpost : ∀ a ∈ post, a.starts ≠ some c := fun a ha => honce a (mem_append_right pre ha)
  have hfiled := opening_filed peer cfg policyVersion t sink
  have hnone : ∀ d, d ∉ (opening peer cfg policyVersion t sink).session.calls.keys :=
    fun d => not_mem_nil
  have hempty : (opening peer cfg policyVersion t sink).session.pending c = [] := rfl
  have hcfg : (opening peer cfg policyVersion t sink).session.cfg = cfg.withDefaults := rfl
  generalize opening peer cfg policyVersion t sink = x at *
  rw [← hcfg] at htime hfew
  -- Up to the `call.start`.
  have hpoised : Poised env c (run (step env) x pre)
      (run (step env) x (pre.filter (Incoming.concerns c))) :=
    Poised.run hown ⟨⟨rfl, rfl, hfiled, hfiled⟩, fun _ => rfl, hnone c, hnone c⟩ hpre
  have hpending : (run (step env) x pre).session.pending c =
      (run (step env) x (pre.filter (Incoming.concerns c))).session.pending c :=
    pending_run_filter ⟨hfiled, hnone c⟩ hpre hempty htime.of_append
  have hmatching : Matching env c (run (step env) x (pre ++ [e]))
      (run (step env) x (pre.filter (Incoming.concerns c) ++ [e])) := by
    rw [run_concat, run_concat]
    refine hpoised.start hstart hpending ?_ ?_
    · rw [run_append] at hfew
      rw [(run_frame hfiled pre).2.1]
      exact (run_frame (run_frame hfiled pre).1 (e :: post)).2.2.trans_lt hfew
    · rw [(run_frame hfiled _).2.1, no_calls hfiled hnone ?_]
      · exact (Nat.zero_le _).trans_lt hfew
      · intro a ha
        obtain ⟨hmem, hkeep⟩ := mem_filter.mp ha
        exact Incoming.starts_eq_none hkeep (hpre a hmem)
  -- From there on.
  have hfilter : (pre ++ e :: post).filter (Incoming.concerns c) =
      (pre.filter (Incoming.concerns c) ++ [e]) ++ post.filter (Incoming.concerns c) := by
    have hcall : e.concerns c = true := by
      obtain ⟨cs, hr, rfl⟩ := Incoming.starts_eq_some.mp hstart
      exact Incoming.concerns_of_call (by rw [hr]; rfl)
    rw [filter_append, filter_cons_of_pos hcall, append_assoc, singleton_append]
  have hsplit : pre ++ e :: post = (pre ++ [e]) ++ post := by
    rw [append_assoc, singleton_append]
  have hrun := hmatching.run hown hpost
  rw [← run_append, ← run_append, ← hsplit, ← hfilter] at hrun
  exact hrun.undisturbed

def beforeStart : List Incoming :=
  [{ request := .media (recordOf "call-1" 0), now := 0 },
    { request := .callStart (startBy alice "call-2"), now := 1 },
    { request := .media (recordOf "call-2" 0), now := 2, faults := [.none, .refused] }]

def afterStart : List Incoming :=
  [{ request := .heartbeat, now := 4 },
    { request := .media (recordOf "call-1" 1), now := 5 },
    { request := .media (recordOf "call-2" 1), now := 6, faults := [.refused] },
    { request := .callEnd ⟨"call-1", "", .hangup, fun _ => none⟩, now := 7 }]

theorem isolated_interleaved :
    (run (step anyEnv) (opening alice {} 0 0 {}) (beforeStart ++
      { request := .callStart (startBy alice "call-1"), now := 3 } :: afterStart)).session.watermark
        "call-1" .far = some 1 ∧
    Undisturbed anyEnv "call-1"
      (run (step anyEnv) (opening alice {} 0 0 {}) (beforeStart ++
        { request := .callStart (startBy alice "call-1"), now := 3 } :: afterStart))
      (run (step anyEnv) (opening alice {} 0 0 {}) ((beforeStart ++
        { request := .callStart (startBy alice "call-1"), now := 3 } :: afterStart).filter
          (Incoming.concerns "call-1"))) :=
  ⟨by decide, isolated anyEnv alice {} 0 0 {} "call-1" beforeStart
    { request := .callStart (startBy alice "call-1"), now := 3 } afterStart
    (fun d u hd hc => anyEnv_faithful d "call-1" u hd hc) (by decide) (by decide) (by decide)
    (by decide)⟩

end Ctx

end Sentinel
