import Sentinel.Gateway.Requests

/-!
# The `call.start` of a call that is there already

A session keeps a call until the connection ends, also once it has ended, and takes any number of
`call.start` frames for it.
-/

open Table

open Option

namespace Sentinel

open Runs Session

/-! ## The limit on calls -/

def Session.openOthers (s : Session) (c : CallId) : Nat :=
  (s.calls.rows.filter fun r => r.1 ≠ c && !r.2.ended).length

namespace Ctx

variable {env : SinkEnv} {now : Time} {x : Ctx} {e : Incoming} {cs : CallStart}

theorem afterOpen_close (x : Ctx) (c : CallId) (st : CallState) (existed : Bool) :
    (x.afterOpen env c st existed now).1.out.close = x.out.close := by
  refine afterOpen_keeps (I := fun y => y.out.close = x.out.close) (fun y o _ hy => ?_)
    (fun y d ch st cst _ _ _ hy => ?_) ?_
  · refine y.storeRecord_elim o.record fun w hs => ?_
    cases hs <;> exact hy
  · refine y.ackChannel_elim d ch st cst fun w ha => ?_
    cases ha <;> exact hy
  · cases existed <;> rfl

theorem answer_close_iff (hr : e.request = .callStart cs) :
    (x.answer env e).1.out.close = some tooMany ↔
      cs.By x.session.peer ∧ x.session.cfg.maxCallsPerConn ≤ x.session.calls.rows.length := by
  rw [answer_callStart hr]
  refine (x.facing e).onCallStart_elim cs fun w hs => ?_
  cases hs with
  | mismatched hby _ => exact ⟨fun h => (by cases h), fun h => absurd h.1 hby⟩
  | full hby hfull => exact ⟨fun _ => ⟨hby, hfull⟩, fun _ => rfl⟩
  | failed _ hlimit _ _ => exact ⟨fun h => (by cases h), fun h => absurd h.2 (not_le.mpr hlimit)⟩
  | opens _ hlimit existed _ =>
    rw [afterOpen_close]
    exact ⟨fun h => (by cases h), fun h => absurd h.2 (not_le.mpr hlimit)⟩

def CountsOpen (env : SinkEnv) (x : Ctx) (e : Incoming) : Prop :=
  ∀ cs, e.request = .callStart cs → (x.answer env e).1.out.close = some tooMany →
    x.session.cfg.maxCallsPerConn ≤ x.session.openOthers cs.callId

def Uncrowded (x : Ctx) (e : Incoming) : Prop :=
  ∀ cs, e.request = .callStart cs → cs.By x.session.peer →
    x.session.calls.rows.length = x.session.cfg.maxCallsPerConn →
    cs.callId ∉ x.session.calls.keys ∧ ∀ r ∈ x.session.calls.rows, r.2.ended = false

structure Bounded (x : Ctx) : Prop where
  filed : x.session.Filed
  limit : x.session.calls.rows.length ≤ x.session.cfg.maxCallsPerConn

theorem Bounded.step (h : x.Bounded) (e : Incoming) : (x.step env e).Bounded where
  filed := step_filed h.filed e
  limit := (answer_parts h.filed e).keeps
    (I := fun y => y.session.calls.rows.length ≤ y.session.cfg.maxCallsPerConn)
    (fun _ _ hp => hp.limit) h.limit

theorem bounded_opening (peer : Peer) (cfg : Config) (v : Int) (t : Time) (sink : Sink) :
    (opening peer cfg v t sink).Bounded :=
  ⟨opening_filed peer cfg v t sink, Nat.zero_le _⟩

/-- **A connection carries at most `MaxCallsPerConn` calls**, ended ones included. -/
theorem calls_le_limit (env : SinkEnv) (peer : Peer) (cfg : Config) (v : Int) (t : Time)
    (sink : Sink) (es : List Incoming) :
    (run (step env) (opening peer cfg v t sink) es).session.calls.rows.length ≤
      cfg.withDefaults.maxCallsPerConn := by
  have hbounded : (run (step env) (opening peer cfg v t sink) es).Bounded :=
    run_invariant (bounded_opening ..) (fun _ e h => h.step e) es
  have hframe := @run_frame env _ (opening_filed peer cfg v t sink) es
  exact hbounded.limit.trans_eq (congrArg _ hframe.2.1)

theorem le_openOthers_iff (s : Session) (c : CallId) : s.calls.rows.length ≤ s.openOthers c ↔
      c ∉ s.calls.keys ∧ ∀ r ∈ s.calls.rows, r.2.ended = false := by
  have hle := List.length_filter_le (fun r => r.1 ≠ c && !r.2.ended) s.calls.rows
  have hall : s.calls.rows.length ≤ s.openOthers c ↔
      ∀ r ∈ s.calls.rows, (r.1 ≠ c && !r.2.ended) = true := by
    rw [← List.length_filter_eq_length_iff]
    exact ⟨fun h => hle.antisymm h, fun h => h.ge⟩
  simp only [hall, Bool.and_eq_true, decide_eq_true_iff, Bool.not_eq_true', mem_keys]
  constructor
  · intro h
    exact ⟨fun ⟨st, hst⟩ => (h (c, st) hst).1 rfl, fun r hr => (h r hr).2⟩
  rintro ⟨hc, hended⟩ r hr
  exact ⟨fun he => hc ⟨r.2, he ▸ hr⟩, hended r hr⟩

theorem Bounded.countsOpen (h : x.Bounded) : CountsOpen env x e ↔ Uncrowded x e := by
  refine forall_congr' fun cs => forall_congr' fun hr => ?_
  have hfull : x.session.cfg.maxCallsPerConn ≤ x.session.calls.rows.length ↔
      x.session.calls.rows.length = x.session.cfg.maxCallsPerConn :=
    ⟨fun hge => h.limit.antisymm hge, fun heq => heq.ge⟩
  rw [answer_close_iff hr, hfull, and_imp]
  refine forall_congr' fun _ => forall_congr' fun heq => ?_
  rw [← heq, le_openOthers_iff]

/-- **When the limit counts concurrent calls.** -/
theorem countsOpen_iff (env : SinkEnv) (peer : Peer) (cfg : Config) (policyVersion : Int)
    (t : Time) (sink : Sink) (es : List Incoming) :
    Along (step env) (CountsOpen env) (opening peer cfg policyVersion t sink) es ↔
      Along (step env) Uncrowded (opening peer cfg policyVersion t sink) es :=
  along_congr (bounded_opening ..) (fun _ e h _ => h.step e) fun _ _ h => h.countsOpen

/-- One call is allowed. -/
theorem countsOpen_ended : ¬ Along (step anyEnv) (CountsOpen anyEnv)
    (opening alice { maxCallsPerConn := 1 } 0 0 {})
    [{ request := .callStart (startBy alice "call-1"), now := 0 },
      { request := .callEnd ⟨"call-1", "", .hangup, fun _ => none⟩, now := 1 },
      { request := .callStart (startBy alice "call-2"), now := 2 }] := by
  rintro ⟨-, -, h, -⟩
  have hlimit := h _ rfl (by decide)
  revert hlimit
  decide

end Ctx

/-! ## Watermarks that go back -/

def Risen (a b : Option Nat) : Prop := ∀ t ∈ a, ∃ t' ∈ b, t ≤ t'

instance (a b : Option Nat) : Decidable (Risen a b) :=
  inferInstanceAs (Decidable (∀ t ∈ a, ∃ t' ∈ b, t ≤ t'))

theorem Risen.refl (a : Option Nat) : Risen a a := fun t ht => ⟨t, ht, le_rfl⟩

theorem Risen.of_eq {a b : Option Nat} (h : b = a) : Risen a b := h ▸ Risen.refl b

theorem Risen.trans {a b c : Option Nat} (h : Risen a b) (h' : Risen b c) : Risen a c := by
  intro t ht
  obtain ⟨t', ht', hle⟩ := h t ht
  obtain ⟨t'', ht'', hle'⟩ := h' t' ht'
  exact ⟨t'', ht'', hle.trans hle'⟩

theorem ChannelState.Onward.risen {cst cst' : ChannelState} (h : cst.Onward cst') :
    Risen cst.watermark cst'.watermark := by
  intro t ht
  unfold watermark at ht ⊢
  split at ht
  · rename_i hs
    obtain ⟨hs', hle⟩ := h.started hs
    cases ht
    exact ⟨cst'.through, by rw [if_pos hs']; rfl, hle⟩
  · cases ht

theorem risen_setChannel {x : Ctx} {d : CallId} {ch' : Channel} {st : CallState}
    {cst : ChannelState} (hst : x.session.calls.get? d = some st)
    (hcst : Risen (Ctx.channelOf st ch').watermark cst.watermark) (c : CallId) (ch : Channel) :
    Risen (x.session.watermark c ch) ((x.setChannel d st ch' cst).session.watermark c ch) := by
  rw [watermark, watermark, channel_setChannel hst]
  split
  · rename_i heq
    rwa [heq.1, heq.2, channel_of_get? hst]
  · exact Risen.refl _

theorem Part.risen {env : SinkEnv} {now : Time} {r : Request} {x y : Ctx}
    (h : Part env now r x y) (hr : ∀ cs, r ≠ .callStart cs) (c : CallId) (ch : Channel) :
    Risen (x.session.watermark c ch) (y.session.watermark c ch) := by
  cases h with
  | opens cs hcs => exact absurd hcs (hr cs)
  | store rec _ =>
    refine x.storeRecord_elim rec fun w hs => ?_
    cases hs with
    | absent => exact Risen.refl _
    | dropped st hst | failed st hst =>
      refine risen_setChannel hst ?_ c ch
      exact Risen.refl _
    | stored st hst => exact risen_setChannel hst (ChannelState.onward_advance _ _ _).risen c ch
  | ack d ch' st cst hst hcst =>
    exact Risen.of_eq (Ctx.ackChannel_watermark env now hst hcst c ch)
  | ended ce st hce hst =>
    exact Risen.of_eq (congrArg ChannelState.watermark (channel_endedAt hst c ch))
  | _ => exact Risen.refl _

structure Session.Tidy (s : Session) : Prop where
  filed : s.Filed
  taken : ∀ c ∈ s.calls.keys, s.orphans.get? c = none

namespace Ctx

variable {env : SinkEnv} {now : Time} {x : Ctx} {e : Incoming} {c : CallId} {ch : Channel}

theorem afterOpen_orphans (x : Ctx) (c : CallId) (st : CallState) (existed : Bool) :
    (x.afterOpen env c st existed now).1.session.orphans = x.session.orphans.erase c := by
  refine afterOpen_keeps (I := fun y => y.session.orphans = x.session.orphans.erase c)
    (fun y o _ hy => ?_) (fun y d ch st cst _ _ _ hy => ?_) ?_
  · exact (y.storeRecord_frame env o.record).2.2.1.trans hy
  · exact (y.ackChannel_frame env now d ch st cst).2.2.1.trans hy
  rw [readied_session]
  rfl

theorem tidy_part {r : Request} {y z : Ctx} (h : Part env now r y z) (hr : ∀ cs, r ≠ .callStart cs)
    (hy : y.session.Tidy) : z.session.Tidy where
  filed := h.filed hy.filed
  taken := by
    intro d hd
    have hold : d ∈ y.session.calls.keys := by
      rcases h.keys hd with hold | ⟨cs, hcs, -⟩
      · exact hold
      · exact absurd hcs (hr cs)
    have hnone := hy.taken d hold
    cases h with
    | take c =>
      by_cases hdc : d = c
      · exact hdc ▸ get?_erase_self _ _
      · exact (get?_erase_ne _ hdc).trans hnone
    | store rec => rw [(y.storeRecord_frame env rec).2.2.1, hnone]
    | ack c ch st cst => rw [(y.ackChannel_frame env now c ch st cst).2.2.1, hnone]
    | buffer rec _ hst =>
      have hne : d ≠ rec.callId := by
        rintro rfl
        exact get?_eq_none.mp hst hold
      exact (get?_put_ne _ hne _).trans hnone
    | expire errors =>
      refine get?_eq_none.mpr fun hmem => get?_eq_none.mp hnone ?_
      obtain ⟨os, hos⟩ := mem_keys.mp hmem
      exact mem_keys.mpr ⟨os, List.mem_of_mem_filter hos⟩
    | _ => exact hnone

theorem step_tidy (h : x.session.Tidy) (e : Incoming) : (x.step env e).session.Tidy := by
  refine ⟨step_filed h.filed e, ?_⟩
  by_cases hr : ∃ cs, e.request = .callStart cs
  · obtain ⟨cs, hr⟩ := hr
    have hkeys : ∀ d ∈ (x.step env e).session.calls.keys,
        d ∈ x.session.calls.keys ∨ e.starts = some d := fun d => step_keys h.filed
    revert hkeys
    rw [step_session, answer_callStart hr]
    refine (x.facing e).onCallStart_elim cs fun w hs => ?_
    intro hkeys
    cases hs with
    | opens _ _ existed =>
      intro d hd
      rw [afterOpen_orphans]
      by_cases hdc : d = cs.callId
      · exact hdc ▸ get?_erase_self _ _
      refine (get?_erase_ne _ hdc).trans (h.taken d ((hkeys d hd).resolve_right ?_))
      intro hstarts
      obtain ⟨cs', hr', rfl⟩ := Incoming.starts_eq_some.mp hstarts
      cases hr.symm.trans hr'
      exact hdc rfl
    | _ => exact h.taken
  have htidy : (x.facing e).session.Tidy := h
  exact ((answer_parts h.filed e).keeps (I := fun y => y.session.Tidy)
    (fun y z hp hy => tidy_part hp (fun cs hcs => hr ⟨cs, hcs⟩) hy) htidy).taken

theorem tidy_opening (peer : Peer) (cfg : Config) (v : Int) (t : Time) (sink : Sink) :
    (opening peer cfg v t sink).session.Tidy :=
  ⟨opening_filed peer cfg v t sink, fun _ _ => rfl⟩

structure KeepsMarks (env : SinkEnv) (x : Ctx) (e : Incoming) : Prop where
  rises : ∀ c ch, Risen (x.session.watermark c ch) ((x.step env e).session.watermark c ch)
  drops : ∀ rec, e.request = .media rec →
    (∃ t ∈ x.session.watermark rec.callId rec.channel, rec.seq ≤ t) →
      (x.answer env e).2 = true ∧ (x.step env e).sink.puts = x.sink.puts ∧
        (x.step env e).sink.segments = x.sink.segments
  passes : ∀ y rec, Parts env e.now e.request (x.facing e) y →
    (∃ t ∈ y.session.watermark rec.callId rec.channel, rec.seq ≤ t) →
      (y.storeRecord env rec).2 = true ∧ (y.storeRecord env rec).1.sink = y.sink

def CaughtUp (env : SinkEnv) (x : Ctx) (e : Incoming) : Prop :=
  ∀ cs, e.request = .callStart cs → cs.By x.session.peer →
    x.session.calls.rows.length < x.session.cfg.maxCallsPerConn →
    ((x.facing e).sink.ensureCall env cs x.session.peer.tenantId x.session.peer.deviceId).2.isSome →
    ∀ ch, ∀ t ∈ x.session.watermark cs.callId ch, ∀ w ∈ x.sink.mark env cs.callId ch, t ≤ w

theorem storeRecord_old {y : Ctx} {rec : MediaRecord}
    (h : ∃ t ∈ y.session.watermark rec.callId rec.channel, rec.seq ≤ t) :
    (y.storeRecord env rec).2 = true ∧ (y.storeRecord env rec).1.sink = y.sink := by
  obtain ⟨t, ht, hle⟩ := h
  have hold : ∀ st, y.session.calls.get? rec.callId = some st →
      ((channelOf st rec.channel).started = true → (channelOf st rec.channel).through < rec.seq) →
      False := by
    intro st hst hnew
    rw [watermark, channel_of_get? hst] at ht
    obtain ⟨hstarted, rfl⟩ := ChannelState.mem_watermark.mp ht
    exact absurd hle (not_le.mpr (hnew hstarted))
  refine y.storeRecord_elim rec fun w hs => ?_
  cases hs with
  | absent | dropped => exact ⟨rfl, rfl⟩
  | stored st hst hnew | failed st hst hnew => exact (hold st hst hnew).elim

theorem ackSelected_stored (x : Ctx) {select : ChannelState → Bool}
    (hsel : ∀ cst, select cst = true → cst.started = true) :
    (x.ackSelected env now select).sink.puts = x.sink.puts ∧
      (x.ackSelected env now select).sink.segments = x.sink.segments := by
  refine ackSelected_keeps (I := fun z => z.sink.puts = x.sink.puts ∧
    z.sink.segments = x.sink.segments) hsel (fun z d ch st cst _ _ _ hz => ?_) ⟨rfl, rfl⟩
  obtain ⟨marks, fs, writes, hset, -⟩ := Sink.setWatermark_spec env z.sink d ch cst.through
  refine z.ackChannel_elim d ch st cst fun w ha => ?_
  cases ha with
  | same => exact hz
  | sent | failed =>
    rwa [hset]

theorem onMedia_old {rec : MediaRecord}
    (h : ∃ t ∈ x.session.watermark rec.callId rec.channel, rec.seq ≤ t) :
    (x.onMedia env rec now).2 = true ∧ (x.onMedia env rec now).1.sink.puts = x.sink.puts ∧
      (x.onMedia env rec now).1.sink.segments = x.sink.segments := by
  obtain ⟨t, ht, -⟩ := id h
  obtain ⟨st, hst⟩ := open_of_mem_watermark ht
  have hstored : ((x.active now).storeRecord env rec).2 = true ∧
      ((x.active now).storeRecord env rec).1.sink = (x.active now).sink := storeRecord_old h
  rw [onMedia_of_open env now hst, if_pos hstored.1]
  obtain ⟨hputs, hsegments⟩ := ackSelected_stored ((x.active now).storeRecord env rec).1
    isDue_started
  exact ⟨rfl, hputs.trans (congrArg Sink.puts hstored.2),
    hsegments.trans (congrArg Sink.segments hstored.2)⟩

theorem watermark_opened (x : Ctx) (cs : CallStart) (d : CallId) (ch : Channel) :
    (x.opened env cs now).session.watermark d ch =
      if d = cs.callId then (x.sink.mark env d ch).or (x.session.watermark d ch)
      else x.session.watermark d ch := by
  rw [watermark, channel_opened]
  split
  · cases x.sink.mark env d ch <;> rfl
  · rfl

theorem risen_opened_iff (env : SinkEnv) (now : Time) (x : Ctx) (cs : CallStart) :
    (∀ c ch, Risen (x.session.watermark c ch) ((x.opened env cs now).session.watermark c ch)) ↔
      ∀ ch, ∀ t ∈ x.session.watermark cs.callId ch, ∀ w ∈ x.sink.mark env cs.callId ch, t ≤ w := by
  constructor
  · intro h ch t ht w hw
    obtain ⟨t', ht', hle⟩ := h cs.callId ch t ht
    rw [watermark_opened, if_pos rfl, mem_def.mp hw] at ht'
    cases ht'
    exact hle
  intro h c ch t ht
  rw [watermark_opened]
  split
  · rename_i hc
    subst hc
    cases hw : x.sink.mark env cs.callId ch with
    | none => exact ⟨t, ht, le_rfl⟩
    | some w => exact ⟨w, rfl, h ch t ht w hw⟩
  · exact ⟨t, ht, le_rfl⟩

theorem afterOpen_watermark (env : SinkEnv) (now : Time) (st : CallState) (existed : Bool)
    (hnone : x.session.orphans.get? c = none) (d : CallId) (ch : Channel) :
    (x.afterOpen env c st existed now).1.session.watermark d ch = x.session.watermark d ch := by
  have hpending : x.session.pending c = [] := by rw [pending, hnone, getD_none]
  refine afterOpen_keeps (I := fun y => y.session.watermark d ch = x.session.watermark d ch)
    (fun y o ho _ => ?_) (fun y c' ch' st' cst' hst hcst _ hy => ?_) ?_
  · rw [hpending] at ho
    cases ho
  · exact (ackChannel_watermark env now hst hcst d ch).trans hy
  rw [readied_session]
  rfl

theorem afterOpen_risen {st : CallState} (hst : x.session.calls.get? c = some st)
    (hpending : ∀ o ∈ x.session.pending c, o.record.callId = c) (existed : Bool) (d : CallId)
    (ch : Channel) :
    Risen (x.session.watermark d ch)
      ((x.afterOpen env c st existed now).1.session.watermark d ch) := by
  have hparts : Parts env now (.media (recordOf c 0)) x (x.afterOpen env c st existed now).1 :=
    afterOpen_parts rfl hst hpending existed
  exact hparts.keeps (I := fun y => Risen (x.session.watermark d ch) (y.session.watermark d ch))
    (fun _ _ hp hy => hy.trans (hp.risen (fun _ hcs => by cases hcs) d ch)) (Risen.refl _)

theorem rises_start_iff (env : SinkEnv) (now : Time) (h : x.session.Tidy) (cs : CallStart) :
    (∀ c ch, Risen (x.session.watermark c ch)
        ((x.onCallStart env cs now).1.session.watermark c ch)) ↔
      (cs.By x.session.peer → x.session.calls.rows.length < x.session.cfg.maxCallsPerConn →
        (x.sink.ensureCall env cs x.session.peer.tenantId x.session.peer.deviceId).2.isSome →
        ∀ ch, ∀ t ∈ x.session.watermark cs.callId ch, ∀ w ∈ x.sink.mark env cs.callId ch,
          t ≤ w) := by
  refine x.onCallStart_elim cs fun w hs => ?_
  cases hs with
  | mismatched hby => exact iff_of_true (fun _ _ => Risen.refl _) fun h => absurd h hby
  | full _ hfull =>
    exact iff_of_true (fun _ _ => Risen.refl _) fun _ hlimit => absurd hfull (not_le.mpr hlimit)
  | failed _ _ hres =>
    refine iff_of_true (fun _ _ => Risen.refl _) fun _ _ hsome => ?_
    rw [hres] at hsome
    cases hsome
  | opens hby hlimit existed hres =>
    have hmark : ((x.active now).ensured env cs).sink.mark env cs.callId =
        x.sink.mark env cs.callId :=
      funext fun ch => (x.active now).mark_ensured env cs cs.callId ch
    rw [hres]
    simp only [hby, hlimit, isSome_some, true_imp_iff]
    rw [← hmark]
    refine Iff.trans ?_ (risen_opened_iff env now ((x.active now).ensured env cs) cs)
    constructor
    · intro hrises c ch t ht
      by_cases hc : c = cs.callId
      · subst hc
        obtain ⟨st, hst⟩ := open_of_mem_watermark ht
        have hnone := h.taken cs.callId (mem_keys_of_get? hst)
        have hexact := afterOpen_watermark (x := ((x.active now).ensured env cs).opened env cs now)
          env now (((x.active now).ensured env cs).openedAt env cs now) existed hnone cs.callId ch
        exact hexact ▸ hrises cs.callId ch t ht
      rw [watermark_opened, if_neg hc]
      exact ⟨t, ht, le_rfl⟩
    intro hrises c ch
    refine (hrises c ch).trans (afterOpen_risen ?_ ?_ existed c ch)
    · exact get?_put_self _ _ _
    · exact h.filed.pending cs.callId

/-- **When watermarks survive.** -/
theorem keepsMarks_iff (env : SinkEnv) (peer : Peer) (cfg : Config) (policyVersion : Int)
    (t : Time) (sink : Sink) (es : List Incoming) :
    Along (step env) (KeepsMarks env) (opening peer cfg policyVersion t sink) es ↔
      Along (step env) (CaughtUp env) (opening peer cfg policyVersion t sink) es := by
  refine along_congr (I := fun x => x.session.Tidy) (tidy_opening ..)
    (fun _ e h _ => step_tidy h e) fun x e h => ?_
  by_cases hr : ∃ cs, e.request = .callStart cs
  · obtain ⟨cs, hr⟩ := hr
    have hstart := rises_start_iff (x := x.facing e) env e.now h cs
    rw [← answer_callStart hr] at hstart
    constructor
    · intro hkeeps cs' hr'
      cases hr.symm.trans hr'
      exact hstart.mp hkeeps.rises
    · intro hcaught
      refine ⟨hstart.mpr (hcaught cs hr), fun rec hrec => ?_, fun _ _ _ => storeRecord_old⟩
      cases hr.symm.trans hrec
  · refine iff_of_true ⟨fun c ch => ?_, fun rec hrec hold => ?_, fun _ _ _ => storeRecord_old⟩
      fun cs hcs => absurd ⟨cs, hcs⟩ hr
    · exact (answer_parts h.filed e).keeps
        (I := fun y => Risen (x.session.watermark c ch) (y.session.watermark c ch))
        (fun _ _ hp hy => hy.trans (hp.risen (fun cs hcs => hr ⟨cs, hcs⟩) c ch)) (Risen.refl _)
    · rw [step_sink, answer_media hrec]
      exact onMedia_old hold

def laggingRun : List Incoming :=
  [{ request := .callStart (startBy alice "call-1"), now := 0 },
    { request := .media (recordOf "call-1" 0), now := 1 },
    { request := .media (recordOf "call-1" 1), now := 2 },
    { request := .media (recordOf "call-1" 2), now := 3 },
    { request := .callStart (startBy alice "call-1"), now := 4 },
    { request := .media (recordOf "call-1" 1), now := 5 }]

/-- The watermark goes back from 2 to 0, and the sequence 1 is stored twice. -/
theorem lagging_storedTwice :
    ¬ Along (step anyEnv) (KeepsMarks anyEnv) (opening alice {} 0 0 {}) laggingRun ∧
      (run (step anyEnv) (opening alice {} 0 0 {}) laggingRun).sink.puts.map MediaRecord.seq =
        [0, 1, 2, 1] := by
  refine ⟨?_, by decide⟩
  rintro ⟨-, -, -, -, h, -⟩
  have hback := h.rises "call-1" .far
  revert hback
  decide

end Ctx

end Sentinel
