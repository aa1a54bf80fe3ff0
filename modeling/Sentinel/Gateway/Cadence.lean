import Sentinel.Gateway.OneCall

/-!
# The cadence of acknowledgements

A channel keeps the value last acknowledged, the number of records since, and the time; five
handlers write to these.
-/

open List Table

namespace Sentinel

open Runs History Session

def Outbound.acksFor (o : Outbound) (c : CallId) (ch : Channel) : List Nat :=
  o.acks.filterMap fun a => if a.1 = c ∧ a.2.1 = ch then some a.2.2 else none

theorem acksFor_concat (o : Outbound) (d : CallId) (ch' : Channel) (q : Nat) (c : CallId)
    (ch : Channel) :
    { o with acks := o.acks ++ [(d, ch', q)] }.acksFor c ch =
      o.acksFor c ch ++ if d = c ∧ ch' = ch then [q] else [] := by
  unfold Outbound.acksFor
  rw [filterMap_append]
  congr 1
  rw [filterMap_cons, filterMap_nil]
  split <;> simp_all

/-! ## A channel and its acknowledgements -/

structure Disciplined (b : Option Nat) (cst : ChannelState) (acks : List Nat) : Prop where
  rising : (b.toList ++ acks).Pairwise (· < ·)
  last : (b.toList ++ acks).getLast? = if cst.everAcked then some cst.acked else none
  covered : cst.everAcked = true → cst.started = true ∧ cst.acked ≤ cst.through

namespace Disciplined

variable {b : Option Nat} {cst cst' : ChannelState} {acks : List Nat}

theorem resumed (m : Option Nat) : Disciplined m (({} : ChannelState).resumed m) [] := by
  cases m with
  | none => exact ⟨.nil, rfl, fun h => by cases h⟩
  | some w => exact ⟨pairwise_singleton _ _, rfl, fun _ => ⟨rfl, le_rfl⟩⟩

theorem onward (h : Disciplined b cst acks) (ho : cst.Onward cst') : Disciplined b cst' acks := by
  refine ⟨h.rising, ?_, fun hever => ?_⟩
  · rw [h.last, ho.everAcked, ho.acked]
  rw [ho.everAcked] at hever
  obtain ⟨hstarted, hle⟩ := h.covered hever
  obtain ⟨hstarted', hle'⟩ := ho.started hstarted
  exact ⟨hstarted', ho.acked ▸ hle.trans hle'⟩

theorem le_acked (h : Disciplined b cst acks) {q : Nat} (hq : q ∈ b.toList ++ acks) :
    cst.everAcked = true ∧ q ≤ cst.acked := by
  have hlast := h.last
  have hne : b.toList ++ acks ≠ [] := ne_nil_of_mem hq
  rw [getLast?_eq_getLast_of_ne_nil hne] at hlast
  split at hlast
  · rename_i hever
    have hrising := h.rising
    rw [← dropLast_append_getLast hne, Option.some.inj hlast] at hrising hq
    refine ⟨hever, ?_⟩
    rcases mem_append.mp hq with hq | hq
    · exact ((pairwise_append.mp hrising).2.2 q hq _ (mem_singleton_self _)).le
    · exact (mem_singleton.mp hq).le
  · cases hlast

theorem sent (h : Disciplined b cst acks) (hstarted : cst.started = true)
    (hnew : cst.everAcked = true → cst.acked ≠ cst.through) (now : Time) :
    Disciplined b { cst with
      lastAck := some now, sinceAck := 0, acked := cst.through, everAcked := true }
      (acks ++ [cst.through]) := by
  refine ⟨?_, ?_, fun _ => ⟨hstarted, le_rfl⟩⟩
  · rw [← append_assoc]
    refine pairwise_append.mpr ⟨h.rising, pairwise_singleton _ _, fun q hq t ht => ?_⟩
    rw [mem_singleton.mp ht]
    obtain ⟨hold, hle⟩ := h.le_acked hq
    exact hle.trans_lt ((h.covered hold).2.lt_of_ne (hnew hold))
  rw [← append_assoc, getLast?_concat]
  rfl

section Parts

variable {env : SinkEnv} {now : Time} {r : Request} {x y : Ctx} {c d : CallId} {ch ch' : Channel}
  {st : CallState}

theorem setChannel (h : Disciplined b (x.session.channel c ch) acks)
    (hst : x.session.calls.get? d = some st) (ho : (Ctx.channelOf st ch').Onward cst) :
    Disciplined b ((x.setChannel d st ch' cst).session.channel c ch) acks := by
  rw [channel_setChannel hst]
  split
  · rename_i heq
    refine Disciplined.onward h ?_
    rwa [heq.1, heq.2, channel_of_get? hst]
  · exact h

theorem storeRecord (rec : MediaRecord)
    (h : Disciplined b (x.session.channel c ch) (acks ++ x.out.acksFor c ch)) :
    Disciplined b ((x.storeRecord env rec).1.session.channel c ch)
      (acks ++ (x.storeRecord env rec).1.out.acksFor c ch) := by
  refine x.storeRecord_elim rec fun w hs => ?_
  cases hs with
  | absent => exact h
  | dropped _ hst | failed _ hst => exact h.setChannel hst (.of_eq rfl rfl rfl rfl)
  | stored st hst => exact h.setChannel hst (ChannelState.onward_advance _ _ _)

theorem ackChannel (hst : x.session.calls.get? d = some st) (hcst : st.channels ch' = some cst)
    (hstarted : cst.started = true)
    (h : Disciplined b (x.session.channel c ch) (acks ++ x.out.acksFor c ch)) :
    Disciplined b ((x.ackChannel env now d ch' st cst).session.channel c ch)
      (acks ++ (x.ackChannel env now d ch' st cst).out.acksFor c ch) := by
  have hcst' := Ctx.channelOf_some hcst
  refine x.ackChannel_elim d ch' st cst fun w ha => ?_
  cases ha with
  | same | failed =>
    refine h.setChannel hst ?_
    rw [hcst']
    exact .of_eq rfl rfl rfl rfl
  | sent hnew =>
    rw [acksFor_concat]
    change Disciplined b ((x.setChannel d st ch' { cst with
      lastAck := some now, sinceAck := 0, acked := cst.through, everAcked := true
      }).session.channel c ch) _
    rw [channel_setChannel hst]
    split
    · rename_i heq
      obtain ⟨rfl, rfl⟩ := heq
      rw [channel_of_get? hst, hcst'] at h
      rw [if_pos ⟨rfl, rfl⟩, ← append_assoc]
      exact h.sent hstarted hnew now
    rename_i hne
    rwa [if_neg fun he => hne ⟨he.1.symm, he.2.symm⟩, append_nil]

theorem part (hp : Part env now r x y) (hr : ∀ cs, r = .callStart cs → cs.callId ≠ c)
    (h : Disciplined b (x.session.channel c ch) (acks ++ x.out.acksFor c ch)) :
    Disciplined b (y.session.channel c ch) (acks ++ y.out.acksFor c ch) := by
  cases hp with
  | opens cs hcs =>
    rwa [Ctx.channel_opened, if_neg fun he => hr cs hcs he.symm]
  | store rec _ => exact h.storeRecord rec
  | ack d ch' st cst hst hcst hstarted => exact h.ackChannel hst hcst hstarted
  | ended ce st _ hst =>
    rwa [channel_endedAt hst]
  | _ => exact h

end Parts

end Disciplined

/-! ## Runs without a second `call.start` -/

namespace Ctx

variable {env : SinkEnv} {x : Ctx} {e : Incoming} {es : List Incoming} {c : CallId} {ch : Channel}
  {b : Option Nat}

theorem step_acksFor (x : Ctx) (e : Incoming) (c : CallId) (ch : Channel) :
    (x.step env e).out.acksFor c ch = x.out.acksFor c ch ++ (x.answer env e).1.out.acksFor c ch :=
  filterMap_append

structure Unopened (c : CallId) (ch : Channel) (x : Ctx) : Prop where
  awaited : Awaited c x
  silent : x.out.acksFor c ch = []

structure Opened (b : Option Nat) (c : CallId) (ch : Channel) (x : Ctx) : Prop where
  filed : x.session.Filed
  acks : Disciplined b (x.session.channel c ch) (x.out.acksFor c ch)

theorem Opened.step (h : Opened b c ch x) (he : e.starts ≠ some c) :
    Opened b c ch (x.step env e) := by
  refine ⟨step_filed h.filed e, ?_⟩
  rw [step_acksFor]
  refine (answer_parts h.filed e).keeps
    (I := fun y => Disciplined b (y.session.channel c ch)
      (x.out.acksFor c ch ++ y.out.acksFor c ch)) (fun _ _ hp hy => hy.part hp ?_) ?_
  · exact fun cs hr hc => he (Incoming.starts_eq_some.mpr ⟨cs, hr, hc⟩)
  rw [show (x.facing e).out.acksFor c ch = [] from rfl, append_nil]
  exact h.acks

theorem Unopened.opened (h : Unopened c ch x) : Opened none c ch x := by
  refine ⟨h.awaited.filed, ?_⟩
  rw [h.silent, channel_of_not_open (get?_eq_none.mpr h.awaited.closed)]
  exact Disciplined.resumed none

theorem Unopened.step (h : Unopened c ch x) (he : e.starts ≠ some c) :
    Unopened c ch (x.step env e) := by
  have hawaited : Awaited c (x.step env e) := h.awaited.step he
  refine ⟨hawaited, ?_⟩
  -- A channel that remembers no acknowledgement had none.
  have hacks : Disciplined none ((x.step env e).session.channel c ch) _ := (h.opened.step he).acks
  rw [channel_of_not_open (get?_eq_none.mpr hawaited.closed)] at hacks
  exact getLast?_eq_none_iff.mp hacks.last

theorem afterOpen_disciplined {now : Time} {st : CallState} {existed : Bool}
    (hst : x.session.calls.get? c = some st)
    (hpending : ∀ o ∈ x.session.pending c, o.record.callId = c)
    (h : Disciplined b (x.session.channel c ch) (x.out.acksFor c ch)) :
    Disciplined b ((x.afterOpen env c st existed now).1.session.channel c ch)
      ((x.afterOpen env c st existed now).1.out.acksFor c ch) := by
  have hparts : Parts env now (.media (recordOf c 0)) x (x.afterOpen env c st existed now).1 :=
    afterOpen_parts rfl hst hpending existed
  exact hparts.keeps
    (I := fun y => Disciplined b (y.session.channel c ch) ([] ++ y.out.acksFor c ch))
    (fun _ _ hp hy => hy.part hp fun _ hcs => by cases hcs) h

theorem Unopened.start (env : SinkEnv) (h : Unopened c ch x) (he : e.starts = some c) :
    Unopened c ch (x.step env e) ∨ Opened (x.sink.mark env c ch) c ch (x.step env e) := by
  obtain ⟨cs, hr, rfl⟩ := Incoming.starts_eq_some.mp he
  have hfiled : (x.step env e).session.Filed := step_filed h.awaited.filed e
  have hacks : (x.step env e).out.acksFor cs.callId ch =
      (x.answer env e).1.out.acksFor cs.callId ch := by
    rw [step_acksFor, h.silent, nil_append]
  have hsession : (x.step env e).session = (x.answer env e).1.session := rfl
  have hs := (x.facing e).onCallStart_started env e.now cs
  rw [← answer_callStart hr] at hs
  generalize x.step env e = z at *
  generalize x.answer env e = w at *
  cases hs with
  | mismatched | full | failed =>
    exact .inl ⟨⟨hfiled, by rw [hsession]; exact h.awaited.closed⟩, hacks⟩
  | opens _ _ existed =>
    refine .inr ⟨hfiled, ?_⟩
    rw [hsession, hacks]
    refine afterOpen_disciplined (get?_put_self _ _ _) (h.awaited.filed.pending cs.callId) ?_
    rw [channel_opened_fresh (x := x.facing e) env e.now h.awaited.closed]
    exact Disciplined.resumed _

theorem acks_of_start (h : Unopened c ch x) {pre post : List Incoming}
    (hpre : ∀ a ∈ pre, a.starts ≠ some c) (hpost : ∀ a ∈ post, a.starts ≠ some c)
    (he : e.starts = some c) :
    Unopened c ch (run (step env) x (pre ++ e :: post)) ∨
      Opened ((run (step env) x pre).sink.mark env c ch) c ch
        (run (step env) x (pre ++ e :: post)) := by
  have hbefore : Unopened c ch (run (step env) x pre) :=
    run_invariant_of_mem h fun _ a ha hy => hy.step (hpre a ha)
  rw [run_append, run_cons]
  refine (hbefore.start env he).imp (fun hafter => ?_) fun hafter => ?_
  · exact run_invariant_of_mem hafter fun _ a ha hy => hy.step (hpost a ha)
  · exact run_invariant_of_mem hafter fun _ a ha hy => hy.step (hpost a ha)

end Ctx

def StartedOnce (es : List Incoming) : Prop := (es.filterMap Incoming.starts).Nodup

instance (es : List Incoming) : Decidable (StartedOnce es) :=
  inferInstanceAs (Decidable (List.Nodup _))

theorem StartedOnce.others {pre post : List Incoming} {e : Incoming} {c : CallId}
    (h : StartedOnce (pre ++ e :: post)) (he : e.starts = some c) :
    (∀ a ∈ pre, a.starts ≠ some c) ∧ ∀ a ∈ post, a.starts ≠ some c := by
  unfold StartedOnce at h
  rw [filterMap_append, filterMap_cons_some he, nodup_append] at h
  obtain ⟨-, hpost, hpre⟩ := h
  refine ⟨fun a ha hstarts => ?_, fun a ha hstarts => ?_⟩
  · exact hpre c (mem_filterMap.mpr ⟨a, ha, hstarts⟩) c mem_cons_self rfl
  · exact (nodup_cons.mp hpost).1 (mem_filterMap.mpr ⟨a, ha, hstarts⟩)

/-! ## The moment of an acknowledgement -/

namespace Ctx

variable {env : SinkEnv} {now : Time} {r : Request} {x y z : Ctx} {e : Incoming} {c : CallId}
  {ch : Channel}

structure Makes (env : SinkEnv) (a : CallId × Channel × Nat) (y z : Ctx) : Prop where
  watermark : y.session.watermark a.1 a.2.1 = some a.2.2
  accepted : (y.sink.setWatermark env a.1 a.2.1 a.2.2).2 = true
  sink : z.sink = (y.sink.setWatermark env a.1 a.2.1 a.2.2).1
  acks : z.out.acks = y.out.acks ++ [a]

theorem part_acks (h : Part env now r y z) : z.out.acks = y.out.acks ∨ ∃ a, Makes env a y z := by
  cases h with
  | store rec => exact .inl (y.storeRecord_frame env rec).2.2.2.1
  | ack c ch st cst hst hcst hstarted =>
    refine y.ackChannel_elim c ch st cst fun w ha => ?_
    cases ha with
    | same | failed => exact .inl rfl
    | sent _ hok =>
      refine .inr ⟨(c, ch, cst.through), ?_, hok, rfl, rfl⟩
      rw [watermark, channel_of_get? hst, channelOf_some hcst,
        ChannelState.watermark, if_pos hstarted]
  | _ => exact .inl rfl

def Vouched (env : SinkEnv) (x : Ctx) (e : Incoming) : Prop :=
  Each (fun before a => ∃ y z, Parts env e.now e.request (x.facing e) y ∧ y.out.acks = before ∧
    Makes env a y z ∧ Parts env e.now e.request z (x.answer env e).1) (x.answer env e).1.out.acks

theorem parts_vouched (hp : Parts env now r x y) (hx : x.out.acks = []) :
    Each (fun before a => ∃ y' z, Parts env now r x y' ∧ y'.out.acks = before ∧
      Makes env a y' z ∧ Parts env now r z y) y.out.acks := by
  induction hp with
  | refl => rw [hx]; exact each_nil
  | tail hxy hp ih =>
    rename_i y w
    have hkeep : Each (fun before a => ∃ y' z, Parts env now r x y' ∧ y'.out.acks = before ∧
        Makes env a y' z ∧ Parts env now r z w) y.out.acks := by
      intro before a after heq
      obtain ⟨y', z, hy', hbefore, hmakes, hz⟩ := ih before a after heq
      exact ⟨y', z, hy', hbefore, hmakes, hz.tail hp⟩
    rcases part_acks hp with hsame | ⟨a, hmakes⟩
    · rwa [hsame]
    rw [hmakes.acks]
    exact hkeep.concat ⟨y, w, hxy, rfl, hmakes, .refl⟩

/-! ## How many records wait -/

def Waiting (n : Nat) (p : CallId × Channel) (x : Ctx) : Prop :=
  (x.session.channel p.1 p.2).started = true → (x.session.channel p.1 p.2).sinceAck < n

theorem waiting_ackChannel {n : Nat} {st : CallState} {cst : ChannelState} (hn : 0 < n)
    (hst : x.session.calls.get? c = some st) (p : CallId × Channel)
    (hp : p ≠ (c, ch) → x.Waiting n p) : (x.ackChannel env now c ch st cst).Waiting n p := by
  have hset : ∀ (w : Ctx) (cst' : ChannelState), w.session = x.session → cst'.sinceAck = 0 →
      (w.setChannel c st ch cst').Waiting n p := by
    intro w cst' hw hzero
    unfold Waiting
    rw [channel_setChannel (hw ▸ hst)]
    split
    · exact fun _ => hzero ▸ hn
    rename_i hne
    rw [hw]
    exact hp fun he => hne (Prod.mk.inj he)
  refine x.ackChannel_elim c ch st cst fun w ha => ?_
  cases ha with
  | same | sent | failed => exact hset _ _ rfl rfl

theorem waiting_ackIf {cfg : Config} (hn : 0 < cfg.ackEverySegs) (p : CallId × Channel)
    (hp : p ≠ (c, ch) → x.Waiting cfg.ackEverySegs p) :
    (x.ackIf env now (isDue cfg now) c ch).Waiting cfg.ackEverySegs p := by
  have hleft : x.Waiting cfg.ackEverySegs (c, ch) → x.Waiting cfg.ackEverySegs p := by
    intro hc
    by_cases he : p = (c, ch)
    · exact he ▸ hc
    · exact hp he
  unfold ackIf
  split
  · rename_i hst
    refine hleft fun hstarted => ?_
    rw [channel_of_not_open hst] at hstarted
    cases hstarted
  rename_i st hst
  have hchannel := channel_of_get? hst ch
  split
  · rename_i hcst
    refine hleft fun hstarted => ?_
    rw [hchannel, channelOf, hcst] at hstarted
    cases hstarted
  rename_i cst hcst
  rw [channelOf_some hcst] at hchannel
  split
  · exact waiting_ackChannel hn hst p hp
  rename_i hdue
  refine hleft fun hstarted => ?_
  rw [hchannel] at hstarted ⊢
  by_contra hmany
  exact hdue (by simp [isDue, hstarted, not_lt.mp hmany])

theorem waiting_emitDueAcks (env : SinkEnv) (now : Time) (hn : 0 < x.session.cfg.ackEverySegs)
    (c : CallId) (ch : Channel) :
    (x.emitDueAcks env now).Waiting x.session.cfg.ackEverySegs (c, ch) := by
  by_cases hc : c ∈ x.session.calls.keys
  · have hmem : (c, ch) ∈ x.session.calls.keys.product [Channel.far, Channel.near] :=
      mem_product.mpr ⟨hc, by cases ch <;> simp⟩
    refine run_each (Q := Waiting x.session.cfg.ackEverySegs) (fun y p => ?_)
      (fun y p q hq => ?_) (c, ch) hmem
    · exact waiting_ackIf hn p fun hne => absurd rfl hne
    · exact waiting_ackIf hn q fun _ => hq
  intro hstarted
  have hparts : Parts env now .tick x (x.emitDueAcks env now) := emitDueAcks_parts
  have hclosed : c ∉ (x.emitDueAcks env now).session.calls.keys := by
    refine hparts.keeps (I := fun y => c ∉ y.session.calls.keys) (fun y z hp hy hz => ?_) hc
    rcases hp.keys hz with hold | ⟨cs, hr, -⟩
    · exact hy hold
    · cases hr
  rw [channel_of_not_open (get?_eq_none.mpr hclosed)] at hstarted
  cases hstarted

def Paced (env : SinkEnv) (x : Ctx) (e : Incoming) : Prop :=
  ∀ rec, e.request = .media rec → rec.callId ∈ x.session.calls.keys → (x.answer env e).2 = true →
    ∀ c ch, ((x.step env e).session.channel c ch).started = true →
      ((x.step env e).session.channel c ch).sinceAck < x.session.cfg.ackEverySegs

theorem paced_of_pos (hn : 0 < x.session.cfg.ackEverySegs) : Paced env x e := by
  intro rec hr hmem hok c ch
  obtain ⟨st, hst⟩ := Option.isSome_iff_exists.mp (isSome_get?.mpr hmem)
  rw [step_session]
  revert hok
  rw [answer_media hr, onMedia_of_open (x := x.facing e) env e.now hst]
  split
  · intro _
    have hcfg := (((x.facing e).active e.now).storeRecord_frame env rec).2.1
    have hwaiting := waiting_emitDueAcks (x := (((x.facing e).active e.now).storeRecord env rec).1)
      env e.now (hcfg ▸ hn) c ch
    rwa [hcfg] at hwaiting
  intro hfalse
  cases hfalse

/-! ## The discipline -/

theorem withDefaults_ackEverySegs (cfg : Config) : 0 < cfg.withDefaults.ackEverySegs := by
  unfold Config.withDefaults
  dsimp only
  split <;> omega

theorem unopened_opening (peer : Peer) (cfg : Config) (v : Int) (t : Time) (sink : Sink)
    (c : CallId) (ch : Channel) : Unopened c ch (opening peer cfg v t sink) :=
  ⟨⟨opening_filed peer cfg v t sink, not_mem_nil⟩, rfl⟩

structure AcksInOrder (env : SinkEnv) (x : Ctx) (es : List Incoming) : Prop where
  rising : ∀ c ch, ((run (step env) x es).out.acksFor c ch).Pairwise (· < ·)
  above : ∀ pre e post c ch, es = pre ++ e :: post → e.starts = some c →
    ∀ w ∈ (run (step env) x pre).sink.mark env c ch,
    ∀ q ∈ (run (step env) x es).out.acksFor c ch, w < q
  covered : ∀ c ch, ∀ q ∈ (run (step env) x es).out.acksFor c ch,
    ∃ w ∈ (run (step env) x es).session.watermark c ch, q ≤ w
  vouched : Along (step env) (Vouched env) x es
  positive : 0 < x.session.cfg.ackEverySegs
  paced : Along (step env) (Paced env) x es

theorem Opened.rising {b : Option Nat} (h : Opened b c ch x) :
    (x.out.acksFor c ch).Pairwise (· < ·) :=
  (pairwise_append.mp h.acks.rising).2.1

theorem Opened.covered {b : Option Nat} (h : Opened b c ch x) {q : Nat}
    (hq : q ∈ x.out.acksFor c ch) : ∃ w ∈ x.session.watermark c ch, q ≤ w := by
  obtain ⟨hever, hle⟩ := h.acks.le_acked (mem_append_right _ hq)
  obtain ⟨hstarted, hthrough⟩ := h.acks.covered hever
  exact ⟨_, ChannelState.mem_watermark.mpr ⟨hstarted, rfl⟩, hle.trans hthrough⟩

/-- **The discipline of acknowledgements.** -/
theorem acks_disciplined (env : SinkEnv) (peer : Peer) (cfg : Config) (policyVersion : Int)
    (t : Time) (sink : Sink) (es : List Incoming) (hone : StartedOnce es) :
    AcksInOrder env (opening peer cfg policyVersion t sink) es := by
  have hunopened := unopened_opening peer cfg policyVersion t sink
  have hfiled := opening_filed peer cfg policyVersion t sink
  have hpos : 0 < (opening peer cfg policyVersion t sink).session.cfg.ackEverySegs :=
    withDefaults_ackEverySegs cfg
  generalize opening peer cfg policyVersion t sink = x at *
  have hopened : ∀ c ch, ∃ b, Opened b c ch (run (step env) x es) := by
    intro c ch
    by_cases hstart : ∃ e ∈ es, e.starts = some c
    · obtain ⟨e, he, hc⟩ := hstart
      obtain ⟨pre, post, rfl⟩ := append_of_mem he
      obtain ⟨hpre, hpost⟩ := hone.others hc
      rcases acks_of_start (hunopened c ch) hpre hpost hc with h | h
      · exact ⟨none, h.opened⟩
      · exact ⟨_, h⟩
    · refine ⟨none, Unopened.opened (run_invariant_of_mem (hunopened c ch) fun y e he hy => ?_)⟩
      exact hy.step fun hc => hstart ⟨e, he, hc⟩
  refine ⟨fun c ch => ?_, ?_, fun c ch q hq => ?_, ?_, hpos, ?_⟩
  · obtain ⟨b, h⟩ := hopened c ch
    exact h.rising
  · rintro pre e post c ch rfl hc w hw q hq
    obtain ⟨hpre, hpost⟩ := hone.others hc
    rcases acks_of_start (hunopened c ch) hpre hpost hc with h | h
    · rw [h.silent] at hq
      cases hq
    · refine (pairwise_append.mp h.acks.rising).2.2 w ?_ q hq
      rw [Option.mem_def.mp hw]
      exact mem_singleton_self w
  · obtain ⟨b, h⟩ := hopened c ch
    exact h.covered hq
  · exact along_of_run_invariant (I := fun y => y.session.Filed) hfiled
      (fun y e hy => step_filed hy e) fun y e hy => parts_vouched (answer_parts hy e) rfl
  · exact along_of_run_invariant
      (I := fun y => y.session.Filed ∧ y.session.cfg = x.session.cfg) ⟨hfiled, rfl⟩
      (fun y e hy => ⟨step_filed hy.1 e, (step_fixed hy.1 e).2.trans hy.2⟩)
      fun y e hy => paced_of_pos (hy.2 ▸ hpos)

def failingRun : List Incoming :=
  [{ request := .callStart (startBy alice "call-1"), now := 0 },
    { request := .media (recordOf "call-1" 0), now := 1, faults := [.none, .refused] },
    { request := .media (recordOf "call-1" 1), now := 2 },
    { request := .tick, now := 3 * 10 ^ 9 },
    { request := .media (recordOf "call-1" 2), now := 3 * 10 ^ 9 + 1 },
    { request := .callEnd ⟨"call-1", "", .hangup, fun _ => none⟩, now := 3 * 10 ^ 9 + 2 }]

theorem acks_disciplined_failingRun : StartedOnce failingRun ∧
    (run (step anyEnv) (opening alice {} 0 0 {}) failingRun).out.acksFor "call-1" .far = [1, 2] ∧
    AcksInOrder anyEnv (opening alice {} 0 0 {}) failingRun :=
  ⟨by decide, by decide, acks_disciplined anyEnv alice {} 0 0 {} failingRun (by decide)⟩

end Ctx

end Sentinel
