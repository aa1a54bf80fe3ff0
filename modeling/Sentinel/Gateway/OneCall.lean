import Sentinel.Gateway.Requests

/-!
# One call among others

A session's handlers visit all calls of the connection. This module says what of that concerns one.
-/

open List Option Table Function

namespace Sentinel

open Runs Incoming Session

/-! ## Where a call stands -/

def ChannelState.bare (cst : ChannelState) : ChannelState where
  through := cst.through
  started := cst.started
  ahead := cst.ahead

theorem absorb_bare (n : Nat) (cst : ChannelState) : (absorb n cst).bare = absorb n cst.bare := by
  induction n generalizing cst with
  | zero => rfl
  | succ n ih =>
    rw [absorb, absorb]
    split
    · rename_i hnext
      rw [if_pos (by exact hnext)]
      exact ih _
    rename_i hnext
    rw [if_neg (by exact hnext)]

theorem advance_bare (cst : ChannelState) (q : Nat) :
    (advance cst q).bare = advance cst.bare q := by
  change (if !cst.started then _ else _ : ChannelState).bare = if !cst.started then _ else _
  split
  · split
    · exact absorb_bare _ _
    · rfl
  change (if q = cst.through + 1 then _ else _ : ChannelState).bare =
    if q = cst.through + 1 then _ else _
  split
  · exact absorb_bare _ _
  · rfl

def CallState.bare (st : CallState) : CallState :=
  { st with channels := fun ch => (st.channels ch).map ChannelState.bare }

def Session.standing (s : Session) (c : CallId) : Option CallState :=
  (s.calls.get? c).map CallState.bare

theorem CallState.bare_channels (st : CallState) (ch : Channel) :
    st.bare.channels ch = (st.channels ch).map ChannelState.bare := rfl

theorem Ctx.channelOf_bare (st : CallState) (ch : Channel) :
    channelOf st.bare ch = (channelOf st ch).bare := by
  rw [channelOf, channelOf, CallState.bare_channels]
  cases st.channels ch <;> rfl

theorem CallState.bare_update (st : CallState) (ch : Channel) (cst : ChannelState) :
    { st with channels := update st.channels ch (some cst) }.bare =
      { st.bare with channels := update st.bare.channels ch (some cst.bare) } := by
  unfold bare
  simp only [mk.injEq, true_and, and_true]
  funext ch'
  by_cases h : ch' = ch
  · subst h
    simp
  · simp [h]

namespace Session

variable {s : Session} {x : Ctx} {c d : CallId} {ch ch' : Channel} {st : CallState}
  {cst : ChannelState}

theorem channel_bare (s : Session) (c : CallId) (ch : Channel) :
    (s.channel c ch).bare = ((s.standing c).map fun st => Ctx.channelOf st ch).getD {} := by
  unfold channel standing
  cases s.calls.get? c with
  | none => rfl
  | some st => exact (Ctx.channelOf_bare st ch).symm

theorem watermark_congr {s' : Session} (h : s.standing c = s'.standing c) (ch : Channel) :
    s.watermark c ch = s'.watermark c ch := by
  have hbare : (s.channel c ch).bare = (s'.channel c ch).bare := by
    rw [channel_bare, channel_bare, h]
  calc s.watermark c ch = (s.channel c ch).bare.watermark := rfl
    _ = (s'.channel c ch).bare.watermark := by rw [hbare]

theorem standing_put_ne {st' : CallState} (h : c ≠ d) :
    { s with calls := s.calls.put d st' }.standing c = s.standing c := by
  rw [standing, get?_put_ne _ h, standing]

theorem standing_put_self (s : Session) (c : CallId) (st : CallState) :
    { s with calls := s.calls.put c st }.standing c = some st.bare := by
  rw [standing, get?_put_self, map_some]

theorem standing_setChannel_self (x : Ctx) (c : CallId) (st : CallState) (ch : Channel)
    (cst : ChannelState) :
    (x.setChannel c st ch cst).session.standing c =
      some { st.bare with channels := update st.bare.channels ch (some cst.bare) } :=
  (standing_put_self x.session c _).trans (congrArg some (CallState.bare_update st ch cst))

theorem standing_setChannel (h : x.session.calls.get? d = some st)
    (hcst : st.channels ch = some cst) {cst' : ChannelState} (hbare : cst'.bare = cst.bare)
    (c : CallId) : (x.setChannel d st ch cst').session.standing c = x.session.standing c := by
  by_cases hc : c = d
  · subst hc
    rw [standing_setChannel_self, hbare, standing, h, map_some]
    have hsame : st.bare.channels ch = some cst.bare := by
      rw [CallState.bare_channels, hcst, map_some]
    rw [← hsame, update_eq_self]
  · exact standing_put_ne hc

end Session

theorem Ctx.ackChannel_standing (env : SinkEnv) (now : Time) {x : Ctx} {d : CallId} {ch : Channel}
    {st : CallState} {cst : ChannelState} (hst : x.session.calls.get? d = some st)
    (hcst : st.channels ch = some cst) (c : CallId) :
    (x.ackChannel env now d ch st cst).session.standing c = x.session.standing c := by
  refine x.ackChannel_elim d ch st cst fun w ha => ?_
  cases ha with
  | same | sent | failed => exact standing_setChannel hst hcst (by rfl) c

theorem Ctx.ackSelected_standing {env : SinkEnv} {now : Time} {select : ChannelState → Bool}
    (hsel : ∀ cst, select cst = true → cst.started = true) (x : Ctx) (c : CallId) :
    (x.ackSelected env now select).session.standing c = x.session.standing c :=
  ackSelected_keeps (I := fun y => y.session.standing c = x.session.standing c) hsel
    (fun _ _ _ _ _ hst hcst _ hy => (ackChannel_standing env now hst hcst c).trans hy) rfl

theorem Part.standing {env : SinkEnv} {now : Time} {r : Request} {x y : Ctx} {c : CallId}
    (h : Part env now r x y) (hr : r.call ≠ some c) :
    y.session.standing c = x.session.standing c := by
  have hother : ∀ {d : CallId}, r.call = some d → c ≠ d := fun hd he => hr (he ▸ hd)
  cases h with
  | opens cs hcs => exact standing_put_ne (hother (hcs ▸ rfl))
  | store rec hrec =>
    refine x.storeRecord_elim rec fun w hs => ?_
    cases hs with
    | absent => rfl
    | dropped | stored | failed => exact standing_put_ne (hother hrec)
  | ack d ch st cst hst hcst => exact Ctx.ackChannel_standing env now hst hcst c
  | ended ce st hce => exact standing_put_ne (hother (hce ▸ rfl))
  | _ => rfl

/-! ## The records that wait for a call to open -/

def Incoming.brings (c : CallId) (a : Incoming) : Option Orphan :=
  match a.request with
  | .media rec => if rec.callId = c then some { record := rec, arrived := a.now } else none
  | _ => none

theorem Incoming.brings_eq_some {c : CallId} {a : Incoming} {o : Orphan} : a.brings c = some o ↔
      ∃ rec, a.request = .media rec ∧ rec.callId = c ∧ o = { record := rec, arrived := a.now } := by
  unfold brings
  cases a.request <;> simp [eq_comm]

theorem Incoming.brings_of_call_ne {c : CallId} {a : Incoming} (h : a.request.call ≠ some c) :
    a.brings c = none := by
  refine eq_none_iff_forall_ne_some.mpr fun o ho => ?_
  obtain ⟨rec, hr, rfl, -⟩ := brings_eq_some.mp ho
  exact h (by rw [hr]; rfl)

def InTime (grace : Time) (c : CallId) : List Incoming → Prop
  | [] => True
  | a :: es => if (a.brings c).isSome then ∀ b ∈ a :: es, b.now - a.now < grace
    else InTime grace c es

instance decidableInTime (grace : Time) (c : CallId) :
    ∀ es : List Incoming, Decidable (InTime grace c es)
  | [] => .isTrue trivial
  | a :: es =>
    haveI := decidableInTime grace c es
    inferInstanceAs (Decidable (if (a.brings c).isSome then ∀ b ∈ a :: es, b.now - a.now < grace
      else InTime grace c es))

theorem InTime.of_append {grace : Time} {c : CallId} {es fs : List Incoming}
    (h : InTime grace c (es ++ fs)) : InTime grace c es := by
  induction es with
  | nil => trivial
  | cons a es ih =>
    rw [cons_append] at h
    unfold InTime at h ⊢
    split
    · rename_i hbrings
      rw [if_pos hbrings] at h
      exact fun b hb => h b (mem_append_left fs hb)
    rename_i hbrings
    rw [if_neg hbrings] at h
    exact ih h

namespace Ctx

variable {env : SinkEnv} {now : Time} {x : Ctx} {a : Incoming} {c : CallId}

theorem expireOrphans_pending (h : isExpired x.session.cfg now (x.session.pending c) = false) :
    (x.expireOrphans now).session.pending c = x.session.pending c := by
  unfold expireOrphans pending at *
  rw [get?_filter]
  cases hos : x.session.orphans.get? c with
  | none => rfl
  | some os =>
    rw [hos] at h
    rw [filter_some_pos]
    simpa using h

end Ctx

theorem Part.pending {env : SinkEnv} {now : Time} {r : Request} {x y : Ctx} {c : CallId}
    (h : Part env now r x y) (hr : r.call ≠ some c)
    (hyoung : Ctx.isExpired x.session.cfg now (x.session.pending c) = false) :
    y.session.pending c = x.session.pending c := by
  have hother : ∀ {d : CallId}, r.call = some d → c ≠ d := fun hd he => hr (he ▸ hd)
  unfold Session.pending
  cases h with
  | take d hd =>
    rw [Ctx.dropOrphans]
    rw [get?_erase_ne _ (hother hd)]
  | store rec => rw [(x.storeRecord_frame env rec).2.2.1]
  | ack d ch st cst => rw [(x.ackChannel_frame env now d ch st cst).2.2.1]
  | buffer rec hrec =>
    have hne : c ≠ rec.callId := hother (by rw [hrec]; rfl)
    rw [Ctx.buffered]
    rw [get?_put_ne _ hne]
  | expire => exact Ctx.expireOrphans_pending hyoung
  | _ => rfl

namespace Ctx

variable {env : SinkEnv} {now : Time} {x : Ctx} {a : Incoming} {c : CallId} {es : List Incoming}

theorem pending_step (hfiled : x.session.Filed) (hclosed : c ∉ x.session.calls.keys)
    (hstart : a.starts ≠ some c)
    (hyoung : isExpired x.session.cfg a.now (x.session.pending c ++ (a.brings c).toList) = false) :
    (x.step env a).session.pending c = x.session.pending c ++ (a.brings c).toList := by
  rw [step_session]
  by_cases hcall : a.request.call = some c
  · rcases media_or_callEnd hcall hstart with ⟨rec, hr, rfl⟩ | ⟨ce, hr, rfl⟩
    · have hst : (x.facing a).session.calls.get? rec.callId = none := get?_eq_none.mpr hclosed
      have hbrings : a.brings rec.callId = some { record := rec, arrived := a.now } :=
        brings_eq_some.mpr ⟨rec, hr, rfl, rfl⟩
      have hpending : (((x.facing a).active a.now).buffered rec a.now).session.pending rec.callId =
          x.session.pending rec.callId ++ (a.brings rec.callId).toList := by
        rw [hbrings, pending, buffered]
        rw [get?_put_self]
        rfl
      rw [answer_media hr, onMedia_of_not_open env a.now hst, ← hpending]
      refine expireOrphans_pending ?_
      rwa [hpending]
    have hst : (x.facing a).session.calls.get? ce.callId = none := get?_eq_none.mpr hclosed
    have hbrings : a.brings ce.callId = none := by rw [brings, hr]
    obtain ⟨e, he⟩ := onCallEnd_of_not_open env a.now hst
    rw [answer_callEnd hr, he, hbrings, toList_none, append_nil]
    rfl
  rw [brings_of_call_ne hcall, toList_none, append_nil] at hyoung ⊢
  refine ((answer_parts hfiled a).keeps (I := fun y => y.session.cfg = x.session.cfg ∧
    y.session.pending c = x.session.pending c) (fun y z hp hy => ?_) ⟨rfl, rfl⟩).2
  refine ⟨hp.fixed.2.trans hy.1, (hp.pending hcall ?_).trans hy.2⟩
  rwa [hy.1, hy.2]

structure Awaited (c : CallId) (x : Ctx) : Prop where
  filed : x.session.Filed
  closed : c ∉ x.session.calls.keys

theorem Awaited.step (h : Awaited c x) (hstart : a.starts ≠ some c) : Awaited c (x.step env a) where
  filed := step_filed h.filed a
  closed := fun hc => (step_keys h.filed hc).elim h.closed hstart

theorem isExpired_of_head {cfg : Config} {os : List Orphan}
    (h : ∀ o ∈ os.head?, now - o.arrived < cfg.orphanGrace) : isExpired cfg now os = false := by
  cases os with
  | nil => rfl
  | cons o os => exact decide_eq_false (not_le.mpr (h o rfl))

theorem pending_run_append (h : Awaited c x) (hstart : ∀ a ∈ es, a.starts ≠ some c)
    (htime : x.session.pending c = [] → InTime x.session.cfg.orphanGrace c es)
    (hyoung : ∀ o ∈ (x.session.pending c).head?, ∀ a ∈ es,
      a.now - o.arrived < x.session.cfg.orphanGrace) :
    (run (step env) x es).session.pending c =
      x.session.pending c ++ es.filterMap (brings c) := by
  induction es generalizing x with
  | nil => exact (append_nil _).symm
  | cons a es ih =>
    obtain ⟨ha, hrest⟩ := forall_mem_cons.mp hstart
    have hcfg : (x.step env a).session.cfg = x.session.cfg := (step_fixed h.filed a).2
    -- The first that waits once `a` is served, if any, is young at every later request.
    have hhead : ∀ o ∈ (x.session.pending c ++ (a.brings c).toList).head?, ∀ b ∈ a :: es,
        b.now - o.arrived < x.session.cfg.orphanGrace := by
      intro o ho
      cases hpending : x.session.pending c with
      | cons p ps => exact hyoung o (by simpa [hpending] using ho)
      | nil =>
        have ho : a.brings c = some o := by simpa [hpending] using ho
        obtain ⟨rec, -, -, rfl⟩ := brings_eq_some.mp ho
        have htime := htime hpending
        rwa [InTime, ho, isSome_some, if_pos rfl] at htime
    have hstep : (x.step env a).session.pending c = x.session.pending c ++ (a.brings c).toList :=
      pending_step h.filed h.closed ha (isExpired_of_head fun o ho => hhead o ho a mem_cons_self)
    rw [run_cons, ih (h.step ha) hrest, hstep, append_assoc]
    · congr 1
      rw [filterMap_cons]
      cases a.brings c <;> rfl
    · intro hnil
      rw [hstep, append_eq_nil_iff, toList_eq_nil_iff] at hnil
      have htime := htime hnil.1
      rw [InTime, hnil.2, isSome_none, if_neg Bool.false_ne_true] at htime
      rwa [hcfg]
    rw [hstep, hcfg]
    exact fun o ho b hb => hhead o ho b (mem_cons_of_mem a hb)

theorem pending_run (h : Awaited c x) (hstart : ∀ a ∈ es, a.starts ≠ some c)
    (hnone : x.session.pending c = []) (htime : InTime x.session.cfg.orphanGrace c es) :
    (run (step env) x es).session.pending c = es.filterMap (brings c) := by
  rw [pending_run_append h hstart (fun _ => htime) (by simp [hnone]), hnone, nil_append]

end Ctx

end Sentinel
