import Sentinel.Client.Turns
import Sentinel.Gateway.Watermark
import Sentinel.Link.World

/-!
# Which calls a connection is told about

`World.Owes` are the calls the client still has business with: calls with segments that are not
acknowledged, calls whose `call.end` is not accepted, and calls still going on.
-/

open Option

open List Table

namespace Sentinel

open Uplink Spool

/-! ## What the gateway has accepted -/

def Sink.accepted (env : SinkEnv) (s : Sink) (c : CallId) : Bool :=
  ((env.callUuid c).bind s.calls.get?).any fun row => row.ended.isSome

section Accepted

variable {env : SinkEnv} {i : Input} {s : Session} {a b : Sink} {c : CallId}

theorem Sink.accepted_iff : a.accepted env c = true ↔
      ∃ u row, env.callUuid c = some u ∧ a.calls.get? u = some row ∧ row.ended.isSome = true :=
  Sink.any_row_iff

theorem SinkEffect.accepted_mono (h : SinkEffect env i s a b) (hc : a.accepted env c = true) :
    b.accepted env c = true := by
  obtain ⟨u, row, hu, hget, hended⟩ := Sink.accepted_iff.mp hc
  obtain ⟨row', hget', -, hstays⟩ := h.row_mono hget
  exact Sink.accepted_iff.mpr ⟨u, row', hu, hget', hstays hended⟩

theorem SinkEffect.accepted_new (henv : env.Faithful) (h : SinkEffect env i s a b)
    (hc : b.accepted env c = true) :
    a.accepted env c = true ∨ ∃ ce, i = .frame (.callEnd ce) ∧ ce.callId = c := by
  obtain ⟨u, row, hu, hget, hended⟩ := Sink.accepted_iff.mp hc
  cases h with
  | create cs v at_ fs hi hpeer hv hnew =>
    left
    by_cases hne : u = v
    · subst hne
      rw [get?_insertNew_self, get?_eq_none.mpr hnew] at hget
      obtain rfl := some.inj hget
      cases hended
    rw [get?_insertNew_of_ne _ hne] at hget
    exact Sink.accepted_iff.mpr ⟨u, row, hu, hget, hended⟩
  | finish ce v row' at_ fs hi hkey hv hrow htenant hopen =>
    by_cases hne : u = v
    · exact .inr ⟨ce, hi, henv _ _ v hv (hne ▸ hu)⟩
    rw [get?_put_ne _ hne] at hget
    exact .inl (Sink.accepted_iff.mpr ⟨u, row, hu, hget, hended⟩)
  | _ => exact .inl (Sink.accepted_iff.mpr ⟨u, row, hu, hget, hended⟩)

end Accepted

namespace World

variable {env : SinkEnv} {w : World}

theorem input_accepted (henv : env.Faithful) (w : World) (k : Nat) (i : Input) (t : Time)
    (faults : List Fault) (c : CallId) :
    (w.server.sink.accepted env c = true →
      (w.input env k i t faults).server.sink.accepted env c = true) ∧
    ((w.input env k i t faults).server.sink.accepted env c = true →
      w.server.sink.accepted env c = true ∨ ∃ ce, i = .frame (.callEnd ce) ∧ ce.callId = c) := by
  refine Server.sink_step_input (P := fun a => (w.server.sink.accepted env c = true →
      a.accepted env c = true) ∧ (a.accepted env c = true →
        w.server.sink.accepted env c = true ∨ ∃ ce, i = .frame (.callEnd ce) ∧ ce.callId = c))
    ⟨id, .inl⟩ ⟨id, .inl⟩ fun src x y hm hx => ?_
  refine ⟨fun hc => hm.sinkEffect.accepted_mono (hx.1 hc), fun hc => ?_⟩
  exact (hm.sinkEffect.accepted_new henv hc).elim hx.2 .inr

/-! ## The two lists -/

def Owes (env : SinkEnv) (w : World) (c : CallId) : Prop :=
  c ∈ w.uplink.spool.calls.keys ∧ w.uplink.spool.isSealed c = false ∧
    ((∃ r ∈ w.uplink.spool.segments.rows, r.1.callId = c) ∨
      ((w.uplink.spool.callEndJson c).isSome = true ∧ w.server.sink.accepted env c = false) ∨
      w.uplink.spool.callEndJson c = none)

instance (env : SinkEnv) (w : World) (c : CallId) : Decidable (w.Owes env c) :=
  inferInstanceAs (Decidable (_ ∧ _))

def Starts (fs : List ClientFrame) (c : CallId) : Prop := ∃ cs, .callStart cs ∈ fs ∧ cs.callId = c

def StartsOwed (env : SinkEnv) (w : World) : WorldEvent → Prop
  | .pump t penv n d =>
    let sent := ((w.ready env t penv d).pumped t penv n).out
    (∀ c, Starts sent c → w.Owes env c ∧ c ∉ w.uplink.sender.startedThisConnection) ∧
      (w.uplink.connected = true ∨ w.uplink.dials t penv = true → penv.budget = none →
        ∀ c, w.Owes env c → c ∉ w.uplink.sender.startedThisConnection → Starts sent c)
  | _ => True

def Finished (env : SinkEnv) (w : World) (c : CallId) : Prop :=
  (∀ r ∈ w.uplink.spool.segments.rows, r.1.callId ≠ c) ∧
    (w.uplink.spool.callEndJson c).isSome = true ∧ w.server.sink.accepted env c = true

instance (env : SinkEnv) (w : World) (c : CallId) : Decidable (w.Finished env c) :=
  inferInstanceAs (Decidable (_ ∧ _))

def ListKept (env : SinkEnv) (w : World) : WorldEvent → Prop
  | .pump t penv _ _ => w.uplink.dials t penv = true → ∀ c ∈ w.uplink.knownCalls,
      w.uplink.spool.isSealed c = false → ¬ w.Finished env c
  | .restart => ∀ c ∈ w.uplink.spool.calls.keys, w.uplink.spool.isSealed c = false →
      (∀ r ∈ w.uplink.spool.segments.rows, r.1.callId ≠ c) → w.Finished env c
  | .beginCall cs _ => cs.callId ∉ w.uplink.spool.calls.keys
  | _ => True

instance (env : SinkEnv) (w : World) : ∀ ev, Decidable (w.ListKept env ev)
  | .pump t penv _ _ => inferInstanceAs (Decidable (w.uplink.dials t penv = true →
      ∀ c ∈ w.uplink.knownCalls, w.uplink.spool.isSealed c = false → ¬ w.Finished env c))
  | .restart => inferInstanceAs (Decidable (∀ c ∈ w.uplink.spool.calls.keys,
      w.uplink.spool.isSealed c = false →
        (∀ r ∈ w.uplink.spool.segments.rows, r.1.callId ≠ c) → w.Finished env c))
  | .beginCall cs _ => inferInstanceAs (Decidable (cs.callId ∉ w.uplink.spool.calls.keys))
  | .push _ | .endCall _ | .takeEvents | .serve .. | .tick .. | .hangup _ | .loseUp ..
  | .loseDown .. => .isTrue trivial

/-! ## The invariant -/

def EndUnderWay (w : World) (c : CallId) : Prop :=
  ∃ l ∈ w.links, ∃ ce, .callEnd ce ∈ l.up ∧ ce.callId = c

structure Listed (env : SinkEnv) (w : World) : Prop where
  labelled : w.uplink.Labelled
  kept : ∀ c ∈ w.uplink.spool.calls.keys, w.uplink.spool.isSealed c = false →
    c ∈ w.uplink.knownCalls ∨
      ((w.uplink.spool.callEndJson c).isSome = true ∧ w.server.sink.accepted env c = true)
  fresh : w.uplink.connected = true → ∀ c ∈ w.uplink.knownCalls,
    w.uplink.spool.isSealed c = false → c ∉ w.uplink.startedThisConnection →
    w.server.sink.accepted env c = false ∧ ¬ w.EndUnderWay c
  own : ∀ c, w.server.sink.accepted env c = true ∨ w.EndUnderWay c →
    c ∈ w.uplink.spool.calls.keys

/-! ## The pass -/

variable {u : Uplink} {c : CallId}

variable {now : Nat} {budget : Option Nat} {p : SendPass}

theorem starts_of_ok (hu : u.Labelled)
    (hp : u.sendPending now budget = .ok p) (hc : c ∈ u.passCalls)
    (hsealed : u.spool.isSealed c = false) (hnew : c ∉ u.startedThisConnection) :
    Starts p.out c := by
  obtain ⟨cs, hcs⟩ := isSome_iff_exists.mp (isSome_callStartJson.mpr (hu.mem_keys hc))
  refine ⟨cs, ?_, hu.start c cs hcs⟩
  rw [((u.sendPending_writes now budget).ok p hp).1, nil_append]
  exact start_mem_turns hc hsealed hnew hcs

theorem started_of_ok (hu : u.Labelled)
    (hp : u.sendPending now budget = .ok p) (hc : c ∈ u.passCalls)
    (hsealed : u.spool.isSealed c = false) : c ∈ p.up.startedThisConnection := by
  have hsends := sendPending_spec hu now budget
  rw [hp] at hsends
  rw [hsends.started]
  by_cases hnew : c ∈ u.startedThisConnection
  · exact .inl hnew
  obtain ⟨cs, hcs, hid⟩ := starts_of_ok hu hp hc hsealed hnew
  exact .inr ⟨_, hcs, hid.symm⟩

theorem sender_spool (u : Uplink) :
    u.sender.spool = u.spool ∧ u.sender.knownCalls = u.knownCalls := by
  unfold sender
  split <;> exact ⟨rfl, rfl⟩

theorem mem_passCalls_sender :
    c ∈ u.sender.passCalls ↔ c ∈ u.knownCalls ∨ c ∈ u.spool.pendingCalls := by
  rw [mem_passCalls, (sender_spool u).1, (sender_spool u).2]

structure KeepsList (u v : Uplink) : Prop where
  labelled : v.Labelled
  keys : ∀ c, c ∈ v.spool.calls.keys ↔ c ∈ u.spool.calls.keys
  ends : ∀ c, v.spool.callEndJson c = u.spool.callEndJson c
  unsealed : ∀ c, v.spool.isSealed c = false → u.spool.isSealed c = false
  kept : ∀ c ∈ u.knownCalls, v.spool.isSealed c = false → c ∈ v.knownCalls
  fresh : v.connected = true → ∀ c ∈ v.knownCalls, v.spool.isSealed c = false →
    c ∈ v.startedThisConnection

theorem pump_keepsList (hu : u.Labelled) (now : Nat) (penv : PumpEnv)
    (incoming : List ServerMessage) : KeepsList u (u.pump now penv incoming).up := by
  have hlabelled : (u.pump now penv incoming).up.Labelled := by
    rcases pump_spec hu now penv incoming with ⟨-, p, msgs, hp⟩ | ⟨-, -, t, hr⟩
    · exact hp.labelled hu
    rw [hr]
    exact ⟨hu.start, hu.stop, hu.known⟩
  obtain ⟨hspool, hknown⟩ := sender_spool u
  have hunsealed : ∀ {c}, u.spool.isSealed c = false → u.sender.spool.isSealed c = false :=
    fun h => hspool.symm ▸ h
  have hkeep : ∀ {p}, u.sender.sendPending now penv.budget = .error p ∨
      u.sender.sendPending now penv.budget = .ok p → ∀ c ∈ u.sender.passCalls,
      u.spool.isSealed c = false → c ∈ p.up.knownCalls := by
    intro p hp c hc hs
    have hpass := sendPending_known u.sender now penv.budget hc (hunsealed hs)
    rcases hp with hp | hp <;> rw [hp] at hpass <;> exact hpass
  rcases pump_cases u now penv incoming with
    ⟨-, ⟨p, hp, hr⟩ | ⟨p, hp, -, -, hup⟩⟩ | ⟨hoff, -, t, hr⟩
  · have hsame : p.up.spool = u.spool :=
      ((u.sender.sendPending_writes now penv.budget).error p hp).2.trans hspool
    have hforgets : Forgets { u with knownCalls := p.up.knownCalls } p.up :=
      .of_eq (congrArg calls hsame) rfl
    rw [hr] at hlabelled ⊢
    refine ⟨hlabelled, hforgets.keys, hforgets.ends, hforgets.unsealed, fun c hc hs => ?_,
      fun hon => absurd hon Bool.false_ne_true⟩
    refine hkeep (.inl hp) c (mem_passCalls_sender.mpr (.inl hc)) ?_
    rwa [← hsame]
  · have hsends := sendPending_spec hu.sender now penv.budget
    rw [hp] at hsends
    have hsame : p.up.spool = u.spool := hsends.spool.trans hspool
    have hread : Forgets p.up
        ((readable incoming).foldl (Uplink.received now) p.up) :=
      read_keeps (I := Forgets p.up) (fun v m _ hv => hv.trans (received_forgets now v m)) (.refl _)
    have hstarted : ((readable incoming).foldl (Uplink.received now) p.up).startedThisConnection =
          p.up.startedThisConnection :=
      read_keeps (I := fun v => v.startedThisConnection = p.up.startedThisConnection)
        (fun v m _ hv => (received_connection now v m).1.trans hv) rfl
    have hall : ∀ v : Uplink, v.Labelled → Forgets p.up v →
        v.startedThisConnection = p.up.startedThisConnection → KeepsList u v := by
      intro v hv hforgets hsame'
      have hback : ∀ {c}, v.spool.isSealed c = false → u.spool.isSealed c = false := by
        intro c hc
        rw [← hsame]
        exact hforgets.unsealed c hc
      refine ⟨hv, fun c => ?_, fun c => ?_, fun c hc => hback hc, fun c hc hs => ?_,
        fun _ c hc hs => ?_⟩
      · rw [hforgets.keys, hsame]
      · rw [hforgets.ends, hsame]
      · have hcu : c ∈ p.up.knownCalls :=
          hkeep (.inr hp) c (mem_passCalls_sender.mpr (.inl hc)) (hback hs)
        refine hforgets.kept c hcu ?_ hs
        rw [hsame]
        exact hu.known c hc
      rw [hsame']
      exact started_of_ok hu.sender hp (hsends.known (hforgets.known hc)) (hunsealed (hback hs))
    rcases hup with ⟨-, he⟩ | he
    · rw [he] at hlabelled ⊢
      exact hall _ hlabelled hread hstarted
    rw [he] at hlabelled ⊢
    exact hall _ hlabelled ⟨hread.keys, hread.ends, hread.unsealed, hread.known, hread.kept⟩
      hstarted
  rw [hr] at hlabelled ⊢
  refine ⟨hlabelled, fun _ => Iff.rfl, fun _ => rfl, fun _ h => h, fun c hc _ => hc, fun hon => ?_⟩
  cases hoff.symm.trans hon

/-! ## Every step keeps the list -/

theorem mem_up_pump {t : Nat} {penv : PumpEnv} {n : Nat} {d : Dial} {l : Link}
    {f : ClientFrame} (hl : l ∈ (w.step env (.pump t penv n d)).links) (hf : f ∈ l.up) :
    (∃ l₀ ∈ w.links, f ∈ l₀.up) ∨ f ∈ ((w.ready env t penv d).pumped t penv n).out := by
  have hready : ∀ l ∈ (w.ready env t penv d).links, f ∈ l.up → ∃ l₀ ∈ w.links, f ∈ l₀.up := by
    intro l hl hf
    unfold ready at hl
    split at hl
    · rcases mem_append.mp hl with hl | hl
      · exact ⟨l, hl, hf⟩
      rw [mem_singleton.mp hl] at hf
      cases hf
    · exact ⟨l, hl, hf⟩
  rcases mem_modify_cases hl with hl | ⟨l₀, hl₀, rfl⟩
  · exact .inl (hready l hl hf)
  rcases mem_append.mp hf with hf | hf
  · exact .inl (hready l₀ (mem_of_getElem? hl₀) hf)
  · exact .inr hf

namespace Listed

variable {w' : World}

theorem of_client (h : w.Listed env) (hserver : w'.server = w.server)
    (hlinks : w'.links = w.links) (hlabelled : w'.uplink.Labelled)
    (hkeys : ∀ c ∈ w.uplink.spool.calls.keys, c ∈ w'.uplink.spool.calls.keys)
    (hkept : ∀ c ∈ w'.uplink.spool.calls.keys, w'.uplink.spool.isSealed c = false →
      c ∈ w'.uplink.knownCalls ∨ ((w'.uplink.spool.callEndJson c).isSome = true ∧
        w.server.sink.accepted env c = true))
    (hfresh : w'.uplink.connected = true → ∀ c ∈ w'.uplink.knownCalls,
      w'.uplink.spool.isSealed c = false → c ∉ w'.uplink.startedThisConnection →
      w.server.sink.accepted env c = false ∧ ¬ w.EndUnderWay c) : w'.Listed env where
  labelled := hlabelled
  kept := hserver ▸ hkept
  fresh := by
    unfold EndUnderWay at hfresh ⊢
    rwa [hserver, hlinks]
  own := by
    intro c hc
    unfold EndUnderWay at hc
    rw [hserver, hlinks] at hc
    exact hkeys c (h.own c hc)

theorem of_gateway (h : w.Listed env) (hclient : w'.uplink = w.uplink)
    (hmono : ∀ c, w.server.sink.accepted env c = true → w'.server.sink.accepted env c = true)
    (hnew : ∀ c, w'.server.sink.accepted env c = true →
      w.server.sink.accepted env c = true ∨ w.EndUnderWay c)
    (hunder : ∀ c, w'.EndUnderWay c → w.EndUnderWay c) : w'.Listed env where
  labelled := hclient ▸ h.labelled
  kept := by
    rw [hclient]
    exact fun c hc hs => (h.kept c hc hs).imp_right fun hd => ⟨hd.1, hmono c hd.2⟩
  fresh := by
    rw [hclient]
    intro hon c hc hs hnot
    obtain ⟨hacc, hend⟩ := h.fresh hon c hc hs hnot
    refine ⟨Bool.eq_false_iff.mpr fun hacc' => ?_, fun hend' => hend (hunder c hend')⟩
    rcases hnew c hacc' with hold | hunder'
    · cases hacc.symm.trans hold
    · exact hend hunder'
  own := by
    rw [hclient]
    intro c hc
    refine h.own c ?_
    exact hc.elim (hnew c) fun hend => .inr (hunder c hend)

theorem of_links (h : w.Listed env) (k : Nat) {f : Link → Link} (hf : ∀ l, (f l).up ⊆ l.up) :
    World.Listed env { w with links := w.links.modify k f } := by
  refine h.of_gateway rfl (fun _ hc => hc) (fun _ hc => .inl hc) ?_
  rintro c ⟨l, hl, ce, hce, hid⟩
  rcases mem_modify_cases hl with hl | ⟨l₀, hl₀, rfl⟩
  · exact ⟨l, hl, ce, hce, hid⟩
  · exact ⟨l₀, mem_of_getElem? hl₀, ce, hf l₀ hce, hid⟩

variable {ev : WorldEvent}

theorem work (henv : env.Faithful) (h : w.Listed env) {k : Nat} {i : Input} {t : Time}
    {faults : List Fault} (hev : w.Works ev k i t faults) :
    ((w.taken k i).input env k i t faults).Listed env := by
  have haccepted := input_accepted henv (w.taken k i) k i t faults
  refine h.of_gateway rfl (fun c => (haccepted c).1) (fun c hc => ?_) ?_
  · rcases (haccepted c).2 hc with hold | ⟨ce, rfl, rfl⟩
    · exact .inl hold
    obtain ⟨l, hl, hmem⟩ := hev.mem
    exact .inr ⟨l, hl, ce, hmem, rfl⟩
  rintro c ⟨l, hl, ce, hce, hid⟩
  obtain ⟨l₀, hl₀, hup⟩ := work_up hl
  exact ⟨l₀, hl₀, ce, hup hce, hid⟩

theorem pump (h : w.Listed env) (t : Nat) (penv : PumpEnv) (n : Nat) (d : Dial) :
    (w.step env (.pump t penv n d)).Listed env := by
  obtain ⟨hclient, hsink⟩ := ready_client env w t penv d
  have hkeeps : KeepsList w.uplink (w.step env (.pump t penv n d)).uplink := by
    show KeepsList w.uplink ((w.ready env t penv d).pumped t penv n).up
    unfold pumped
    rw [hclient]
    exact pump_keepsList h.labelled t penv _
  have hsame : (w.step env (.pump t penv n d)).server.sink = w.server.sink := hsink
  refine ⟨hkeeps.labelled, fun c hc hs => ?_, fun hon c hc hs hnot => ?_, fun c hc => ?_⟩
  · rw [hsame, hkeeps.ends]
    exact (h.kept c ((hkeeps.keys c).mp hc) (hkeeps.unsealed c hs)).imp_left fun hknown =>
      hkeeps.kept c hknown hs
  · exact absurd (hkeeps.fresh hon c hc hs) hnot
  rw [hkeeps.keys]
  rcases hc with hacc | ⟨l, hl, ce, hce, rfl⟩
  · exact h.own c (.inl (hsame ▸ hacc))
  rcases mem_up_pump hl hce with ⟨l₀, hl₀, hold⟩ | hsent
  · exact h.own _ (.inr ⟨l₀, hl₀, ce, hold, rfl⟩)
  -- The pass sends the `call.end` of calls that have a row.
  unfold pumped at hsent
  rw [hclient] at hsent
  rcases pump_spec h.labelled t penv _ with ⟨-, p, msgs, hp⟩ | ⟨-, -, t', hr⟩
  · rw [hp.out] at hsent
    have hemits : w.uplink.sender.spool.callEndJson ce.callId = some ce :=
      hp.sends.frames _ hsent
    rw [(sender_spool w.uplink).1, callEndJson] at hemits
    obtain ⟨call, hcall, -⟩ := bind_eq_some_iff.mp hemits
    exact mem_keys_of_get? hcall
  rw [hr] at hsent
  cases hsent

theorem step (henv : env.Faithful) (h : w.Listed env) (hev : w.ListKept env ev) :
    (w.step env ev).Listed env := by
  cases ev with
  | beginCall cs t =>
    have hframes := beginCall_frames w.uplink.spool cs.callId cs t
    have hsealed := isSealed_beginCall w.uplink.spool cs.callId cs t
    refine h.of_client rfl rfl (h.labelled.beginCall cs t)
      (fun c hc => (hframes c).2.2.mpr (.inr hc))
      (fun c hc hs => ?_) fun hon c hc hs hnot => ?_
    · rcases (hframes c).2.2.mp hc with rfl | hc
      · exact .inl (mem_insertCall.mpr (.inl rfl))
      refine (h.kept c hc ((hsealed c).symm.trans hs)).imp (fun hk => mem_insertCall.mpr (.inr hk))
        fun hd => ⟨?_, hd.2⟩
      exact (congrArg isSome (hframes c).2.1).trans hd.1
    rcases mem_insertCall.mp hc with rfl | hc
    · -- The call is new to the client, so the gateway has not heard of it.
      have hunheard : ¬ (w.server.sink.accepted env cs.callId = true ∨
          w.EndUnderWay cs.callId) := fun hheard => hev (h.own _ hheard)
      rwa [not_or, Bool.not_eq_true] at hunheard
    · exact h.fresh hon c hc ((hsealed c).symm.trans hs) hnot
  | push row =>
    show (w.push row).Listed env
    rcases w.push_cases row with ⟨up, hpush, he⟩ | ⟨-, he⟩
    · obtain ⟨spool, ev, hspool, rfl⟩ := pushSegment_ok hpush
      obtain ⟨-, hcalls, -⟩ := push_ok hspool
      have hsame : Forgets w.uplink
          { w.uplink with spool, events := w.uplink.events ++ ev.toList } := .of_eq hcalls rfl
      rw [he]
      refine h.of_client rfl rfl (h.labelled.congr hcalls h.labelled.known)
        (fun c hc => (hsame.keys c).mpr hc) (fun c hc hs => ?_) fun hon c hc hs hnot =>
          h.fresh hon c hc (hsame.unsealed c hs) hnot
      rw [hsame.ends]
      exact h.kept c ((hsame.keys c).mp hc) (hsame.unsealed c hs)
    · rwa [he]
  | endCall ce =>
    have hframes := endCall_frames w.uplink.spool ce.callId ce
    have hsealed := isSealed_endCall w.uplink.spool ce.callId ce
    refine h.of_client rfl rfl (h.labelled.endCall ce) (fun c hc => (hframes c).2.2.mpr hc)
      (fun c hc hs => ?_) fun hon c hc hs hnot => h.fresh hon c hc ((hsealed c).symm.trans hs) hnot
    refine (h.kept c ((hframes c).2.2.mp hc) ((hsealed c).symm.trans hs)).imp_right fun hd =>
      ⟨?_, hd.2⟩
    rcases (hframes c).2.1 with hsame | ⟨-, hnew⟩
    · exact (congrArg isSome hsame).trans hd.1
    · exact congrArg isSome hnew
  | pump t penv n d => exact h.pump t penv n d
  | takeEvents =>
    exact h.of_client rfl rfl (h.labelled.congr rfl h.labelled.known) (fun _ hc => hc) h.kept
      h.fresh
  | restart =>
    refine h.of_client rfl rfl (labelled_new h.labelled) (fun _ hc => hc) (fun c hc hs => ?_)
      fun hon => absurd hon Bool.false_ne_true
    by_cases hrows : ∀ r ∈ w.uplink.spool.segments.rows, r.1.callId ≠ c
    · exact .inr (hev c hc hs hrows).2
    push Not at hrows
    exact .inl (mem_foldl_insertCall.mpr (.inr (mem_pendingCalls.mpr ⟨hrows, hc, hs⟩)))
  | serve k t faults =>
    show (w.serve env k t faults).Listed env
    rcases w.serve_cases env k t faults with he | ⟨f, hnext, -, he⟩ <;> rw [he]
    · exact h
    · exact h.work henv (.serve k f t faults hnext)
  | tick k t faults => exact w.step_tick env k t faults ▸ h.work henv (.tick k t faults)
  | hangup k => exact h.of_gateway rfl (fun _ hc => hc) (fun _ hc => .inl hc) fun _ hc => hc
  | loseUp k i => exact h.of_links k fun l => (eraseIdx_sublist l.up i).subset
  | loseDown k i => exact h.of_links k fun l => Subset.refl _

theorem startsOwed (h : w.Listed env) (hev : w.ListKept env ev) : w.StartsOwed env ev := by
  cases ev with
  | pump t penv n d =>
    have hsent : ∃ incoming, ((w.ready env t penv d).pumped t penv n).out =
        (w.uplink.pump t penv incoming).out := by
      unfold pumped
      rw [(ready_client env w t penv d).1]
      exact ⟨_, rfl⟩
    obtain ⟨incoming, hsent⟩ := hsent
    obtain ⟨hspool, -⟩ := sender_spool w.uplink
    unfold StartsOwed
    dsimp only
    rw [hsent]
    refine ⟨?_, fun hon hbudget c howes hnot => ?_⟩
    · rintro c ⟨cs, hcs, rfl⟩
      rcases pump_spec h.labelled t penv incoming with ⟨hon, p, msgs, hp⟩ | ⟨-, -, t', hr⟩
      · rw [hp.out] at hcs
        obtain ⟨hpass, hnot, hs, -⟩ := hp.sends.frames _ hcs
        rw [hspool] at hs
        have hkey := h.labelled.sender.mem_keys hpass
        rw [hspool] at hkey
        refine ⟨⟨hkey, hs, ?_⟩, hnot⟩
        rcases mem_passCalls_sender.mp hpass with hknown | hpending
        · by_cases hrows : ∃ r ∈ w.uplink.spool.segments.rows, r.1.callId = cs.callId
          · exact .inl hrows
          cases hend : w.uplink.spool.callEndJson cs.callId with
          | none => exact .inr (.inr rfl)
          | some ce =>
            refine .inr (.inl ⟨rfl, ?_⟩)
            rcases hon with hon | hdials
            · rw [sender, if_pos hon] at hnot
              exact (h.fresh hon _ hknown hs hnot).1
            refine Bool.eq_false_iff.mpr fun hacc => hev hdials _ hknown hs ⟨?_, ?_, hacc⟩
            · push Not at hrows
              exact hrows
            rw [hend]
            rfl
        · exact .inl (mem_pendingCalls.mp hpending).1
      rw [hr] at hcs
      cases hcs
    obtain ⟨hkey, hs, hbusiness⟩ := howes
    have hpass : c ∈ w.uplink.sender.passCalls := by
      refine mem_passCalls_sender.mpr ((h.kept c hkey hs).imp_right fun ⟨hend, hacc⟩ => ?_)
      rcases hbusiness with hrows | ⟨-, hnot'⟩ | hnone
      · exact mem_pendingCalls.mpr ⟨hrows, hkey, hs⟩
      · cases hacc.symm.trans hnot'
      rw [hnone] at hend
      cases hend
    obtain ⟨p, hp⟩ := w.uplink.sender.sendPending_holds t
    rw [← hbudget] at hp
    have hstarts := starts_of_ok h.labelled.sender hp hpass (hspool.symm ▸ hs) hnot
    rcases pump_cases w.uplink t penv incoming with
      ⟨-, ⟨q, hq, -⟩ | ⟨q, hq, hout, -⟩⟩ | ⟨hoff, hnodial, -⟩
    · cases hp.symm.trans hq
    · rw [hp] at hq
      cases hq
      rwa [hout]
    rcases hon with hon | hdials
    · cases hoff.symm.trans hon
    · cases hnodial.symm.trans hdials
  | _ => trivial

end Listed

theorem listed_init (env : SinkEnv) (limits : SpoolLimits) : (init limits).Listed env where
  labelled := labelled_init limits
  kept := fun c hc => by cases hc
  fresh := fun hon => absurd hon Bool.false_ne_true
  own := by
    rintro c (hacc | ⟨l, hl, -⟩)
    · obtain ⟨u, row, -, hget, -⟩ := Sink.accepted_iff.mp hacc
      cases hget
    · cases hl

end World

/-- **The reconnect work list.** -/
theorem starts_worklist (env : SinkEnv) (henv : env.Faithful) (limits : SpoolLimits)
    (es : List WorldEvent)
    (h : Runs.Along (World.step env) (World.ListKept env) (World.init limits) es) :
    Runs.Along (World.step env) (World.StartsOwed env) (World.init limits) es :=
  h.of_invariant (World.listed_init env limits) (fun _ _ hI hev => hI.step henv hev)
    fun _ _ hI hev => hI.startsOwed hev

def oneSegment : List WorldEvent :=
  [.beginCall (startBy alice "call-1") 0, .push (rowOf "call-1" 0)]

def hungUp : CallEnd where
  callId := "call-1"
  endedAt := "2026-09-01T10:20:00Z"
  lastSeq := fun ch => if ch = .far then some 0 else none

def pumpAndLose (t : Nat) : WorldEvent := .pump t { recvFails := true } 100 ⟨alice, {}, 0, 0⟩

def keptRun : List WorldEvent :=
  oneSegment ++ [pumpAs alice 0, .serve 0 0 [], .serve 0 0 [], pumpAndLose 1, pumpAs alice 2,
    .endCall hungUp, .serve 1 0 [], pumpAs alice 3, pumpAs alice 4, .serve 1 0 [], .restart,
    pumpAs alice 5]

theorem keptRun_starts_worklist :
    Runs.Along (World.step anyEnv) (World.ListKept anyEnv) (World.init {}) keptRun ∧
      (Runs.run (World.step anyEnv) (World.init {}) keptRun).server.sink.accepted anyEnv "call-1" =
        true ∧
      Runs.Along (World.step anyEnv) (World.StartsOwed anyEnv) (World.init {}) keptRun :=
  ⟨by decide +kernel, by decide +kernel,
    starts_worklist anyEnv anyEnv_faithful {} keptRun (by decide +kernel)⟩

def finishedRun : List WorldEvent :=
  oneSegment ++ [.endCall hungUp, pumpAs alice 0, .serve 0 0 [], .serve 0 0 [], .serve 0 0 [],
    pumpAndLose 1]

def crashRun : List WorldEvent := [.beginCall (startBy alice "call-1") 0, .restart]

/-- The next connection starts the finished call again, and does not start the other. -/
theorem worklist_differs :
    ¬ Runs.Along (World.step anyEnv) (World.StartsOwed anyEnv) (World.init {})
        (finishedRun ++ [pumpAs alice 2]) ∧
      ¬ Runs.Along (World.step anyEnv) (World.StartsOwed anyEnv) (World.init {})
        (crashRun ++ [pumpAs alice 2]) := by
  refine ⟨fun h => ?_, fun h => ?_⟩
  · have hfinished : ¬ (Runs.run (World.step anyEnv) (World.init {}) finishedRun).Owes anyEnv
        "call-1" := by decide +kernel
    exact hfinished (h.at.1 "call-1" ⟨startBy alice "call-1", by decide +kernel, rfl⟩).1
  · obtain ⟨cs, hcs, -⟩ := h.at.2 (by decide +kernel) rfl "call-1" (by decide +kernel)
      (by decide +kernel)
    have hsent : (((Runs.run (World.step anyEnv) (World.init {}) crashRun).ready anyEnv 2 {}
        ⟨alice, {}, 0, 0⟩).pumped 2 {} 100).out = [] := by decide +kernel
    rw [hsent] at hcs
    cases hcs

end Sentinel
