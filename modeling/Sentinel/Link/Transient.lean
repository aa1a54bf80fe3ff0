import Sentinel.Gateway.Fatal
import Sentinel.Link.World

/-!
# Which failures of the sink cost audio

A failing `EnsureCall` leaves the call unopened on the connection, and the client does not send its
`call.start` again until it reconnects.
-/

open List

namespace Sentinel

open World

open Ctx (isExpired)

/-! ## What a step handles -/

namespace World

def startsHandled (w : World) : WorldEvent → List (Peer × CallStart)
  | .serve k _ _ =>
    match w.server.conns[k]?, w.nextFrame k with
    | some conn, some (.callStart cs) => [(conn.session.peer, cs)]
    | _, _ => []
  | _ => []

def endsHandled (w : World) : WorldEvent → List (Nat × CallId)
  | .serve k _ _ =>
    match w.nextFrame k with
    | some (.callEnd ce) => [(k, ce.callId)]
    | _ => []
  | _ => []

def overdueAt (w : World) (k : Nat) (now : Time) : List (Nat × CallId) :=
  match w.server.conns[k]? with
  | some conn => (conn.session.orphans.rows.filter fun r =>
      isExpired conn.session.cfg now r.2).map fun r => (k, r.1)
  | none => []

def overdue (w : World) : WorldEvent → List (Nat × CallId)
  | .serve k now _ => w.overdueAt k now
  | .tick k now _ => w.overdueAt k now
  | _ => []

end World

def Honest (w : World) (ev : WorldEvent) : Prop := ∀ p ∈ w.startsHandled ev, p.2.By p.1

instance (w : World) (ev : WorldEvent) : Decidable (Honest w ev) :=
  inferInstanceAs (Decidable (∀ p ∈ w.startsHandled ev, _))

def Patient (w : World) (ev : WorldEvent) : Prop :=
  ∀ p ∈ w.endsHandled ev ++ w.overdue ev, p ∉ w.refused

instance (w : World) (ev : WorldEvent) : Decidable (Patient w ev) :=
  inferInstanceAs (Decidable (∀ p ∈ w.endsHandled ev ++ w.overdue ev, _))

def Orderly : WorldEvent → Prop
  | .loseUp .. => False
  | .pump _ _ _ d => 0 ≤ d.cfg.orphanGrace
  | _ => True

instance : ∀ ev, Decidable (Orderly ev)
  | .loseUp .. => .isFalse id
  | .pump _ _ _ d => inferInstanceAs (Decidable (0 ≤ d.cfg.orphanGrace))
  | .beginCall .. | .push _ | .endCall _ | .takeEvents | .restart | .serve .. | .tick ..
  | .hangup _ | .loseDown .. => .isTrue trivial

def Harmless : ServerMessage → Prop
  | .callError e => e.fatal = false
  | _ => True

instance : ∀ m, Decidable (Harmless m)
  | .callError e => inferInstanceAs (Decidable (e.fatal = false))
  | .ack .. | .resume .. | .heartbeatAck _ | .close _ => .isTrue trivial

theorem Harmless.callError {m : ServerMessage} (h : Harmless m) :
    ∀ e, m = .callError e → e.fatal = false := by
  rintro e rfl
  exact h

def NoneGivenUp (w : World) : Prop :=
  (∀ l ∈ w.links, ∀ m ∈ l.down, Harmless m) ∧
    ∀ c ∈ w.uplink.spool.calls.keys, w.uplink.spool.isSealed c = false

instance (w : World) : Decidable (NoneGivenUp w) := inferInstanceAs (Decidable (_ ∧ _))

/-! ## The invariant -/

def Input.opens : Input → Set CallId
  | .frame f => f.opens
  | .tick => ∅

def Input.needs : Input → Set CallId
  | .frame f => f.needs
  | .tick => ∅

def World.heard (w : World) (extra : Nat → Set CallId) (k : Nat) (s : Session) : Set CallId :=
  {c | c ∈ s.calls.keys ∨ (k, c) ∈ w.refused ∨ c ∈ extra k}

structure World.Calm (extra : Nat → Set CallId) (w : World) : Prop extends w.Wired where
  labelled : w.uplink.Labelled
  unsealed : ∀ c, w.uplink.spool.isSealed c = false
  quiet : ∀ l ∈ w.links, ∀ m ∈ l.down, Harmless m
  grace : ∀ conn ∈ w.server.conns, 0 < conn.session.cfg.orphanGrace
  order : ∀ k conn l, w.server.conns[k]? = some conn → w.links[k]? = some l → conn.live = true →
    WellOpened (w.heard extra k conn.session) l.up
  waiting : ∀ k conn, w.server.conns[k]? = some conn → conn.live = true →
    ∀ c ∈ conn.session.orphans.keys, (k, c) ∈ w.refused
  started : w.uplink.connected = true → ∀ k conn l, k + 1 = w.links.length →
    w.server.conns[k]? = some conn → w.links[k]? = some l → conn.live = true →
    ∀ c ∈ w.uplink.startedThisConnection, c ∈ w.heard extra k conn.session ∪ opensOf l.up

namespace World.Calm

variable {env : SinkEnv} {w w' : World} {extra : Nat → Set CallId}

variable {ev : WorldEvent} {k : Nat} {i : Input} {t : Time} {faults : List Fault}

theorem aside (h : w.Calm extra) (hs : w.Aside ev w') : w'.Calm extra where
  toWired := h.toWired.aside hs
  labelled := hs.labelled h.labelled
  unsealed := fun c => (hs.isSealed c).trans (h.unsealed c)
  quiet := hs.links ▸ h.quiet
  grace := hs.server ▸ h.grace
  order := by
    simp only [heard, hs.server, hs.links, hs.refused]
    exact h.order
  waiting := by
    rw [hs.server, hs.refused]
    exact h.waiting
  started := by
    intro hc
    rw [(hs.connected hc).2]
    simp only [heard, hs.server, hs.links, hs.refused]
    exact h.started (hs.connected hc).1

theorem of_links (h : w.Calm extra) {f : Link → Link} (k : Nat) (hup : ∀ l, (f l).up = l.up)
    (hdown : ∀ l, (f l).down ⊆ l.down) :
    Calm extra { w with links := w.links.modify k f } where
  toWired := h.toWired.modify k f
  labelled := h.labelled
  unsealed := h.unsealed
  quiet := forall_mem_modify h.quiet fun l hl m hm => hl m (hdown l hm)
  grace := h.grace
  order := by
    intro j conn l hconn hl hlive
    obtain ⟨l₀, hl₀, ⟨-, rfl⟩ | ⟨-, rfl⟩⟩ := getElem?_modify_cases hl
    · rw [hup]
      exact h.order j conn l₀ hconn hl₀ hlive
    · exact h.order j conn l hconn hl₀ hlive
  waiting := h.waiting
  started := by
    intro hc j conn l hj hconn hl hlive
    have hj : j + 1 = w.links.length := by simpa using hj
    obtain ⟨l₀, hl₀, ⟨-, rfl⟩ | ⟨-, rfl⟩⟩ := getElem?_modify_cases hl
    · rw [hup]
      exact h.started hc j conn l₀ hj hconn hl₀ hlive
    · exact h.started hc j conn l hj hconn hl₀ hlive

theorem hangup (h : w.Calm extra) (k : Nat) :
    Calm extra { w with server := w.server.step env (.hangup k) } := by
  refine ⟨⟨by simpa [Server.step] using h.aligned, h.linked⟩, h.labelled, h.unsealed, h.quiet,
    forall_mem_modify h.grace fun _ hc => hc, ?_, ?_, ?_⟩
  · exact fun j conn l hconn hl hlive =>
      h.order j conn l (Server.live_of_hangup hconn hlive) hl hlive
  · exact fun j conn hconn hlive => h.waiting j conn (Server.live_of_hangup hconn hlive) hlive
  exact fun hc j conn l hj hconn hl hlive =>
    h.started hc j conn l hj (Server.live_of_hangup hconn hlive) hl hlive

theorem dial (h : w.Calm extra) (hc : w.uplink.connected = false) {d : Dial}
    (hd : 0 ≤ d.cfg.orphanGrace) : (w.dial env d).Calm extra := by
  have hgrace : 0 < d.cfg.withDefaults.orphanGrace := by
    simp only [Config.withDefaults]
    split
    · decide
    rename_i hne
    exact lt_of_le_of_ne hd (Ne.symm hne)
  have hlen : (w.dial env d).links.length = (w.dial env d).server.conns.length := by
    simp [World.dial, Server.step, h.aligned]
  refine ⟨⟨hlen, fun _ => by simp [World.dial]⟩, h.labelled, h.unsealed,
    forall_mem_append.mpr ⟨h.quiet, by simp⟩,
    forall_mem_append.mpr ⟨h.grace, forall_mem_singleton.mpr hgrace⟩, ?_, ?_, ?_⟩
  · intro j conn l hconn hl hlive
    rcases dial_conn h.aligned hconn hl with ⟨hconn, hl⟩ | ⟨-, -, rfl⟩
    · exact h.order j conn l hconn hl hlive
    · trivial
  · intro j conn hconn hlive c hmem
    obtain ⟨hj, -⟩ := List.getElem?_eq_some_iff.mp hconn
    rw [← hlen] at hj
    rcases dial_conn h.aligned hconn (getElem?_eq_getElem hj) with
      ⟨hconn, -⟩ | ⟨-, rfl, -⟩
    · exact h.waiting j conn hconn hlive c hmem
    · cases hmem
  · exact fun hc' => absurd (hc'.symm.trans hc) (by simp)

theorem pump (h : w.Calm fun _ => ∅) (t : Nat) (penv : Uplink.PumpEnv) (n : Nat)
    (hlinked : w.uplink.connected = true ∨ w.uplink.dials t penv = true → w.links ≠ []) :
    (w.pump t penv n).Calm fun _ => ∅ := by
  rcases w.pumped_spec h.labelled t penv n with ⟨-, p, msgs, hp⟩ | ⟨-, hs⟩
  · have hharmless := hp.harmless fun m hm => (forall_incoming h.quiet _ n m hm).callError
    -- The calls the pass builds on are those the last connection has heard of, or will.
    have hbase : ∀ k conn l, k + 1 = w.links.length → w.server.conns[k]? = some conn →
        w.links[k]? = some l → conn.live = true → ∀ c ∈ w.uplink.sender.startedThisConnection,
        c ∈ w.heard (fun _ => ∅) k conn.session ∪ opensOf l.up := by
      intro k conn l hk hconn hl hlive c hmem
      unfold Uplink.sender at hmem
      split at hmem
      · rename_i hc
        exact h.started hc k conn l hk hconn hl hlive c hmem
      · cases hmem
    refine ⟨h.toWired.pump t penv n hlinked, hp.labelled h.labelled, fun c => ?_, forall_mem_modify
      h.quiet fun l hl m hm => hl m (mem_of_mem_drop hm), h.grace, ?_, h.waiting, ?_⟩
    · change (w.pumped t penv n).up.spool.isSealed c = false
      rw [Spool.isSealed, hharmless.1]
      exact h.unsealed c
    · intro k conn l hconn hl hlive
      obtain ⟨l₀, hl₀, ⟨hk, rfl⟩ | ⟨-, rfl⟩⟩ := getElem?_modify_cases hl
      · have hlt : k < w.links.length := (List.getElem?_eq_some_iff.mp hl₀).1
        refine wellOpened_append.mpr ⟨h.order k conn l₀ hconn hl₀ hlive, ?_⟩
        rw [hp.out]
        exact hp.sends.order.mono fun c hmem =>
          hbase k conn l₀ (by omega) hconn hl₀ hlive c hmem
      · exact h.order k conn l hconn hl₀ hlive
    intro hc k conn l hk hconn hl hlive c hmem
    change c ∈ (w.pumped t penv n).up.startedThisConnection at hmem
    have hk : k + 1 = w.links.length := by simpa [World.pump] using hk
    obtain ⟨l₀, hl₀, ⟨-, rfl⟩ | ⟨hne, -⟩⟩ := getElem?_modify_cases hl
    · rw [hp.started, hp.sends.started c] at hmem
      rw [opensOf_append, ← Set.union_assoc, hp.out]
      exact hmem.imp (hbase k conn l₀ hk hconn hl₀ hlive c) id
    · omega
  · exact Calm.aside (h.of_links _ (fun _ => by rfl) fun l => drop_subset n l.down) hs

theorem heard_mono (hrefused : w.refused ⊆ w'.refused) {s s' : Session}
    (hopen : ∀ c ∈ s.calls.keys, c ∈ s'.calls.keys) :
    w.heard (fun _ => ∅) k s ⊆ w'.heard (fun _ => ∅) k s' := by
  rintro c (hc | hc | hc)
  · exact Or.inl (hopen c hc)
  · exact Or.inr (Or.inl (hrefused hc))
  · cases hc

theorem spared (h : w.Calm extra) {conn : Conn} (hconn : w.server.conns[k]? = some conn)
    (hlive : conn.live = true)
    (hstarts : ∀ cs, i = .frame (.callStart cs) → cs.By conn.session.peer)
    (hends : ∀ ce, i = .frame (.callEnd ce) → (k, ce.callId) ∉ w.refused)
    (hneeds : i.needs ⊆ w.heard (fun _ => ∅) k conn.session)
    (hoverdue : ∀ p ∈ w.overdueAt k t, p ∉ w.refused) :
    Spared t i conn.session (respond env conn.session { w.server.sink with faults } i t) := by
  refine respond_keeps i (fun _ _ hm => Spared.move hm) ⟨by simp, hstarts, ?_,
    h.grace conn (mem_of_getElem? hconn), ?_, fun c hc => hc, fun c hc => Or.inl hc⟩
  · rintro ce rfl
    rcases hneeds rfl with hc | hc | hc
    · exact hc
    · exact absurd hc (hends ce rfl)
    · cases hc
  intro c os hos
  have hmem : (c, os) ∈ conn.session.orphans.rows := Table.get?_eq_some.mp hos
  have hrefused : (k, c) ∈ w.refused :=
    h.waiting k conn hconn hlive c (Table.mem_keys.mpr ⟨os, hmem⟩)
  by_contra hexp
  refine hoverdue (k, c) ?_ hrefused
  simp only [overdueAt, hconn, mem_map, mem_filter]
  exact ⟨(c, os), ⟨hmem, by simpa using hexp⟩, rfl⟩

theorem messages_harmless {s : Session} {x : Ctx} (hx : Spared t i s x) :
    ∀ m ∈ x.out.messages, Harmless m := by
  intro m hm
  simp only [Outbound.messages, mem_append, mem_map] at hm
  rcases hm with (((⟨r, -, rfl⟩ | ⟨a, -, rfl⟩) | ⟨e, he, rfl⟩) | ⟨v, -, rfl⟩) | ⟨c, -, rfl⟩
  · trivial
  · trivial
  · exact hx.errors e he
  · trivial
  · trivial

theorem opens_heard {conn : Conn} (hconn : w.server.conns[k]? = some conn)
    (hlive : conn.live = true)
    (hstarts : ∀ cs, i = .frame (.callStart cs) → cs.By conn.session.peer)
    (hclose : (respond env conn.session { w.server.sink with faults } i t).out.close.isNone) :
    i.opens ⊆ (w.input env k i t faults).heard (fun _ => ∅) k
      (respond env conn.session { w.server.sink with faults } i t).session := by
  intro c hc
  cases i with
  | tick => cases hc
  | frame f =>
    cases f with
    | callStart cs =>
      obtain rfl : c = cs.callId := hc
      rcases start_opens env conn.session { w.server.sink with faults } t (hstarts cs rfl) with
        hkey | hnone | hsome
      · exact Or.inl hkey
      · refine Or.inr (Or.inl (mem_append.mpr (Or.inr ?_)))
        simp [refusal, hconn, hlive, hnone]
      rw [Option.isNone_iff_eq_none] at hclose
      rw [hclose] at hsome
      cases hsome
    | _ => cases hc

theorem input (h : w.Calm fun _ => ∅)
    (hup : ∀ l, w.links[k]? = some l → l.up = i.frames ++ (i.taken l).up)
    (hstarts : ∀ conn, w.server.conns[k]? = some conn →
      ∀ cs, i = .frame (.callStart cs) → cs.By conn.session.peer)
    (hends : ∀ ce, i = .frame (.callEnd ce) → (k, ce.callId) ∉ w.refused)
    (hneeds : ∀ conn, w.server.conns[k]? = some conn → conn.live = true →
      i.needs ⊆ w.heard (fun _ => ∅) k conn.session)
    (hoverdue : ∀ p ∈ w.overdueAt k t, p ∉ w.refused) :
    ((w.taken k i).input env k i t faults).Calm fun _ => ∅ := by
  have hrefused : w.refused ⊆ ((w.taken k i).input env k i t faults).refused :=
    subset_append_left _ _
  have hself : ∀ conn, w.server.conns[k]? = some conn → conn.live = true →
      Spared t i conn.session (respond env conn.session { w.server.sink with faults } i t) :=
    fun conn hconn hlive =>
      h.spared hconn hlive (hstarts conn hconn) hends (hneeds conn hconn hlive) hoverdue
  have hopens : opensOf i.frames ⊆ i.opens := by
    rintro c ⟨f, hf, hc⟩
    cases i with
    | tick => cases hf
    | frame g =>
      obtain rfl := mem_singleton.mp hf
      exact hc
  have hheard : ∀ conn, w.server.conns[k]? = some conn → conn.live = true →
      (respond env conn.session { w.server.sink with faults } i t).out.close.isNone →
      w.heard (fun _ => ∅) k conn.session ∪ opensOf i.frames ⊆
        ((w.taken k i).input env k i t faults).heard (fun _ => ∅) k
          (respond env conn.session { w.server.sink with faults } i t).session := by
    intro conn hconn hlive hclose
    refine Set.union_subset (heard_mono hrefused (hself conn hconn hlive).opened) ?_
    exact hopens.trans (opens_heard (w := w.taken k i) hconn hlive (hstarts conn hconn) hclose)
  refine ⟨(h.toWired.modify k i.taken).input k i t faults, h.labelled, h.unsealed,
    fun l hl m hm => ?_, fun conn hconn => ?_, ?_, ?_, ?_⟩
  · rcases input_down hl hm with ⟨l₀, hl₀, hm⟩ | ⟨x, hx, hm⟩
    · exact forall_mem_modify (f := i.taken) h.quiet (fun _ hl => hl) l₀ hl₀ m hm
    obtain ⟨conn, hconn, hlive, rfl⟩ := Server.reply_eq_some hx
    exact messages_harmless (hself conn hconn hlive) m hm
  · obtain ⟨j, hj⟩ := mem_iff_getElem?.mp hconn
    rcases Server.input_conn hj with ⟨-, hj⟩ | ⟨-, conn₀, x, hconn₀, hlive₀, -, rfl, hs, -⟩
    · exact h.grace conn (mem_of_getElem? hj)
    rw [hs]
    exact (hself conn₀ hconn₀ hlive₀).grace
  · intro j conn l hconn hl hlive
    rcases work_live hconn hlive hl with ⟨-, hconn₀, hl₀⟩ |
      ⟨rfl, conn₀, x, l₀, hconn₀, hlive₀, hl₀, -, rfl, hs, hclose, rfl⟩
    · exact (h.order j conn l hconn₀ hl₀ hlive).mono (heard_mono hrefused fun _ hc => hc)
    have horder := h.order j conn₀ l₀ hconn₀ hl₀ hlive₀
    rw [hup l₀ hl₀] at horder
    rw [hs]
    exact (wellOpened_append.mp horder).2.mono (hheard conn₀ hconn₀ hlive₀ hclose)
  · intro j conn hconn hlive c hmem
    rcases Server.input_conn hconn with ⟨-, hconn⟩ | ⟨rfl, conn₀, x, hconn₀, hlive₀, -, rfl, hs, -⟩
    · exact hrefused (h.waiting j conn hconn hlive c hmem)
    rw [hs] at hmem
    rcases (hself conn₀ hconn₀ hlive₀).buffered c hmem with
      hmem | ⟨hnew, records, rfl, r, hr, rfl⟩
    · exact hrefused (h.waiting j conn₀ hconn₀ hlive₀ c hmem)
    -- A record of a call that is not open: its `call.start` came before, and was refused.
    rcases hneeds conn₀ hconn₀ hlive₀ ⟨r, hr, rfl⟩ with hc | hc | hc
    · exact absurd hc hnew
    · exact hrefused hc
    · cases hc
  intro hc j conn l hj hconn hl hlive c hmem
  have hlast : j + 1 = w.links.length := by simpa [World.input, World.taken] using hj
  rcases work_live hconn hlive hl with ⟨-, hconn₀, hl₀⟩ |
    ⟨rfl, conn₀, x, l₀, hconn₀, hlive₀, hl₀, -, rfl, hs, hclose, rfl⟩
  · exact (h.started hc j conn l hlast hconn₀ hl₀ hlive c hmem).imp_left fun hm =>
      heard_mono hrefused (fun _ hc => hc) hm
  have hold := h.started hc j conn₀ l₀ hlast hconn₀ hl₀ hlive₀ c hmem
  rw [hup l₀ hl₀, opensOf_append, ← Set.union_assoc] at hold
  rw [hs]
  exact hold.imp_left fun hm => hheard conn₀ hconn₀ hlive₀ hclose hm

theorem work (h : w.Calm fun _ => ∅) (hev : w.Works ev k i t faults)
    (hup : ∀ l, w.links[k]? = some l → l.up = i.frames ++ (i.taken l).up) (hhonest : Honest w ev)
    (hpatient : Patient w ev) : ((w.taken k i).input env k i t faults).Calm fun _ => ∅ := by
  have hinput := @input env w k i t faults h hup
  cases hev with
  | serve _ f _ _ hnext =>
    obtain ⟨l, hl, -⟩ := Option.bind_eq_some_iff.mp hnext
    refine hinput ?_ ?_ (fun conn hconn hlive => ?_)
      fun p hp => hpatient p (mem_append.mpr (Or.inr hp))
    · rintro conn hconn cs hf
      cases hf
      replace hconn : w.server.conns[k]? = some conn := hconn
      exact hhonest (conn.session.peer, cs) (by simp [startsHandled, hconn, hnext])
    · rintro ce hf
      cases hf
      exact hpatient (k, ce.callId) (by simp [endsHandled, hnext])
    have horder := h.order k conn l hconn hl hlive
    rw [hup l hl] at horder
    exact horder.1
  | tick =>
    exact hinput (by simp) (by simp) (fun _ _ _ => Set.empty_subset _)
      fun p hp => hpatient p (mem_append.mpr (Or.inr hp))

theorem step (h : w.Calm fun _ => ∅) (horderly : Orderly ev) (hhonest : Honest w ev)
    (hpatient : Patient w ev) : (w.step env ev).Calm fun _ => ∅ := by
  have hs := w.step_stepped env ev
  generalize w.step env ev = w' at hs
  cases hs with
  | aside hs => exact h.aside hs
  | pump t n penv d =>
    unfold ready
    split
    · rename_i hdials
      have hc : w.uplink.connected = false := by
        simp only [Uplink.dials, Bool.and_eq_true, Bool.not_eq_true'] at hdials
        exact hdials.1.1
      exact (h.dial hc horderly).pump t penv n fun _ => by simp [World.dial]
    rename_i hdials
    exact h.pump t penv n fun hsock => h.linked (hsock.resolve_right hdials)
  | work hev hup => exact h.work hev hup hhonest hpatient
  | hangup k => exact h.hangup k
  | loseUp k i => exact horderly.elim
  | loseDown k i =>
    exact h.of_links k (fun _ => rfl) fun l => (eraseIdx_sublist l.down i).subset

end World.Calm

theorem World.calm_init (limits : SpoolLimits) : (init limits).Calm fun _ => ∅ where
  toWired := wired_init limits
  labelled := labelled_init limits
  unsealed := fun _ => rfl
  quiet := by simp [init]
  grace := by simp [init]
  order := by simp [init]
  waiting := by simp [init]
  started := by simp [init]

/-- **Only a failing `EnsureCall` can cost audio, and only so.** -/
theorem none_given_up (env : SinkEnv) (limits : SpoolLimits) (es : List WorldEvent)
    (h : Runs.Along (World.step env) (fun w ev => Orderly ev ∧ Honest w ev ∧ Patient w ev)
      (World.init limits) es) :
    Runs.Along (World.step env) (fun w ev => NoneGivenUp (w.step env ev)) (World.init limits)
      es := by
  refine h.of_invariant (I := World.Calm fun _ => ∅) (World.calm_init limits) ?_ ?_
  · exact fun w ev hI hev => hI.step hev.1 hev.2.1 hev.2.2
  · intro w ev hI hev
    have hnext : (w.step env ev).Calm fun _ => ∅ := hI.step hev.1 hev.2.1 hev.2.2
    exact ⟨hnext.quiet, fun c _ => hnext.unsealed c⟩

def shortCall : List WorldEvent :=
  [.beginCall (startBy alice "call-1") 0, .push (rowOf "call-1" 0),
    .endCall { callId := "call-1", endedAt := "2026-09-01T10:20:00Z",
               lastSeq := fun ch => if ch = .far then some 0 else none },
    pumpAs alice 0]

def stormRun : List WorldEvent :=
  shortCall ++ [.serve 0 0 [], .serve 0 0 [.refused], .serve 0 0 [.refused], .tick 0 (10 ^ 11) [],
    pumpAs alice 1]

/-- The hypotheses of `none_given_up` are met by a run with failures, in which the segment stays in
the spool. -/
theorem stormRun_none_given_up :
    (Runs.run (World.step anyEnv) (World.init {}) stormRun).uplink.spool.segments.rows =
        [rowOf "call-1" 0] ∧
      Runs.Along (World.step anyEnv) (fun w ev => Orderly ev ∧ Honest w ev ∧ Patient w ev)
        (World.init {}) stormRun ∧
      Runs.Along (World.step anyEnv) (fun w ev => NoneGivenUp (w.step anyEnv ev))
        (World.init {}) stormRun :=
  ⟨by decide, by decide, none_given_up anyEnv {} stormRun (by decide)⟩

def refusedRun : List WorldEvent :=
  shortCall ++ [.serve 0 0 [.refused], .serve 0 0 [], .serve 0 0 [], pumpAs alice 1]

/-- One transient failure of `EnsureCall`, with every frame in the peer's own name: the call is
given up and its segment is deleted without having been stored. -/
theorem refusedRun_given_up :
    Runs.Along (World.step anyEnv) (fun w ev => Orderly ev ∧ Honest w ev) (World.init {})
        refusedRun ∧
      ¬ Runs.Along (World.step anyEnv) (fun w ev => NoneGivenUp (w.step anyEnv ev))
        (World.init {}) refusedRun ∧
      (Runs.run (World.step anyEnv) (World.init {}) refusedRun).uplink.spool.segments.rows = [] ∧
      (Runs.run (World.step anyEnv) (World.init {}) refusedRun).server.sink.puts = [] := by
  decide

end Sentinel
