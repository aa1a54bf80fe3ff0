import Sentinel.Client.Pump
import Sentinel.Gateway.Server

/-!
# A client, a gateway, and the sockets between them

One client, a spool and the uplink over it, against the gateway, over one connection after another.
-/

open List

namespace Sentinel

open Spool Uplink

structure Link where
  up : List ClientFrame := []
  down : List ServerMessage := []

structure World where
  uplink : Uplink := .new {}
  server : Server := {}
  links : List Link := []
  pushed : List SegmentRow := []
  refused : List (Nat × CallId) := []

structure Dial where
  peer : Peer
  cfg : Config := {}
  policyVersion : Int := 0
  now : Time := 0

inductive WorldEvent where
  | beginCall (cs : CallStart) (nowMs : Nat)
  | push (row : SegmentRow)
  | endCall (ce : CallEnd)
  | pump (nowMs : Nat) (env : Uplink.PumpEnv) (deliver : Nat) (dial : Dial)
  | takeEvents
  | restart
  | serve (k : Nat) (now : Time) (faults : List Fault)
  | tick (k : Nat) (now : Time) (faults : List Fault)
  | hangup (k : Nat)
  | loseUp (k i : Nat)
  | loseDown (k i : Nat)

def Input.frames : Input → List ClientFrame
  | .frame f => [f]
  | .tick => []

def Input.taken (i : Input) (l : Link) : Link := { l with up := l.up.drop i.frames.length }

theorem Input.taken_frame (f : ClientFrame) :
    (Input.frame f).taken = fun l => { l with up := l.up.tail } := by
  funext l
  simp [taken, frames]

theorem Input.taken_tick : Input.tick.taken = id := rfl

namespace World

def init (limits : SpoolLimits) : World := { uplink := .new { limits } }

variable (env : SinkEnv)

def dial (w : World) (d : Dial) : World :=
  { w with
    server := w.server.step env (.accept d.peer d.cfg d.policyVersion d.now)
    links := w.links ++ [{}] }

def ready (w : World) (nowMs : Nat) (penv : Uplink.PumpEnv) (d : Dial) : World :=
  if w.uplink.dials nowMs penv then w.dial env d else w

def pumped (w : World) (nowMs : Nat) (penv : Uplink.PumpEnv) (deliver : Nat) : Uplink.Pumped :=
  let incoming := (w.links[w.links.length - 1]?.map Link.down).getD []
  w.uplink.pump nowMs penv (incoming.take deliver)

def pump (w : World) (nowMs : Nat) (penv : Uplink.PumpEnv) (deliver : Nat) : World :=
  let r := w.pumped nowMs penv deliver
  { w with
    uplink := r.up
    links := w.links.modify (w.links.length - 1) fun l =>
      { up := l.up ++ r.out, down := l.down.drop deliver } }

def refusal (srv : Server) (k : Nat) (i : Input) (faults : List Fault) : List (Nat × CallId) :=
  match srv.conns[k]?, i with
  | some conn, .frame (.callStart cs) =>
    let sink := { srv.sink with faults }
    let peer := conn.session.peer
    if conn.live && (sink.ensureCall env cs peer.tenantId peer.deviceId).2.isNone then
      [(k, cs.callId)]
    else []
  | _, _ => []

def input (w : World) (k : Nat) (i : Input) (now : Time) (faults : List Fault) : World :=
  let msgs := ((w.server.reply env k i now faults).map fun x => x.out.messages).getD []
  { w with
    server := w.server.step env (.input k i now faults)
    links := w.links.modify k fun l => { l with down := l.down ++ msgs }
    refused := w.refused ++ refusal env w.server k i faults }

def push (w : World) (row : SegmentRow) : World :=
  match w.uplink.pushSegment row with
  | .ok up => { w with uplink := up, pushed := w.pushed ++ [row] }
  | .error _ => w

def nextFrame (w : World) (k : Nat) : Option ClientFrame := w.links[k]?.bind fun l => l.up.head?

def serve (w : World) (k : Nat) (now : Time) (faults : List Fault) : World :=
  match w.nextFrame k with
  | some f =>
    let w := { w with links := w.links.modify k fun l => { l with up := l.up.tail } }
    w.input env k (.frame f) now faults
  | none => w

def taken (w : World) (k : Nat) (i : Input) : World :=
  { w with links := w.links.modify k i.taken }

def step (w : World) : WorldEvent → World
  | .beginCall cs nowMs => { w with uplink := w.uplink.beginCall cs.callId cs nowMs }
  | .push row => w.push row
  | .endCall ce => { w with uplink := w.uplink.endCall ce.callId ce }
  | .pump nowMs penv deliver d => (w.ready env nowMs penv d).pump nowMs penv deliver
  | .takeEvents => { w with uplink := { w.uplink with events := [] } }
  | .restart => { w with uplink := .new w.uplink.spool }
  | .serve k now faults => w.serve env k now faults
  | .tick k now faults => w.input env k .tick now faults
  | .hangup k => { w with server := w.server.step env (.hangup k) }
  | .loseUp k i => { w with links := w.links.modify k fun l => { l with up := l.up.eraseIdx i } }
  | .loseDown k i =>
    { w with links := w.links.modify k fun l => { l with down := l.down.eraseIdx i } }

variable {env : SinkEnv} {w : World}

theorem labelled_init (limits : SpoolLimits) : (init limits).uplink.Labelled := by
  refine ⟨?_, ?_, ?_⟩ <;> intro c <;>
    simp [init, new, callStartJson, callEndJson, pendingCalls]

theorem push_cases (w : World) (row : SegmentRow) : (∃ up, w.uplink.pushSegment row = .ok up ∧
      w.push row = { w with uplink := up, pushed := w.pushed ++ [row] }) ∨
    ((∃ e, w.uplink.pushSegment row = .error e) ∧ w.push row = w) := by
  unfold push
  split
  · rename_i up hup
    exact Or.inl ⟨up, hup, rfl⟩
  rename_i e he
  exact Or.inr ⟨⟨e, he⟩, rfl⟩

theorem serve_cases (env : SinkEnv) (w : World) (k : Nat) (now : Time) (faults : List Fault) :
    w.serve env k now faults = w ∨ ∃ f, w.nextFrame k = some f ∧
      (∀ l, w.links[k]? = some l → l.up = f :: l.up.tail) ∧
      w.serve env k now faults = (w.taken k (.frame f)).input env k (.frame f) now faults := by
  unfold serve
  split
  · rename_i f hf
    refine Or.inr ⟨f, hf, fun l hl => ?_, by simp only [taken, Input.taken_frame]⟩
    rw [nextFrame, hl] at hf
    exact (cons_head?_tail hf).symm
  · exact Or.inl rfl

variable {k : Nat} {t : Time} {faults : List Fault} {i : Input} {l : Link}

theorem input_down {m : ServerMessage} (h : l ∈ (w.input env k i t faults).links)
    (hm : m ∈ l.down) :
    (∃ l₀ ∈ w.links, m ∈ l₀.down) ∨
      ∃ x, w.server.reply env k i t faults = some x ∧ m ∈ x.out.messages := by
  rcases mem_modify_cases h with hl | ⟨l₀, hl₀, rfl⟩
  · exact .inl ⟨l, hl, hm⟩
  rcases mem_append.mp hm with hm | hm
  · exact .inl ⟨l₀, mem_of_getElem? hl₀, hm⟩
  cases hx : w.server.reply env k i t faults with
  | none => simp [hx] at hm
  | some x =>
    rw [hx] at hm
    exact .inr ⟨x, rfl, hm⟩

theorem forall_incoming {P : ServerMessage → Prop} (h : ∀ l ∈ w.links, ∀ m ∈ l.down, P m)
    (k n : Nat) : ∀ m ∈ ((w.links[k]?.map Link.down).getD []).take n, P m := by
  intro m hm
  cases hl : w.links[k]? with
  | none => simp [hl] at hm
  | some l =>
    rw [hl] at hm
    exact h l (mem_of_getElem? hl) m (mem_of_mem_take hm)

theorem ready_client (env : SinkEnv) (w : World) (t : Nat) (penv : PumpEnv) (d : Dial) :
    (w.ready env t penv d).uplink = w.uplink ∧
      (w.ready env t penv d).server.sink = w.server.sink := by
  unfold ready
  split <;> exact ⟨rfl, rfl⟩

theorem dial_conn (haligned : w.links.length = w.server.conns.length) {d : Dial} {conn : Conn}
    (hconn : (w.dial env d).server.conns[k]? = some conn)
    (hl : (w.dial env d).links[k]? = some l) :
    (w.server.conns[k]? = some conn ∧ w.links[k]? = some l) ∨ (w.links.length ≤ k ∧
        conn = { session := newSession d.peer d.cfg d.policyVersion d.now } ∧ l = {}) := by
  simp only [dial, Server.step] at hconn hl
  by_cases hk : k < w.links.length
  · rw [getElem?_append_left (by omega)] at hconn hl
    exact Or.inl ⟨hconn, hl⟩
  rw [getElem?_append_right (by omega)] at hconn hl
  exact Or.inr ⟨not_lt.mp hk, mem_singleton.mp (mem_of_getElem? hconn),
    mem_singleton.mp (mem_of_getElem? hl)⟩

theorem serve_uplink (env : SinkEnv) (w : World) (k : Nat) (now : Time) (faults : List Fault) :
    (w.serve env k now faults).uplink = w.uplink := by
  rcases w.serve_cases env k now faults with he | ⟨f, -, -, he⟩ <;> rw [he]
  rfl

theorem work_up (h : l ∈ ((w.taken k i).input env k i t faults).links) :
    ∃ l₀ ∈ w.links, l.up ⊆ l₀.up := by
  have htaken : ∀ l ∈ (w.taken k i).links, ∃ l₀ ∈ w.links, l.up ⊆ l₀.up :=
    forall_mem_modify (fun l hl => ⟨l, hl, Subset.refl _⟩) fun l ⟨l₀, hl₀, hup⟩ =>
      ⟨l₀, hl₀, Subset.trans (drop_subset _ _) hup⟩
  rcases mem_modify_cases h with hl | ⟨l₁, hl₁, rfl⟩
  · exact htaken l hl
  · exact htaken l₁ (mem_of_getElem? hl₁)

theorem work_live {j : Nat} {conn : Conn}
    (hconn : ((w.taken j i).input env j i t faults).server.conns[k]? = some conn)
    (hlive : conn.live = true) (hl : ((w.taken j i).input env j i t faults).links[k]? = some l) :
    (k ≠ j ∧ w.server.conns[k]? = some conn ∧ w.links[k]? = some l) ∨
    (k = j ∧ ∃ conn₀ x l₀, w.server.conns[k]? = some conn₀ ∧ conn₀.live = true ∧
      w.links[k]? = some l₀ ∧ w.server.reply env k i t faults = some x ∧
      x = respond env conn₀.session { w.server.sink with faults } i t ∧
      conn.session = x.session ∧ x.out.close.isNone ∧
      l = { i.taken l₀ with down := l₀.down ++ x.out.messages }) := by
  obtain ⟨l₁, hl₁, hl₁'⟩ := getElem?_modify_cases hl
  obtain ⟨l₀, hl₀, hl₀'⟩ := getElem?_modify_cases hl₁
  rcases Server.input_conn hconn with ⟨hkj, hconn₀⟩ |
    ⟨rfl, conn₀, x, hconn₀, hlive₀, hx, hxe, hs, hclose⟩
  · obtain rfl : l = l₁ := (hl₁'.resolve_left fun he => hkj hlive he.1).2
    obtain rfl : l = l₀ := (hl₀'.resolve_left fun he => hkj hlive he.1).2
    exact .inl ⟨hkj hlive, hconn₀, hl₀⟩
  obtain rfl : l = _ := (hl₁'.resolve_right fun he => he.1 rfl).2
  obtain rfl : l₁ = _ := (hl₀'.resolve_right fun he => he.1 rfl).2
  refine .inr ⟨rfl, conn₀, x, l₀, hconn₀, hlive₀, hl₀, hx, hxe, hs, hclose ▸ hlive, ?_⟩
  rw [hx]
  rfl

/-! ## What a step touches -/

structure Aside (w : World) (ev : WorldEvent) (w' : World) : Prop where
  server : w'.server = w.server
  links : w'.links = w.links
  refused : w'.refused = w.refused
  labelled : w.uplink.Labelled → w'.uplink.Labelled
  isSealed : ∀ c, w'.uplink.spool.isSealed c = w.uplink.spool.isSealed c
  keys : ∀ c ∈ w.uplink.spool.calls.keys, c ∈ w'.uplink.spool.calls.keys
  connected : w'.uplink.connected = true → w.uplink.connected = true ∧
    w'.uplink.startedThisConnection = w.uplink.startedThisConnection
  rows : ∀ row ∈ w'.uplink.spool.segments.rows, row ∈ w.uplink.spool.segments.rows ∨
    (ev = .push row ∧ w.uplink.spool.isSealed row.1.callId = false)

theorem Aside.refl (w : World) (ev : WorldEvent) : w.Aside ev w :=
  ⟨rfl, rfl, rfl, id, fun _ => rfl, fun _ hc => hc, fun hon => ⟨hon, rfl⟩, fun _ hr => .inl hr⟩

theorem pumped_spec (h : w.uplink.Labelled) (t : Nat) (penv : PumpEnv) (n : Nat) :
    (w.uplink.connected = true ∨ w.uplink.dials t penv = true) ∧
        (∃ p msgs, w.uplink.Pumps t penv.delayMs
          (((w.links[w.links.length - 1]?.map Link.down).getD []).take n) (w.pumped t penv n) p
          msgs) ∨
      (w.pumped t penv n).out = [] ∧ Aside
        { w with links := w.links.modify (w.links.length - 1) fun l =>
          { l with down := l.down.drop n } } .takeEvents (w.pump t penv n) := by
  refine (pump_spec h t penv _).imp_right fun ⟨_, _, t', he⟩ => ?_
  change w.pumped t penv n = _ at he
  refine ⟨by rw [he], ?_⟩
  unfold pump
  rw [he]
  simp only [append_nil]
  exact ⟨rfl, rfl, rfl, fun h => ⟨h.start, h.stop, h.known⟩, fun _ => rfl, fun _ hc => hc,
    fun hon => ⟨hon, rfl⟩, fun _ hr => .inl hr⟩

inductive Works (w : World) : WorldEvent → Nat → Input → Time → List Fault → Prop where
  | serve (k : Nat) (f : ClientFrame) (t : Time) (faults : List Fault)
      (hnext : w.nextFrame k = some f) : Works w (.serve k t faults) k (.frame f) t faults
  | tick (k : Nat) (t : Time) (faults : List Fault) : Works w (.tick k t faults) k .tick t faults

theorem Works.mem {ev : WorldEvent} {f : ClientFrame} (h : w.Works ev k (.frame f) t faults) :
    ∃ l ∈ w.links, f ∈ l.up := by
  cases h with
  | serve k f t faults hnext =>
    obtain ⟨l, hl, hhead⟩ := Option.bind_eq_some_iff.mp hnext
    exact ⟨l, mem_of_getElem? hl, mem_of_mem_head? hhead⟩

inductive Stepped (env : SinkEnv) (w : World) : WorldEvent → World → Prop where
  | aside {ev : WorldEvent} {w' : World} (h : w.Aside ev w') : Stepped env w ev w'
  | pump (t n : Nat) (penv : Uplink.PumpEnv) (d : Dial) :
      Stepped env w (.pump t penv n d) ((w.ready env t penv d).pump t penv n)
  | work {ev : WorldEvent} {k : Nat} {i : Input} {t : Time} {faults : List Fault}
      (hev : w.Works ev k i t faults)
      (hup : ∀ l, w.links[k]? = some l → l.up = i.frames ++ (i.taken l).up) :
      Stepped env w ev ((w.taken k i).input env k i t faults)
  | hangup (k : Nat) :
      Stepped env w (.hangup k) { w with server := w.server.step env (.hangup k) }
  | loseUp (k i : Nat) : Stepped env w (.loseUp k i)
      { w with links := w.links.modify k fun l => { l with up := l.up.eraseIdx i } }
  | loseDown (k i : Nat) : Stepped env w (.loseDown k i)
      { w with links := w.links.modify k fun l => { l with down := l.down.eraseIdx i } }

theorem step_tick (env : SinkEnv) (w : World) (k : Nat) (t : Time) (faults : List Fault) :
    (w.taken k .tick).input env k .tick t faults = w.step env (.tick k t faults) := by
  simp [step, taken, Input.taken_tick]

theorem push_aside (w : World) (row : SegmentRow) : w.Aside (.push row) (w.push row) := by
  rcases w.push_cases row with ⟨up, hpush, he⟩ | ⟨-, he⟩ <;> rw [he]
  · obtain ⟨spool, ev, hspool, rfl⟩ := pushSegment_ok hpush
    obtain ⟨hsealed, hcalls, -, n, hshrinks, -⟩ := push_ok hspool
    refine ⟨rfl, rfl, rfl, fun h => h.congr hcalls h.known, fun c => ?_, fun c hc => ?_,
      fun hon => ⟨hon, rfl⟩, fun r hr => ?_⟩
    · simp only [isSealed, hcalls]
    · exact hcalls.symm ▸ hc
    rcases mem_insert.mp (hshrinks.mem hr) with hr | ⟨rfl, -⟩
    · exact .inl hr
    · exact .inr ⟨rfl, hsealed⟩
  · exact .refl w _

theorem step_stepped (env : SinkEnv) (w : World) (ev : WorldEvent) :
    w.Stepped env ev (w.step env ev) := by
  cases ev with
  | beginCall cs t =>
    refine .aside ⟨rfl, rfl, rfl, fun h => h.beginCall cs t, fun c => ?_, fun c hc => ?_,
      fun hon => ⟨hon, rfl⟩, fun _ hr => .inl hr⟩
    · exact isSealed_beginCall ..
    · exact (beginCall_frames w.uplink.spool cs.callId cs t c).2.2.mpr (.inr hc)
  | push row => exact .aside (w.push_aside row)
  | endCall ce =>
    refine .aside ⟨rfl, rfl, rfl, fun h => h.endCall ce, fun c => ?_, fun c hc => ?_,
      fun hon => ⟨hon, rfl⟩, fun _ hr => .inl ?_⟩
    · exact isSealed_endCall ..
    · exact (endCall_frames w.uplink.spool ce.callId ce c).2.2.mpr hc
    · exact (endCall_segments w.uplink.spool ce.callId ce) ▸ hr
  | pump t penv n d => exact .pump t n penv d
  | takeEvents =>
    exact .aside ⟨rfl, rfl, rfl, fun h => h.congr rfl h.known, fun _ => rfl, fun _ hc => hc,
      fun hon => ⟨hon, rfl⟩, fun _ hr => .inl hr⟩
  | restart =>
    exact .aside ⟨rfl, rfl, rfl, labelled_new, fun _ => rfl, fun _ hc => hc,
      fun hon => absurd hon Bool.false_ne_true, fun _ hr => .inl hr⟩
  | serve k t faults =>
    change w.Stepped env _ (w.serve env k t faults)
    rcases w.serve_cases env k t faults with he | ⟨f, hnext, hup, he⟩ <;> rw [he]
    · exact .aside (.refl w _)
    exact .work (.serve k f t faults hnext) fun l hl => by
      simpa [Input.frames, Input.taken] using hup l hl
  | tick k t faults => exact w.step_tick env k t faults ▸ .work (.tick k t faults) fun l _ => rfl
  | hangup k => exact .hangup k
  | loseUp k i => exact .loseUp k i
  | loseDown k i => exact .loseDown k i

end World

structure World.Wired (w : World) : Prop where
  aligned : w.links.length = w.server.conns.length
  linked : w.uplink.connected = true → w.links ≠ []

namespace World.Wired

variable {env : SinkEnv} {w : World}

theorem ready (h : w.Wired) (env : SinkEnv) (t : Nat) (penv : PumpEnv) (d : Dial) :
    (w.ready env t penv d).Wired ∧ (w.uplink.connected = true ∨ w.uplink.dials t penv = true →
        (w.ready env t penv d).links ≠ []) := by
  unfold World.ready
  split
  · have hne : (w.dial env d).links ≠ [] := by simp [dial]
    exact ⟨⟨by simp [dial, Server.step, h.aligned], fun _ => hne⟩, fun _ => hne⟩
  rename_i hdials
  exact ⟨h, fun hsock => h.linked (hsock.resolve_right hdials)⟩

theorem pump (h : w.Wired) (t : Nat) (penv : PumpEnv) (n : Nat)
    (hsock : w.uplink.connected = true ∨ w.uplink.dials t penv = true → w.links ≠ []) :
    (w.pump t penv n).Wired where
  aligned := by simpa [World.pump] using h.aligned
  linked := by
    intro hon
    have hne : w.links ≠ [] := by
      rcases pump_cases w.uplink t penv
        (((w.links[w.links.length - 1]?.map Link.down).getD []).take n) with
        ⟨hsocket, -⟩ | ⟨hoff, -, t', he⟩
      · exact hsock hsocket
      change (w.pumped t penv n).up.connected = true at hon
      rw [show w.pumped t penv n = _ from he] at hon
      exact absurd (hon.symm.trans hoff) (by simp)
    simpa [World.pump, ← length_pos_iff] using hne

theorem input (h : w.Wired) (k : Nat) (i : Input) (t : Time) (faults : List Fault) :
    (w.input env k i t faults).Wired where
  aligned := by simp only [World.input, length_modify, Server.length_step_input, h.aligned]
  linked := fun hon => by simpa [World.input, ← length_pos_iff] using h.linked hon

theorem modify (h : w.Wired) (k : Nat) (f : Link → Link) :
    World.Wired { w with links := w.links.modify k f } where
  aligned := by simpa using h.aligned
  linked := fun hon => by simpa [← length_pos_iff] using h.linked hon

theorem aside {ev : WorldEvent} {w' : World} (h : w.Wired) (hs : w.Aside ev w') : w'.Wired :=
  ⟨by rw [hs.links, hs.server, h.aligned], fun hon => hs.links ▸ h.linked (hs.connected hon).1⟩

theorem step (h : w.Wired) (ev : WorldEvent) : (w.step env ev).Wired := by
  have hs := w.step_stepped env ev
  generalize w.step env ev = w' at hs
  cases hs with
  | aside hs => exact h.aside hs
  | pump t n penv d =>
    obtain ⟨hready, hsock⟩ := h.ready env t penv d
    refine hready.pump t penv n ?_
    rwa [(ready_client env w t penv d).1]
  | work => exact (h.modify _ _).input _ _ _ _
  | hangup k => exact ⟨by simpa [Server.step] using h.aligned, h.linked⟩
  | loseUp | loseDown => exact h.modify _ _

end World.Wired

theorem World.wired_init (limits : SpoolLimits) : (World.init limits).Wired :=
  ⟨rfl, fun hon => absurd hon (by simp [World.init, new])⟩

/-! ## Rows for concrete runs -/

def rowOf (c : CallId) (seq : Nat) : SegmentRow :=
  (⟨c, .far, seq⟩, ⟨1000 * seq, {}, [], 0⟩)

def pumpAs (p : Peer) (nowMs : Nat) : WorldEvent := .pump nowMs {} 100 ⟨p, {}, 0, 0⟩

end Sentinel
