import Sentinel.Gateway.Storing
import Sentinel.Link.AckSafety

/-!
# Which failures of the sink leave a hole

A failing `PutSegment` is not fatal, and the client keeps the segment.
-/

open List Set

namespace Sentinel

open World

/-! ## What is handed to the socket -/

def ClientFrame.records : ClientFrame → List MediaRecord
  | .media records => records
  | _ => []

def recordsOf (fs : List ClientFrame) : List MediaRecord := fs.flatMap ClientFrame.records

@[simp] theorem recordsOf_nil : recordsOf [] = [] := rfl

@[simp] theorem recordsOf_cons (f : ClientFrame) (fs : List ClientFrame) :
    recordsOf (f :: fs) = f.records ++ recordsOf fs := rfl

@[simp] theorem recordsOf_append (fs gs : List ClientFrame) :
    recordsOf (fs ++ gs) = recordsOf fs ++ recordsOf gs :=
  flatMap_append

def World.handsOver (env : SinkEnv) (w : World) : WorldEvent → List MediaRecord
  | .pump t penv n d => recordsOf ((w.ready env t penv d).pumped t penv n).out
  | _ => []

structure Watched where
  world : World
  handed : List (Nat × MediaRecord) := []

namespace Watched

def init (limits : SpoolLimits) : Watched := { world := .init limits }

def step (env : SinkEnv) (s : Watched) (ev : WorldEvent) : Watched where
  world := s.world.step env ev
  handed := s.handed ++ (s.world.handsOver env ev).map fun r =>
    ((s.world.step env ev).links.length - 1, r)

def on (s : Watched) (k : Nat) : Set MediaRecord := {r | (k, r) ∈ s.handed}

def NoHole (k : Nat) (s : Watched) : Prop :=
  s.world.Quiet k → ∀ r ∈ s.on k, r ∈ s.world.server.sink.puts

end Watched

def StaysUp (k : Nat) : WorldEvent → Prop
  | .loseUp j _ => j ≠ k
  | _ => True

instance (k : Nat) : ∀ ev, Decidable (StaysUp k ev)
  | .loseUp j _ => inferInstanceAs (Decidable (j ≠ k))
  | .beginCall .. | .push _ | .endCall _ | .pump .. | .takeEvents | .restart | .serve ..
  | .tick .. | .hangup _ | .loseDown .. => .isTrue trivial

def TakenIn (env : SinkEnv) (sink : Sink) (p : Peer) (faults : List Fault) : ClientFrame → Prop
  | .callStart cs => cs.By p ∧ sink.admits env p.tenantId cs = true ∧ faults.headD .none = .none
  | .media records => Untroubled faults ∨ ∀ r ∈ records, r ∈ sink.puts
  | _ => True

instance (env : SinkEnv) (sink : Sink) (p : Peer) (faults : List Fault) :
    ∀ f, Decidable (TakenIn env sink p faults f)
  | .callStart cs => inferInstanceAs (Decidable (cs.By p ∧ _ ∧ _))
  | .media _ => inferInstanceAs (Decidable (_ ∨ _))
  | .callEnd _ | .heartbeat | .malformed | .unknown => .isTrue trivial

def TakesIn (env : SinkEnv) (k : Nat) (w : World) : WorldEvent → Prop
  | .serve j _ faults => j = k → ∀ conn ∈ w.server.conns[k]?, conn.live = true →
      ∀ f ∈ w.nextFrame k, TakenIn env w.server.sink conn.session.peer faults f
  | _ => True

instance (env : SinkEnv) (k : Nat) (w : World) : ∀ ev, Decidable (TakesIn env k w ev)
  | .serve j _ faults => inferInstanceAs (Decidable (j = k → ∀ conn ∈ w.server.conns[k]?,
      conn.live = true → ∀ f ∈ w.nextFrame k,
        TakenIn env w.server.sink conn.session.peer faults f))
  | .loseUp .. | .beginCall .. | .push _ | .endCall _ | .pump .. | .takeEvents | .restart
  | .tick .. | .hangup _ | .loseDown .. => .isTrue trivial

/-! ## One connection -/

structure Stream (env : SinkEnv) (sink : Sink) (started : Set CallId) (handed : Set MediaRecord)
    (s : Session) (up : List ClientFrame) : Prop where
  visible : ∀ c ∈ s.calls.keys, sink.visible env s.peer.tenantId c = true
  orphans : s.orphans.rows = []
  order : WellOpened {c | c ∈ s.calls.keys} up
  started : started ⊆ {c | c ∈ s.calls.keys} ∪ opensOf up
  stored : ∀ r ∈ handed, r ∈ sink.puts ∨ r ∈ recordsOf up

namespace Stream

variable {env : SinkEnv} {sink sink' : Sink} {started started' : Set CallId}
  {handed handed' : Set MediaRecord} {s : Session} {up : List ClientFrame}

theorem mono (h : Stream env sink started handed s up) (hstarted : started' ⊆ started)
    (hvisible : ∀ tenant c, sink.visible env tenant c = true → sink'.visible env tenant c = true)
    (hputs : sink.puts ⊆ sink'.puts) : Stream env sink' started' handed s up where
  visible := fun c hc => hvisible _ c (h.visible c hc)
  orphans := h.orphans
  order := h.order
  started := hstarted.trans h.started
  stored := fun r hr => (h.stored r hr).imp_left fun hmem => hputs hmem

theorem send (h : Stream env sink started handed s up) {out : List ClientFrame}
    (horder : WellOpened started out) (hstarted : started' ⊆ started ∪ opensOf out)
    (hhanded : ∀ r ∈ handed', r ∈ handed ∨ r ∈ recordsOf out) :
    Stream env sink started' handed' s (up ++ out) where
  visible := h.visible
  orphans := h.orphans
  order := wellOpened_append.mpr ⟨h.order, horder.mono h.started⟩
  started := by
    rw [opensOf_append, ← union_assoc]
    exact hstarted.trans (union_subset_union_left _ h.started)
  stored := by
    intro r hr
    rw [recordsOf_append, mem_append]
    rcases hhanded r hr with hr | hr
    · exact (h.stored r hr).imp_right .inl
    · exact .inr (.inr hr)

theorem handle (h : Stream env sink started handed s up) {x : Ctx} {fs rest : List ClientFrame}
    {i : Input} (hup : up = fs ++ rest) (hready : Ready env i x)
    (hkeys : ∀ c ∈ s.calls.keys, c ∈ x.session.calls.keys)
    (hopens : ∀ c ∈ opensOf fs, c ∈ x.session.calls.keys) (hputs : sink.puts ⊆ x.sink.puts)
    (hstored : ∀ r ∈ recordsOf fs, r ∈ x.sink.puts) :
    Stream env x.sink started handed x.session rest where
  visible := hready.visible
  orphans := hready.orphans
  order := by
    have horder := h.order
    rw [hup] at horder
    exact (wellOpened_append.mp horder).2.mono (union_subset hkeys hopens)
  started := by
    intro c hc
    have hmem := h.started hc
    rw [hup, opensOf_append] at hmem
    rcases hmem with hmem | hmem | hmem
    · exact .inl (hkeys c hmem)
    · exact .inl (hopens c hmem)
    · exact .inr hmem
  stored := by
    intro r hr
    have hmem := h.stored r hr
    rw [hup, recordsOf_append, mem_append] at hmem
    rcases hmem with hmem | hmem | hmem
    · exact .inl (hputs hmem)
    · exact .inl (hstored r hmem)
    · exact .inr hmem

end Stream

/-! ## The invariant -/

def World.startedOn (w : World) (k : Nat) : Set CallId :=
  {c | w.uplink.connected = true ∧ k + 1 = w.links.length ∧ c ∈ w.uplink.startedThisConnection}

structure Flowing (env : SinkEnv) (k : Nat) (s : Watched) : Prop where
  unopened : s.world.links.length ≤ k → ∀ r, r ∉ s.on k
  stream : ∀ conn l, s.world.server.conns[k]? = some conn → s.world.links[k]? = some l →
    conn.live = true →
    Stream env s.world.server.sink (s.world.startedOn k) (s.on k) conn.session l.up

namespace Flowing

variable {env : SinkEnv} {k : Nat} {s : Watched} {w w' : World} {handed : List (Nat × MediaRecord)}

variable {ev : WorldEvent}

theorem aside (h : Flowing env k ⟨w, handed⟩) (hs : w.Aside ev w') :
    Flowing env k ⟨w', handed⟩ where
  unopened := fun hk => h.unopened (hs.links ▸ hk)
  stream := by
    intro conn l hconn hl hlive
    rw [hs.server] at hconn ⊢
    rw [hs.links] at hl
    refine (h.stream conn l hconn hl hlive).mono ?_ (fun _ _ hc => hc) (List.Subset.refl _)
    rintro c ⟨hc, hk, hmem⟩
    exact ⟨(hs.connected hc).1, hs.links ▸ hk, (hs.connected hc).2 ▸ hmem⟩

variable {j : Nat} {i : Input} {t : Time} {faults : List Fault}

theorem of_links (h : Flowing env k ⟨w, handed⟩) {f : Link → Link}
    (hup : ∀ l, j = k → (f l).up = l.up) :
    Flowing env k ⟨{ w with links := w.links.modify j f }, handed⟩ where
  unopened := fun hk => h.unopened (by simpa using hk)
  stream := by
    intro conn l hconn hl hlive
    have hstarted : startedOn { w with links := w.links.modify j f } k = w.startedOn k := by
      simp [startedOn]
    rw [hstarted]
    obtain ⟨l₀, hl₀, ⟨hkj, rfl⟩ | ⟨-, rfl⟩⟩ := getElem?_modify_cases hl
    · rw [hup l₀ hkj.symm]
      exact h.stream conn l₀ hconn hl₀ hlive
    · exact h.stream conn l hconn hl₀ hlive

theorem hangup (h : Flowing env k ⟨w, handed⟩) (j : Nat) :
    Flowing env k ⟨{ w with server := w.server.step env (.hangup j) }, handed⟩ where
  unopened := h.unopened
  stream := by
    intro conn l hconn hl hlive
    exact h.stream conn l (Server.live_of_hangup hconn hlive) hl hlive

theorem dial (h : Flowing env k ⟨w, handed⟩) (hwired : w.Wired)
    (hoff : w.uplink.connected = false) (d : Dial) : Flowing env k ⟨w.dial env d, handed⟩ where
  unopened := fun hk => h.unopened (by
    simp only [World.dial, length_append, length_singleton] at hk
    exact Nat.le_of_succ_le hk)
  stream := by
    intro conn l hconn hl hlive
    have hnone : (w.dial env d).startedOn k ⊆ ∅ :=
      fun c hc => absurd (hc.1.symm.trans hoff) (by simp)
    rcases World.dial_conn hwired.aligned hconn hl with ⟨hconn, hl⟩ | ⟨hk, rfl, rfl⟩
    · exact (h.stream conn l hconn hl hlive).mono (hnone.trans (empty_subset _))
        (fun _ _ hc => hc) (List.Subset.refl _)
    exact ⟨forall_mem_nil _, rfl, trivial, hnone.trans (empty_subset _),
      fun r hr => absurd hr (h.unopened hk r)⟩

theorem ready (h : Flowing env k ⟨w, handed⟩) (hwired : w.Wired) (t : Nat) (penv : Uplink.PumpEnv)
    (d : Dial) : Flowing env k ⟨w.ready env t penv d, handed⟩ := by
  unfold World.ready
  split
  · rename_i hdials
    simp only [Uplink.dials, Bool.and_eq_true, Bool.not_eq_true'] at hdials
    exact h.dial hwired hdials.1.1 d
  · exact h

theorem pump (h : Flowing env k ⟨w, handed⟩) (hlabelled : w.uplink.Labelled) (t : Nat)
    (penv : Uplink.PumpEnv) (n : Nat)
    (hlinked : w.uplink.connected = true ∨ w.uplink.dials t penv = true → w.links ≠ []) :
    Flowing env k ⟨w.pump t penv n, handed ++
      (recordsOf (w.pumped t penv n).out).map fun r => (w.links.length - 1, r)⟩ := by
  rcases w.pumped_spec hlabelled t penv n with ⟨hsock, p, msgs, hp⟩ | ⟨hout, hs⟩
  · have hpos : 0 < w.links.length := length_pos_iff.mpr (hlinked hsock)
    -- What the pump hands over is handed to the last connection.
    have hnew : ∀ r ∈ Watched.on ⟨w.pump t penv n, handed ++
        (recordsOf (w.pumped t penv n).out).map fun r => (w.links.length - 1, r)⟩ k,
        r ∈ Watched.on ⟨w, handed⟩ k ∨
          (k = w.links.length - 1 ∧ r ∈ recordsOf (w.pumped t penv n).out) := by
      intro r hr
      rcases mem_append.mp hr with hr | hr
      · exact .inl hr
      obtain ⟨r', hr', heq⟩ := mem_map.mp hr
      obtain ⟨rfl, rfl⟩ := Prod.mk.inj heq
      exact .inr ⟨rfl, hr'⟩
    refine ⟨fun hk r hr => ?_, ?_⟩
    · have hk : w.links.length ≤ k := by simpa [World.pump] using hk
      rcases hnew r hr with hr | ⟨hlast, -⟩
      · exact h.unopened hk r hr
      · omega
    intro conn l hconn hl hlive
    obtain ⟨l₀, hl₀, ⟨hk, rfl⟩ | ⟨hk, rfl⟩⟩ := getElem?_modify_cases hl
    · have hstream := h.stream conn l₀ hconn hl₀ hlive
      -- The calls the pass builds on: those started so far, or none on a new connection.
      have hbase : {c | c ∈ w.uplink.sender.startedThisConnection} ⊆ w.startedOn k := by
        intro c hc
        rw [mem_ofPred_eq, Uplink.sender] at hc
        split at hc
        · rename_i hon
          exact ⟨hon, by omega, hc⟩
        · cases hc
      refine hstream.send ?_ ?_ fun r hr => (hnew r hr).imp_right And.right
      · rw [hp.out]
        exact hp.sends.order.mono hbase
      rintro c ⟨-, -, hc⟩
      change c ∈ (w.pumped t penv n).up.startedThisConnection at hc
      rw [hp.started, hp.sends.started c] at hc
      rw [hp.out]
      exact hc.imp (fun hc => hbase hc) id
    have hstream := h.stream conn l hconn hl₀ hlive
    refine ⟨hstream.visible, hstream.orphans, hstream.order, ?_, fun r hr => ?_⟩
    · rintro c ⟨-, hlast, -⟩
      have hlast : k + 1 = w.links.length := by simpa [World.pump] using hlast
      omega
    · exact hstream.stored r ((hnew r hr).resolve_right fun hlast => hk hlast.1)
  rw [hout]
  simpa using Flowing.aside (h.of_links fun _ _ => by rfl) hs

theorem input_sink (env : SinkEnv) (w : World) (j : Nat) (i : Input) (t : Time)
    (faults : List Fault) :
    (∀ tenant c, w.server.sink.visible env tenant c = true →
      (w.input env j i t faults).server.sink.visible env tenant c = true) ∧
    w.server.sink.puts ⊆ (w.input env j i t faults).server.sink.puts := by
  refine Server.sink_step_input (P := fun a => (∀ tenant c,
      w.server.sink.visible env tenant c = true → a.visible env tenant c = true) ∧
    w.server.sink.puts ⊆ a.puts) ⟨fun _ _ hc => hc, List.Subset.refl _⟩
    ⟨fun _ _ hc => hc, List.Subset.refl _⟩ fun src x y hm hI => ⟨fun tenant c hc => ?_, ?_⟩
  · exact hm.sinkEffect.visible_mono (hI.1 tenant c hc)
  · exact List.Subset.trans hI.2 hm.sinkEffect.puts_mono

theorem respond_stream (henv : env.Faithful) (hsound : w.Sound env) {conn : Conn}
    (hconn : w.server.conns[k]? = some conn) {started : Set CallId} {given : Set MediaRecord}
    {up : List ClientFrame}
    (h : Stream env w.server.sink started given conn.session (i.frames ++ up))
    (hrecords : ∀ r ∈ recordsOf i.frames, FromPushed w.pushed r)
    (htaken : ∀ f ∈ i.frames, TakenIn env w.server.sink conn.session.peer faults f)
    (hlive : (respond env conn.session { w.server.sink with faults } i t).out.close.isNone) :
    Stream env (respond env conn.session { w.server.sink with faults } i t).sink started given
      (respond env conn.session { w.server.sink with faults } i t).session up := by
  have hneeds : ∀ f, i = .frame f → f.needs ⊆ {c | c ∈ conn.session.calls.keys} := by
    rintro f rfl
    exact h.order.1
  have hready : Ready env i { session := conn.session, sink := { w.server.sink with faults } } := by
    refine ⟨h.visible, ?_, ?_, h.orphans⟩
    · rintro cs rfl
      exact (htaken (.callStart cs) mem_cons_self).2.1
    rintro records rfl r hr
    exact hneeds _ rfl ⟨r, hr, rfl⟩
  have hafter : Ready env i (respond env conn.session { w.server.sink with faults } i t) :=
    respond_keeps i (fun _ _ hm => Ready.move hm) hready
  have hkeys : ∀ c ∈ conn.session.calls.keys,
      c ∈ (respond env conn.session { w.server.sink with faults } i t).session.calls.keys :=
    respond_keeps i (I := fun x => ∀ c ∈ conn.session.calls.keys, c ∈ x.session.calls.keys)
      (fun _ _ hm hI c hc => hm.keys_mono (hI c hc)) fun _ hc => hc
  have hputs : w.server.sink.puts ⊆
      (respond env conn.session { w.server.sink with faults } i t).sink.puts :=
    respond_keeps i (I := fun x => w.server.sink.puts ⊆ x.sink.puts)
      (fun _ _ hm hI => List.Subset.trans hI hm.sinkEffect.puts_mono) (List.Subset.refl _)
  refine h.handle rfl hafter hkeys ?_ hputs ?_
  · -- The call of a `call.start` is open afterwards, since the connection is not closed.
    rintro c ⟨f, hf, hc⟩
    cases i with
    | tick => cases hf
    | frame g =>
      obtain rfl := mem_singleton.mp hf
      cases f with
      | callStart cs =>
        obtain rfl : c = cs.callId := hc
        obtain ⟨hpeer, hadmits, hfault⟩ := htaken (.callStart cs) mem_cons_self
        rcases start_opens env conn.session { w.server.sink with faults } t hpeer with
          hopen | hnone | hclose
        · exact hopen
        · exact absurd hnone (Sink.ensureCall_succeeds hadmits hfault)
        rw [Option.isNone_iff_eq_none] at hlive
        rw [hlive] at hclose
        cases hclose
      | _ => cases hc
  intro r hr
  cases i with
  | tick => cases hr
  | frame f =>
    cases f with
    | media records =>
      have hr : r ∈ records := by simpa [Input.frames, ClientFrame.records] using hr
      rcases htaken (.media records) mem_cons_self with hfaults | hold
      · have hpushed : ∀ r ∈ records, FromPushed w.pushed r := fun r hr =>
          hrecords r (by simpa [Input.frames, ClientFrame.records] using hr)
        refine Ctx.onRecords_stores henv hsound.small ?_ rfl hpushed (List.Subset.refl _)
          ⟨hready, ?_, hfaults⟩ r hr
        · rintro r r' ⟨row, hrow, rfl⟩ ⟨row', hrow', rfl⟩ hcall hchannel hseq
          rw [hsound.journal.unique row hrow row' hrow' (by
            rcases hk : row.1 with ⟨c, ch, q⟩
            rcases hk' : row'.1 with ⟨c', ch', q'⟩
            simp only [toRecord, hk, hk'] at hcall hchannel hseq
            rw [hcall, hchannel, hseq])]
        · exact hsound.server.start hconn faults
      · exact hputs (hold r hr)
    | _ => simp [Input.frames, ClientFrame.records] at hr

theorem work (henv : env.Faithful) (hsound : w.Sound env) (h : Flowing env k ⟨w, handed⟩)
    (hup : ∀ l, w.links[j]? = some l → l.up = i.frames ++ (i.taken l).up)
    (htaken : j = k → ∀ conn, w.server.conns[k]? = some conn → conn.live = true →
      ∀ f ∈ i.frames, TakenIn env w.server.sink conn.session.peer faults f) :
    Flowing env k ⟨(w.taken j i).input env j i t faults, handed⟩ := by
  have hlen : ((w.taken j i).input env j i t faults).links.length = w.links.length := by
    simp [input, taken]
  refine ⟨fun hk => h.unopened (hlen ▸ hk), ?_⟩
  intro conn l hconn hl hlive
  have hstarted : ((w.taken j i).input env j i t faults).startedOn k = w.startedOn k := by
    simp [startedOn, input, taken]
  rw [hstarted]
  rcases work_live hconn hlive hl with ⟨-, hconn₀, hl₀⟩ |
    ⟨rfl, conn₀, x, l₀, hconn₀, hlive₀, hl₀, hx, hxe, hs, hclose, rfl⟩
  · obtain ⟨hvisible, hputs⟩ := input_sink env w j i t faults
    exact (h.stream conn l hconn₀ hl₀ hlive).mono (le_refl _) hvisible hputs
  replace hup := hup l₀ hl₀
  have hstream := h.stream conn₀ l₀ hconn₀ hl₀ hlive₀
  rw [hup] at hstream
  have hsink : ((w.taken k i).input env k i t faults).server.sink = x.sink :=
    congrArg Server.sink (Server.step_input hx)
  rw [hsink, hs, hxe]
  subst hxe
  refine respond_stream henv hsound hconn₀ hstream (fun r hr => ?_)
    (htaken rfl conn₀ hconn₀ hlive₀) hclose
  cases i with
  | tick => cases hr
  | frame f =>
    cases f with
    | media records =>
      refine hsound.frames l₀ (mem_of_getElem? hl₀) records ?_ r
        (by simpa [Input.frames, ClientFrame.records] using hr)
      rw [hup]
      exact mem_cons_self
    | _ => simp [Input.frames, ClientFrame.records] at hr

theorem stepped (henv : env.Faithful) (hsound : w.Sound env) (h : Flowing env k ⟨w, handed⟩)
    (hs : w.Stepped env ev w') (hstays : StaysUp k ev) (htakes : TakesIn env k w ev)
    (hev : ∀ t penv n d, ev ≠ .pump t penv n d) : Flowing env k ⟨w', handed⟩ := by
  cases hs with
  | aside hs => exact h.aside hs
  | pump t n penv d => exact absurd rfl (hev t penv n d)
  | work hev hup =>
    refine h.work henv hsound hup ?_
    rintro rfl conn hconn hlive f hf
    cases hev with
    | serve _ g t faults hnext =>
      obtain rfl := mem_singleton.mp hf
      exact htakes rfl conn hconn hlive f hnext
    | tick => cases hf
  | hangup j => exact h.hangup j
  | loseUp j i => exact h.of_links fun l hj => absurd hj hstays
  | loseDown j i => exact h.of_links fun l _ => rfl

theorem step (henv : env.Faithful) (hsound : s.world.Sound env) (hwired : s.world.Wired)
    (h : Flowing env k s) (hup : StaysUp k ev) (htakes : TakesIn env k s.world ev) :
    Flowing env k (s.step env ev) := by
  obtain ⟨w, handed⟩ := s
  cases ev with
  | pump t penv n d =>
    have hlen : ((w.ready env t penv d).pump t penv n).links.length =
        (w.ready env t penv d).links.length := by simp [World.pump]
    have hpump := (h.ready hwired t penv d).pump (hsound.ready t penv d).client.labelled t penv n
      (by rw [(ready_client env w t penv d).1]; exact (hwired.ready env t penv d).2)
    rwa [← hlen] at hpump
  | _ =>
    -- Only a pump hands anything over.
    have hw := h.stepped henv hsound (w.step_stepped env _) hup htakes (by simp)
    simpa [Watched.step, handsOver] using hw

theorem noHole (h : Flowing env k s) : s.NoHole k := by
  intro hquiet r hr
  obtain ⟨conn, hconn, hlive, -⟩ := hquiet.settled
  rcases (h.stream conn {} hconn hquiet.delivered hlive).stored r hr with hput | hunread
  · exact hput
  · cases hunread

end Flowing

theorem flowing_init (env : SinkEnv) (k : Nat) (limits : SpoolLimits) :
    Flowing env k (Watched.init limits) where
  unopened := fun _ _ hr => by cases hr
  stream := fun conn l hconn => by cases hconn

/-- **No hole without a failure on the way.** -/
theorem no_hole_of_taken_in (env : SinkEnv) (henv : env.Faithful) (limits : SpoolLimits) (k : Nat)
    (es : List WorldEvent) (h : Runs.Along (Watched.step env)
      (fun s ev => PushedInOrder s.world ev ∧ StaysUp k ev ∧ TakesIn env k s.world ev)
      (Watched.init limits) es) :
    (Runs.run (Watched.step env) (Watched.init limits) es).NoHole k := by
  have hall := h.invariant
    (I := fun s => s.world.Sound env ∧ s.world.Wired ∧ Flowing env k s)
    ⟨World.sound_init env limits, World.wired_init limits, flowing_init env k limits⟩
    fun s ev ⟨hsound, hwired, hflowing⟩ hev => ⟨hsound.step henv hev.1, hwired.step ev,
      hflowing.step henv hsound hwired hev.2.1 hev.2.2⟩
  exact hall.2.2.noHole

def threeSegments : List WorldEvent :=
  [.beginCall (startBy alice "call-1") 0, .push (rowOf "call-1" 0), .push (rowOf "call-1" 1),
    .push (rowOf "call-1" 2), pumpAs alice 0]

def smoothRun : List WorldEvent :=
  threeSegments ++ [.serve 0 0 [], .serve 0 0 [], .tick 0 (3 * 10 ^ 9) [.refused],
    .tick 0 (6 * 10 ^ 9) [], pumpAs alice 1]

theorem smoothRun_has_no_hole :
    Runs.Along (Watched.step anyEnv)
        (fun s ev => PushedInOrder s.world ev ∧ StaysUp 0 ev ∧ TakesIn anyEnv 0 s.world ev)
        (Watched.init {}) smoothRun ∧
      (Runs.run (Watched.step anyEnv) (Watched.init {}) smoothRun).world.Quiet 0 ∧
      recordOf "call-1" 2 ∈ (Runs.run (Watched.step anyEnv) (Watched.init {}) smoothRun).on 0 ∧
      (Runs.run (Watched.step anyEnv) (Watched.init {}) smoothRun).NoHole 0 :=
  ⟨by decide +kernel,
    ⟨by decide +kernel, by decide +kernel, fun now => ⟨_, rfl, rfl⟩, rfl,
      ⟨_, rfl, rfl, by decide +kernel⟩⟩,
    show (0, recordOf "call-1" 2) ∈
      (Runs.run (Watched.step anyEnv) (Watched.init {}) smoothRun).handed by decide +kernel,
    no_hole_of_taken_in anyEnv anyEnv_faithful {} 0 smoothRun (by decide +kernel)⟩

def troubledRun : List WorldEvent :=
  threeSegments ++ [.serve 0 0 [], .serve 0 0 [.none, .none, .refused], .tick 0 (3 * 10 ^ 9) [],
    pumpAs alice 1]

/-- One failing `PutSegment` on a connection that stays up: both sides come to rest, and the second
and the third segment are not stored. -/
theorem troubledRun_leaves_hole :
    Runs.Along (Watched.step anyEnv) (fun s ev => PushedInOrder s.world ev ∧ StaysUp 0 ev)
        (Watched.init {}) troubledRun ∧
      ¬ (Runs.run (Watched.step anyEnv) (Watched.init {}) troubledRun).NoHole 0 := by
  refine ⟨by decide +kernel, fun h => ?_⟩
  have hmissing : recordOf "call-1" 1 ∉
      (Runs.run (Watched.step anyEnv) (Watched.init {}) troubledRun).world.server.sink.puts := by
    decide +kernel
  refine hmissing (h ⟨by decide +kernel, by decide +kernel, fun now => ⟨_, rfl, rfl⟩, rfl,
    ⟨_, rfl, rfl, by decide +kernel⟩⟩ _ ?_)
  show (0, recordOf "call-1" 1) ∈
    (Runs.run (Watched.step anyEnv) (Watched.init {}) troubledRun).handed
  decide +kernel

end Sentinel
