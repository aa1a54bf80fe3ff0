import Sentinel.Link.AckSafety
import Sentinel.Link.WorkList

/-!
# After an acknowledgement was lost

If an acknowledgement is lost with the connection, the client still holds segments that the gateway
will not ask for again.
-/

open List

namespace Sentinel

open Uplink

/-! ## The statement -/

def World.covers (env : SinkEnv) (w : World) (row : SegmentRow) : Bool :=
  w.server.sink.covers env row.1.callId row.1.channel row.1.seq

def World.Recovered (env : SinkEnv) (k : Nat) (w : World) : Prop :=
  w.Quiet k → ∀ row ∈ w.uplink.spool.segments.rows, w.covers env row = false

def Delivers (w : World) : WorldEvent → Prop
  | .loseUp j _ => ¬ (w.uplink.connected = true ∧ j + 1 = w.links.length)
  | .loseDown j _ => ¬ (w.uplink.connected = true ∧ j + 1 = w.links.length)
  | _ => True

instance (w : World) : ∀ ev, Decidable (Delivers w ev)
  | .loseUp j _ => inferInstanceAs (Decidable (¬ (_ ∧ j + 1 = w.links.length)))
  | .loseDown j _ => inferInstanceAs (Decidable (¬ (_ ∧ j + 1 = w.links.length)))
  | .beginCall .. | .push _ | .endCall _ | .pump .. | .takeEvents | .restart | .serve ..
  | .tick .. | .hangup _ => .isTrue trivial

def Input.starts : Input → List CallId
  | .frame (.callStart cs) => [cs.callId]
  | _ => []

theorem Input.mem_starts {i : Input} {c : CallId} :
    c ∈ i.starts ↔ ∃ cs, i = .frame (.callStart cs) ∧ cs.callId = c := by
  constructor
  · intro hc
    cases i with
    | tick => cases hc
    | frame f =>
      cases f with
      | callStart cs => exact ⟨cs, rfl, (mem_singleton.mp hc).symm⟩
      | _ => cases hc
  rintro ⟨cs, rfl, rfl⟩
  exact mem_singleton.mpr rfl

def World.KnowsMarks (env : SinkEnv) (w : World) (j : Nat) (i : Input) : Prop :=
  w.uplink.connected = true → ∀ conn ∈ w.server.conns[j]?, conn.live = true →
    ∀ row ∈ w.uplink.spool.segments.rows,
      (j + 1 = w.links.length → row.1.callId ∈ i.starts → w.covers env row = false) ∧
      (j + 1 ≠ w.links.length →
        row.1.callId ∉ conn.session.calls.keys ∧ row.1.callId ∉ i.starts)

instance (env : SinkEnv) (w : World) (j : Nat) (i : Input) : Decidable (w.KnowsMarks env j i) :=
  inferInstanceAs (Decidable (_ → ∀ conn ∈ w.server.conns[j]?, _ → ∀ row ∈ _, _ ∧ _))

def MarksKnown (env : SinkEnv) (w : World) : WorldEvent → Prop
  | .serve j _ _ => ∀ f ∈ w.nextFrame j, w.KnowsMarks env j (.frame f)
  | .tick j _ _ => w.KnowsMarks env j .tick
  | _ => True

instance (env : SinkEnv) (w : World) : ∀ ev, Decidable (MarksKnown env w ev)
  | .serve j _ _ => inferInstanceAs (Decidable (∀ f ∈ w.nextFrame j, w.KnowsMarks env j (.frame f)))
  | .tick j _ _ => inferInstanceAs (Decidable (w.KnowsMarks env j .tick))
  | .loseUp .. | .loseDown .. | .beginCall .. | .push _ | .endCall _ | .pump .. | .takeEvents
  | .restart | .hangup _ => .isTrue trivial

/-! ## The gateway knows the client's calls only -/

structure World.Booked (env : SinkEnv) (w : World) : Prop where
  rows : w.uplink.RowsOpen
  frames : ∀ l ∈ w.links, ∀ cs, .callStart cs ∈ l.up → cs.callId ∈ w.uplink.spool.calls.keys
  server : w.server.Marked env {c | c ∈ w.uplink.spool.calls.keys}

namespace World.Booked

variable {env : SinkEnv} {w w' : World}

theorem aside {ev : WorldEvent} (h : w.Booked env) (hs : w.Aside ev w') : w'.Booked env where
  rows := fun row hrow =>
    (hs.isSealed _).trans ((hs.rows row hrow).elim (h.rows row) And.right)
  frames := fun l hl cs hcs => hs.keys _ (h.frames l (hs.links ▸ hl) cs hcs)
  server := by
    rw [hs.server]
    exact h.server.mono hs.keys

theorem dial (h : w.Booked env) (d : Dial) : (w.dial env d).Booked env where
  rows := h.rows
  frames := forall_mem_append.mpr ⟨h.frames, by simp⟩
  server := h.server.accept d.peer d.cfg d.policyVersion d.now

theorem ready (h : w.Booked env) (t : Nat) (penv : PumpEnv) (d : Dial) :
    (w.ready env t penv d).Booked env := by
  unfold World.ready
  split
  · exact h.dial d
  · exact h

theorem pump (h : w.Booked env) (hlabelled : w.uplink.Labelled) (t : Nat) (penv : PumpEnv)
    (n : Nat) : (w.pump t penv n).Booked env := by
  have hkeys : ∀ c, c ∈ (w.pumped t penv n).up.spool.calls.keys ↔ c ∈ w.uplink.spool.calls.keys :=
    (pump_keepsList hlabelled t penv _).keys
  have hout : (w.pumped t penv n).up.RowsOpen ∧ ∀ cs, .callStart cs ∈ (w.pumped t penv n).out →
      cs.callId ∈ w.uplink.spool.calls.keys := by
    rcases pump_spec hlabelled t penv
      (((w.links[w.links.length - 1]?.map Link.down).getD []).take n) with
      ⟨-, p, msgs, hp⟩ | ⟨-, -, t', he⟩
    · change w.uplink.Pumps t penv.delayMs _ (w.pumped t penv n) p msgs at hp
      have hspool : p.up.spool = w.uplink.spool := hp.sends.spool.trans (sender_spool _).1
      have hread : (msgs.foldl (Uplink.received t) p.up).RowsOpen := by
        refine read_keeps (fun _ m _ hv => hv.received t m) ?_
        rw [RowsOpen, hspool]
        exact h.rows
      refine ⟨?_, fun cs hcs => ?_⟩
      · rcases hp.up with he | he <;> rw [he]
        · exact hread
        · exact hread
      rw [hp.out] at hcs
      obtain ⟨hpass, -⟩ := hp.sends.frames _ hcs
      rw [← (sender_spool w.uplink).1]
      exact hlabelled.sender.mem_keys hpass
    change w.pumped t penv n = _ at he
    rw [he]
    exact ⟨h.rows, fun cs hcs => by cases hcs⟩
  refine ⟨hout.1, forall_mem_modify
    (fun l hl cs hcs => (hkeys _).mpr (h.frames l hl cs hcs)) fun l hl cs hcs => ?_,
    h.server.mono fun c hc => (hkeys c).mpr hc⟩
  exact (mem_append.mp hcs).elim (hl cs) fun hcs => (hkeys _).mpr (hout.2 cs hcs)

theorem modify (h : w.Booked env) (k : Nat) {f : Link → Link} (hf : ∀ l, (f l).up ⊆ l.up) :
    World.Booked env { w with links := w.links.modify k f } where
  rows := h.rows
  frames := forall_mem_modify h.frames fun l hl cs hcs => hl cs (hf l hcs)
  server := h.server

theorem work (henv : env.Faithful) (hsound : w.Sound env) (h : w.Booked env) {ev : WorldEvent}
    {k : Nat} {i : Input} {t : Time} {faults : List Fault} (hev : w.Works ev k i t faults) :
    ((w.taken k i).input env k i t faults).Booked env := by
  have htaken : (w.taken k i).Booked env := h.modify k fun l => drop_subset _ _
  refine ⟨h.rows, forall_mem_modify htaken.frames fun _ hl => hl,
    h.server.input henv hsound.small hsound.server k t faults ?_ ?_⟩
  · rintro records rfl
    obtain ⟨l, hl, hmem⟩ := hev.mem
    exact hsound.frames l hl records hmem
  rintro cs rfl
  obtain ⟨l, hl, hmem⟩ := hev.mem
  exact h.frames l hl cs hmem

theorem step (henv : env.Faithful) (hsound : w.Sound env) (h : w.Booked env) (ev : WorldEvent) :
    (w.step env ev).Booked env := by
  have hs := w.step_stepped env ev
  generalize w.step env ev = w' at hs
  cases hs with
  | aside hs => exact h.aside hs
  | pump t n penv d =>
    exact (h.ready t penv d).pump (hsound.ready t penv d).client.labelled t penv n
  | work hev => exact h.work henv hsound hev
  | hangup k => exact ⟨h.rows, h.frames, h.server.hangup k⟩
  | loseUp k i => exact h.modify k fun l => (eraseIdx_sublist l.up i).subset
  | loseDown k i => exact h.modify k fun l => Subset.refl _

end World.Booked

theorem World.booked_init (env : SinkEnv) (limits : SpoolLimits) :
    (World.init limits).Booked env where
  rows := fun row hrow => by cases hrow
  frames := fun l hl => by cases hl
  server := by
    refine ⟨forall_mem_nil _, forall_mem_nil _, fun c ch m hm => ?_⟩
    obtain ⟨u, -, hm⟩ := Option.bind_eq_some_iff.mp hm
    cases hm

/-! ## The invariant -/

inductive OnItsWay (started : List CallId) (s : Session) (l : Link) (k : SegmentKey) : Prop where
  | acked (t : Nat) (h : .ack k.callId k.channel t ∈ l.down) (hle : k.seq ≤ t)
  | due (h : s.Due k.callId k.channel k.seq)
  | unheard (h : k.callId ∉ started)
  | starting (cs : CallStart) (h : .callStart cs ∈ l.up) (hid : cs.callId = k.callId)

def World.Moving (env : SinkEnv) (w : World) (started : List CallId) : Prop :=
  ∀ k conn l, k + 1 = w.links.length → w.server.conns[k]? = some conn → conn.live = true →
    w.links[k]? = some l → ∀ row ∈ w.uplink.spool.segments.rows, w.covers env row = true →
    OnItsWay started conn.session l row.1

def World.Recovering (env : SinkEnv) (w : World) : Prop :=
  w.uplink.connected = true → w.Moving env w.uplink.startedThisConnection

namespace World.Recovering

variable {env : SinkEnv} {w w' : World}

theorem aside {ev : WorldEvent} (h : w.Recovering env) (hs : w.Aside ev w')
    (hpush : ∀ row, ev = .push row → w.covers env row = false) : w'.Recovering env := by
  intro hon k conn l hk hconn hlive hl row hrow hcovers
  rw [World.covers, hs.server] at hcovers
  rw [hs.server] at hconn
  rw [hs.links] at hk hl
  rw [(hs.connected hon).2]
  rcases hs.rows row hrow with hrow | ⟨he, -⟩
  · exact h (hs.connected hon).1 k conn l hk hconn hlive hl row hrow hcovers
  · exact absurd hcovers (Bool.eq_false_iff.mp (hpush row he))

theorem ready (h : w.Recovering env) (t : Nat) (penv : PumpEnv) (d : Dial) :
    (w.ready env t penv d).Moving env
      (w.ready env t penv d).uplink.sender.startedThisConnection := by
  cases hon : w.uplink.connected with
  | true =>
    have hsame : w.ready env t penv d = w := if_neg (by simp [dials, hon])
    rw [hsame, sender, if_pos hon]
    exact h hon
  | false =>
    -- On a new connection no call has been started.
    rw [(ready_client env w t penv d).1, sender, hon]
    exact fun k conn l hk hconn hlive hl row hrow hcovers => .unheard not_mem_nil

theorem pump (hlabelled : w.uplink.Labelled)
    (h : w.Moving env w.uplink.sender.startedThisConnection) (t : Nat) (penv : PumpEnv)
    (n : Nat) : (w.pump t penv n).Recovering env := by
  intro hon k conn l hk hconn hlive hl row hrow hcovers
  obtain ⟨p, hp, hout, hup⟩ := pump_connected (show (w.pumped t penv n).up.connected = true
    from hon)
  have hsends := sendPending_spec hlabelled.sender t penv.budget
  rw [hp] at hsends
  have hstarted : (w.pump t penv n).uplink.startedThisConnection = p.up.startedThisConnection := by
    change (w.uplink.pump _ _ _).up.startedThisConnection = _
    rw [hup]
    exact read_keeps (I := fun v => v.startedThisConnection = p.up.startedThisConnection)
      (fun v m _ hv => (received_connection t v m).1.trans hv) rfl
  change row ∈ (w.uplink.pump _ _ _).up.spool.segments.rows at hrow
  rw [hup] at hrow
  have hold : row ∈ w.uplink.spool.segments.rows := by
    have hkept := read_segments t p.up _ hrow
    rwa [hsends.spool, (sender_spool w.uplink).1] at hkept
  have hk : k + 1 = w.links.length := by simpa [World.pump] using hk
  obtain ⟨l₀, hl₀, ⟨-, rfl⟩ | ⟨hne, -⟩⟩ := getElem?_modify_cases hl
  · rw [hstarted]
    cases h k conn l₀ hk hconn hlive hl₀ row hold hcovers with
    | acked t' hack hle =>
      rw [← take_append_drop n l₀.down, mem_append] at hack
      rcases hack with hack | hack
      · refine absurd ⟨rfl, rfl, hle⟩ (read_acked ?_ hrow)
        have hlast : w.links[w.links.length - 1]? = some l₀ := by
          rw [← hl₀]
          congr 1
          omega
        rwa [hlast]
      · exact .acked t' hack hle
    | due hdue => exact .due hdue
    | unheard hnew =>
      by_cases hc : row.1.callId ∈ p.up.startedThisConnection
      · obtain ⟨f, hf, hopens⟩ := ((hsends.started _).mp hc).resolve_left hnew
        cases f with
        | callStart cs =>
          have hid : row.1.callId = cs.callId := hopens
          exact .starting cs (mem_append_right _ (hout ▸ hf)) hid.symm
        | _ => cases hopens
      · exact .unheard hc
    | starting cs hcs hid => exact .starting cs (mem_append_left _ hcs) hid
  · omega

theorem work (henv : env.Faithful) (hsound : w.Sound env) (hbooked : w.Booked env)
    (h : w.Recovering env) {j : Nat} {i : Input} {t : Time} {faults : List Fault}
    (hup : ∀ l, w.links[j]? = some l → l.up = i.frames ++ (i.taken l).up)
    (hknown : w.KnowsMarks env j i) : ((w.taken j i).input env j i t faults).Recovering env := by
  intro hon k conn l hk hconn hlive hl row hrow hcovers
  replace hk : k + 1 = w.links.length := by simpa [World.input, World.taken] using hk
  change (w.server.step env (.input j i t faults)).sink.covers env _ _ _ = true at hcovers
  rcases work_live hconn hlive hl with ⟨hkj, hconn₀, hl₀⟩ |
    ⟨rfl, conn₀, x, l₀, hconn₀, hlive₀, hl₀, hx, hxe, hs, hclose, rfl⟩
  · -- An older connection has no say about what the client holds.
    refine h hon k conn l hk hconn₀ hlive hl₀ row hrow ?_
    cases hx : w.server.reply env j i t faults with
    | none =>
      rwa [Server.step_input_none hx] at hcovers
    | some x =>
      obtain ⟨conn', hconn', hlive', rfl⟩ := Server.reply_eq_some hx
      obtain ⟨hclosed, hnew⟩ := (hknown hon conn' hconn' hlive' row hrow).2 (by omega)
      rw [Server.step_input hx, Sink.covers, respond_mark henv hclosed
        fun cs hi he => hnew (Input.mem_starts.mpr ⟨cs, hi, he⟩)] at hcovers
      exact hcovers
  replace hup := hup l₀ hl₀
  have hcall := (hknown hon conn₀ hconn₀ hlive₀ row hrow).1 hk
  have hrecords : ∀ records, i = .frame (.media records) →
      ∀ r ∈ records, FromPushed w.pushed r := by
    rintro records rfl
    refine hsound.frames l₀ (mem_of_getElem? hl₀) records ?_
    rw [hup]
    exact mem_cons_self
  rw [Server.step_input hx] at hcovers
  rw [hs]
  -- What the session knew of the sequence before, it keeps track of.
  have htracks : (w.covers env row = true →
      conn₀.session.Due row.1.callId row.1.channel row.1.seq) →
      OnItsWay w.uplink.startedThisConnection x.session
        { i.taken l₀ with down := l₀.down ++ x.out.messages } row.1 := by
    intro hdue
    have htracked : x.Tracks env (FromPushed w.pushed) row.1.callId row.1.channel row.1.seq := by
      rw [hxe]
      refine respond_tracks henv hsound.small (hsound.server.carries hconn₀ hrecords)
        ⟨hsound.server.start hconn₀ faults, ?_, fun hc => .inr (hdue hc)⟩
        fun cs hi he => hcall (Input.mem_starts.mpr ⟨cs, hi, he⟩)
      exact (hbooked.server.promises conn₀ (mem_of_getElem? hconn₀)).grow (.of_eq rfl)
    rcases htracked.tracked hcovers with ⟨t', ht', hle⟩ | hdue'
    · refine .acked t' (mem_append_right _ ?_) hle
      simp only [Outbound.messages, mem_append, mem_map]
      exact .inl (.inl (.inl (.inr ⟨_, ht', rfl⟩)))
    · exact .due hdue'
  by_cases hbefore : w.covers env row = true
  · cases h hon k conn₀ l₀ hk hconn₀ hlive₀ hl₀ row hrow hbefore with
    | acked t' hack hle => exact .acked t' (mem_append_left _ hack) hle
    | due hdue => exact htracks fun _ => hdue
    | unheard hnew => exact .unheard hnew
    | starting cs hcs hid =>
      rw [hup, mem_append] at hcs
      rcases hcs with hcs | hcs
      · cases i with
        | tick => cases hcs
        | frame f =>
          obtain rfl := mem_singleton.mp hcs
          rw [hcall (Input.mem_starts.mpr ⟨cs, rfl, hid⟩)] at hbefore
          cases hbefore
      · exact .starting cs hcs hid
  · exact htracks fun hc => absurd hc hbefore

theorem not_covers_push (henv : env.Faithful) (hsound : w.Sound env) {row : SegmentRow}
    (hrow : PushedInOrder w (.push row)) : w.covers env row = false := by
  by_contra hnot
  obtain ⟨m, hmark, hle⟩ := Sink.covers_iff.mp (Bool.eq_true_of_not_eq_false hnot)
  obtain ⟨u, hu, hmark⟩ := Option.bind_eq_some_iff.mp hmark
  have hcov := hsound.server.sink.ackedOf henv hsound.small hu hmark
  obtain ⟨r, hr, hcall, hchannel, hseq⟩ := hcov (Set.mem_Iic.mpr le_rfl)
  obtain ⟨row', hrow', rfl⟩ := hsound.journal.puts r hr
  have hlt := hrow.2 row' hrow' hcall hchannel
  have hm : row'.1.seq = m := hseq
  omega

theorem modify (h : w.Recovering env) {k : Nat} (f : Link → Link)
    (hk : ¬ (w.uplink.connected = true ∧ k + 1 = w.links.length)) :
    World.Recovering env { w with links := w.links.modify k f } := by
  intro hon j conn l hj hconn hlive hl row hrow hcovers
  replace hj : j + 1 = w.links.length := by simpa using hj
  obtain ⟨l₀, hl₀, ⟨rfl, -⟩ | ⟨-, rfl⟩⟩ := getElem?_modify_cases hl
  · exact absurd ⟨hon, hj⟩ hk
  · exact h hon j conn l hj hconn hlive hl₀ row hrow hcovers

theorem step (henv : env.Faithful) (hsound : w.Sound env) (hbooked : w.Booked env)
    (h : w.Recovering env) {ev : WorldEvent} (hpushed : PushedInOrder w ev)
    (hdelivers : Delivers w ev) (hknown : MarksKnown env w ev) :
    (w.step env ev).Recovering env := by
  have hs := w.step_stepped env ev
  generalize w.step env ev = w' at hs
  cases hs with
  | aside hs =>
    refine h.aside hs ?_
    rintro row rfl
    exact not_covers_push henv hsound hpushed
  | pump t n penv d =>
    exact World.Recovering.pump (hsound.ready t penv d).client.labelled (h.ready t penv d) t penv n
  | work hev hup =>
    refine h.work henv hsound hbooked hup ?_
    cases hev with
    | serve k f t faults hnext => exact hknown f hnext
    | tick => exact hknown
  | hangup k =>
    intro hon j conn l hj hconn hlive
    exact h hon j conn l hj (Server.live_of_hangup hconn hlive) hlive
  | loseUp | loseDown => exact h.modify _ hdelivers

theorem recovered (hlabelled : w.uplink.Labelled) (hbooked : w.Booked env) (h : w.Recovering env)
    (k : Nat) : w.Recovered env k := by
  intro hquiet row hrow
  by_contra hnot
  have hcovers : w.covers env row = true := Bool.eq_true_of_not_eq_false hnot
  obtain ⟨conn, hconn, hlive, hsettled⟩ := hquiet.settled
  have hway := h hquiet.connected k conn {} hquiet.newest hconn hlive hquiet.delivered row hrow
    hcovers
  cases hway with
  | acked t hack hle => cases hack
  | due hdue => exact hsettled.not_due _ _ _ hdue
  | starting cs hcs hid => cases hcs
  | unheard hnew =>
    -- A pass would start the call.
    obtain ⟨m, hmark, -⟩ := Sink.covers_iff.mp hcovers
    have hpending : row.1.callId ∈ w.uplink.spool.pendingCalls := Spool.mem_pendingCalls.mpr
      ⟨⟨row, hrow, rfl⟩, hbooked.server.marks _ _ m hmark, hbooked.rows row hrow⟩
    obtain ⟨p, hp, hout⟩ := hquiet.done 0
    obtain ⟨cs, hcs, -⟩ := starts_of_ok hlabelled hp (mem_passCalls.mpr (.inr hpending))
      (hbooked.rows row hrow) hnew
    rw [hout] at hcs
    cases hcs

end World.Recovering

/-- **No covered segment is left behind.** -/
theorem none_left_behind (env : SinkEnv) (henv : env.Faithful) (limits : SpoolLimits)
    (es : List WorldEvent) (h : Runs.Along (World.step env)
      (fun w ev => PushedInOrder w ev ∧ Delivers w ev ∧ MarksKnown env w ev)
      (World.init limits) es) (k : Nat) :
    (Runs.run (World.step env) (World.init limits) es).Recovered env k := by
  have hall := h.invariant (I := fun w => w.Sound env ∧ w.Booked env ∧ w.Recovering env)
    ⟨World.sound_init env limits, World.booked_init env limits,
      fun hon => absurd hon (by simp [World.init, Uplink.new])⟩
    fun w ev ⟨hsound, hbooked, hrecovering⟩ hev => ⟨hsound.step henv hev.1,
      hbooked.step henv hsound ev, hrecovering.step henv hsound hbooked hev.1 hev.2.1 hev.2.2⟩
  exact hall.2.2.recovered hall.1.client.labelled hall.2.1 k

def heardRun : List WorldEvent :=
  oneSegment ++ [pumpAs alice 0, .serve 0 0 [], .serve 0 0 [.none, .unreported],
    .tick 0 (3 * 10 ^ 9) [], pumpAs alice 1]

theorem heardRun_leaves_none_behind :
    Runs.Along (World.step anyEnv)
        (fun w ev => PushedInOrder w ev ∧ Delivers w ev ∧ MarksKnown anyEnv w ev)
        (World.init {}) heardRun ∧
      (Runs.run (World.step anyEnv) (World.init {}) heardRun).Quiet 0 ∧
      (Runs.run (World.step anyEnv) (World.init {}) heardRun).covers anyEnv (rowOf "call-1" 0) =
        true ∧
      (Runs.run (World.step anyEnv) (World.init {}) heardRun).Recovered anyEnv 0 :=
  ⟨by decide +kernel,
    ⟨by decide +kernel, by decide +kernel, fun now => ⟨_, rfl, rfl⟩, rfl,
      ⟨_, rfl, rfl, by decide +kernel⟩⟩,
    by decide +kernel, none_left_behind anyEnv anyEnv_faithful {} heardRun (by decide +kernel) 0⟩

def lostAckRun : List WorldEvent :=
  oneSegment ++ [pumpAs alice 0, .serve 0 0 [], .serve 0 0 [],
    .pump 1 { recvFails := true } 0 ⟨alice, {}, 0, 0⟩, pumpAs alice 2, .serve 1 0 [], .serve 1 0 [],
    pumpAs alice 3, .tick 1 (3 * 10 ^ 9) [], pumpAs alice 4]

/-- One lost acknowledgement: both sides come to rest on the next connection, and the segment is
stored, covered by the durable mark and still in the spool. -/
theorem lostAckRun_leaves_one_behind :
    Runs.Along (World.step anyEnv) (fun w ev => PushedInOrder w ev ∧ Delivers w ev)
        (World.init {}) lostAckRun ∧
      ¬ (Runs.run (World.step anyEnv) (World.init {}) lostAckRun).Recovered anyEnv 1 := by
  refine ⟨by decide +kernel, fun h => ?_⟩
  have hcovers : (Runs.run (World.step anyEnv) (World.init {}) lostAckRun).covers anyEnv
      (rowOf "call-1" 0) = true := by decide +kernel
  rw [h ⟨by decide +kernel, by decide +kernel, fun now => ⟨_, rfl, rfl⟩, rfl,
    ⟨_, rfl, rfl, by decide +kernel⟩⟩ (rowOf "call-1" 0) (by decide +kernel)] at hcovers
  cases hcovers

end Sentinel
