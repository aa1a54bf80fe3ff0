import Sentinel.Link.AckSafety
import Sentinel.Link.Transient

/-!
# A shift change with audio left to send

If one user signs out while segments are left, and another signs in on the machine, the next send
pass replays the first user's `call.start` on a connection of the second.
-/

open List

namespace Sentinel

open World

namespace World

def replays (env : SinkEnv) (w : World) : WorldEvent → List (Peer × CallStart)
  | .pump t penv _ d =>
    if w.uplink.connected || w.uplink.dials t penv then
      let w' := w.ready env t penv d
      match w'.server.conns[w'.links.length - 1]? with
      | some conn =>
        let u := w.uplink.sender
        let calls := u.passCalls.filter fun c =>
          c ∉ u.startedThisConnection ∧ u.spool.isSealed c = false
        (calls.filterMap u.spool.callStartJson).map fun cs => (conn.session.peer, cs)
      | none => []
    else []
  | _ => []

def Named (w : World) : Prop :=
  ∀ (k : Nat) (conn : Conn) (l : Link), w.server.conns[k]? = some conn → w.links[k]? = some l →
    ∀ cs, .callStart cs ∈ l.up → cs.By conn.session.peer

end World

def OwnSpool (env : SinkEnv) (w : World) (ev : WorldEvent) : Prop :=
  ∀ p ∈ w.replays env ev, p.2.By p.1

instance (env : SinkEnv) (w : World) (ev : WorldEvent) : Decidable (OwnSpool env w ev) :=
  inferInstanceAs (Decidable (∀ p ∈ w.replays env ev, _))

def WorldEvent.isPush : WorldEvent → Bool
  | .push _ => true
  | _ => false

def KeepsUnstored (env : SinkEnv) (w : World) (ev : WorldEvent) : Prop :=
  ev.isPush = false → ∀ r ∈ w.uplink.spool.segments.rows,
    r ∉ (w.step env ev).uplink.spool.segments.rows → toRecord r ∈ w.server.sink.puts

instance (env : SinkEnv) (w : World) (ev : WorldEvent) : Decidable (KeepsUnstored env w ev) :=
  inferInstanceAs (Decidable (_ → _))

namespace World.Named

variable {env : SinkEnv} {w : World}

theorem of_subset (h : w.Named) {k : Nat} {f : Link → Link} (hup : ∀ l, (f l).up ⊆ l.up) :
    Named { w with links := w.links.modify k f } := by
  intro j conn l hconn hl cs hcs
  obtain ⟨l₀, hl₀, ⟨-, rfl⟩ | ⟨-, rfl⟩⟩ := getElem?_modify_cases hl
  · exact h j conn l₀ hconn hl₀ cs (hup l₀ hcs)
  · exact h j conn l hconn hl₀ cs hcs

theorem respond_peer (s : Session) (sink : Sink) (i : Input) (t : Time) :
    (respond env s sink i t).session.peer = s.peer :=
  respond_keeps (I := fun x => x.session.peer = s.peer) i (fun _ _ hm hp => hm.peer_cfg.1.trans hp)
    rfl

theorem input (h : w.Named) (k : Nat) (i : Input) (t : Time) (faults : List Fault) :
    (w.input env k i t faults).Named := by
  intro j conn l hconn hl cs hcs
  have hold : ∃ l₀, w.links[j]? = some l₀ ∧ l.up = l₀.up := by
    obtain ⟨l₀, hl₀, ⟨-, rfl⟩ | ⟨-, rfl⟩⟩ := getElem?_modify_cases hl
    · exact ⟨l₀, hl₀, rfl⟩
    · exact ⟨l, hl₀, rfl⟩
  obtain ⟨l₀, hl₀, hup⟩ := hold
  rw [hup] at hcs
  rcases Server.input_conn hconn with ⟨-, hconn⟩ | ⟨rfl, conn₀, x, hconn₀, -, -, rfl, hs, -⟩
  · exact h j conn l₀ hconn hl₀ cs hcs
  rw [hs, respond_peer]
  exact h j conn₀ l₀ hconn₀ hl₀ cs hcs

theorem honest (h : w.Named) (ev : WorldEvent) : Honest w ev := by
  intro p hp
  cases ev with
  | serve k t faults =>
    simp only [startsHandled] at hp
    split at hp
    · rename_i conn cs hconn hnext
      rw [mem_singleton] at hp
      subst hp
      obtain ⟨l, hl, hhead⟩ := Option.bind_eq_some_iff.mp hnext
      exact h k conn l hconn hl cs (mem_of_mem_head? hhead)
    · cases hp
  | _ => cases hp

theorem dial (h : w.Named) (hlen : w.links.length = w.server.conns.length) (d : Dial) :
    (w.dial env d).Named := by
  intro j conn l hconn hl cs hcs
  rcases dial_conn hlen hconn hl with ⟨hconn, hl⟩ | ⟨-, -, rfl⟩
  · exact h j conn l hconn hl cs hcs
  · cases hcs

theorem pump (h : w.Named) (hlabelled : w.uplink.Labelled)
    (hlen : w.links.length = w.server.conns.length) {t : Nat} {penv : Uplink.PumpEnv} {n : Nat}
    {d : Dial} (hown : OwnSpool env w (.pump t penv n d)) :
    ((w.ready env t penv d).pump t penv n).Named := by
  have hready : (w.ready env t penv d).Named := by
    unfold ready
    split
    · exact h.dial hlen d
    · exact h
  intro j conn l hconn hl cs hcs
  obtain ⟨l₀, hl₀, ⟨rfl, rfl⟩ | ⟨-, rfl⟩⟩ := getElem?_modify_cases hl
  · rcases mem_append.mp hcs with hcs | hcs
    · exact hready _ conn l₀ hconn hl₀ cs hcs
    unfold pumped at hcs
    rw [(ready_client env w t penv d).1] at hcs
    rcases Uplink.pump_spec hlabelled t penv _ with ⟨hsock, p, msgs, hp⟩ | ⟨-, -, t', he⟩
    · rw [hp.out] at hcs
      obtain ⟨hcall, hnew, hopen, hstart⟩ := hp.sends.frames _ hcs
      refine hown (conn.session.peer, cs) ?_
      change (w.ready env t penv d).server.conns[_]? = some conn at hconn
      have hsock : (w.uplink.connected || w.uplink.dials t penv) = true := by
        simpa using hsock
      simp only [replays, hsock, if_true, hconn]
      refine mem_map.mpr ⟨cs, mem_filterMap.mpr ⟨cs.callId, ?_, hstart⟩, rfl⟩
      exact mem_filter.mpr ⟨hcall, by simpa using ⟨hnew, hopen⟩⟩
    rw [he] at hcs
    cases hcs
  · exact hready j conn l hconn hl₀ cs hcs

theorem step (h : w.Named) (hcalm : w.Calm fun _ => ∅) {ev : WorldEvent}
    (hown : OwnSpool env w ev) : (w.step env ev).Named := by
  have hs := w.step_stepped env ev
  generalize w.step env ev = w' at hs
  cases hs with
  | aside hs =>
    rwa [Named, hs.server, hs.links]
  | pump t n penv d => exact h.pump hcalm.labelled hcalm.aligned hown
  | work => exact (h.of_subset fun l => drop_subset _ _).input _ _ _ _
  | hangup k =>
    intro j conn l hconn hl cs hcs
    obtain ⟨c, hc, ⟨-, rfl⟩ | ⟨-, rfl⟩⟩ := getElem?_modify_cases hconn
    · exact h j c l hc hl cs hcs
    · exact h j conn l hc hl cs hcs
  | loseUp k i => exact h.of_subset fun l => (eraseIdx_sublist l.up i).subset
  | loseDown k i => exact h.of_subset fun l => Subset.refl _

end World.Named

/-! ## What the uplink deletes -/

section Keeps

variable {env : SinkEnv} {w : World}

theorem NothingLost.stored {ev : WorldEvent} (h : NothingLost env w ev)
    (hstake : rowsAtStake w ev = w.uplink.spool.segments.rows)
    (hev : evictedCount ((w.step env ev).uplink.events.drop w.uplink.events.length) = 0) :
    ∀ r ∈ w.uplink.spool.segments.rows, r ∉ (w.step env ev).uplink.spool.segments.rows →
      toRecord r ∈ w.server.sink.puts := by
  obtain ⟨evicted, hacc⟩ := h.removed
  have hnone : evicted = [] := length_eq_zero_iff.mp (hacc.counted.trans hev)
  intro r hr hgone
  rcases hacc.rest r (hstake ▸ hr) hgone with hstored | hevicted
  · exact hstored
  rw [hnone] at hevicted
  cases hevicted

theorem evictedCount_pump (h : w.Calm fun _ => ∅) (t : Nat) (penv : Uplink.PumpEnv) (n : Nat)
    (d : Dial) : evictedCount ((w.step env (.pump t penv n d)).uplink.events.drop
      w.uplink.events.length) = 0 := by
  have hready : ∀ l ∈ (w.ready env t penv d).links, ∀ m ∈ l.down, Harmless m := by
    unfold ready
    split
    · exact forall_mem_append.mpr ⟨h.quiet, by simp⟩
    · exact h.quiet
  change evictedCount (((w.ready env t penv d).pumped t penv n).up.events.drop _) = 0
  unfold pumped
  rw [(ready_client env w t penv d).1]
  rcases Uplink.pump_spec h.labelled t penv _ with ⟨-, p, msgs, hp⟩ | ⟨-, -, t', he⟩
  · obtain ⟨-, new, hnew, hkind⟩ := hp.harmless fun m hm =>
      (forall_incoming hready _ n m hm).callError
    rw [hnew, drop_left, evictedCount, filter_eq_nil_iff.mpr]
    · rfl
    intro ev hev
    simp [hkind ev hev]
  rw [he, drop_length]
  rfl

theorem keeps_unstored (hsound : w.Sound env) (hcalm : w.Calm fun _ => ∅) (ev : WorldEvent) :
    KeepsUnstored env w ev := by
  have hlost := hsound.nothingLost ev
  intro hpush
  cases ev with
  | push row => cases hpush
  | pump t penv n d => exact hlost.stored rfl (evictedCount_pump hcalm t penv n d)
  | takeEvents | restart => exact hlost.stored rfl (congrArg evictedCount drop_nil)
  | serve k t faults =>
    refine hlost.stored rfl ?_
    change evictedCount ((w.serve env k t faults).uplink.events.drop _) = 0
    rw [serve_uplink, drop_length]
    rfl
  | _ => exact hlost.stored rfl (congrArg evictedCount drop_length)

end Keeps

/-- **No shift change costs audio if each user's spool is sent in their own name.** -/
theorem unstored_kept (env : SinkEnv) (henv : env.Faithful) (limits : SpoolLimits)
    (es : List WorldEvent) (h : Runs.Along (World.step env)
      (fun w ev => (Orderly ev ∧ PushedInOrder w ev) ∧ OwnSpool env w ev ∧ Patient w ev)
      (World.init limits) es) :
    Runs.Along (World.step env) (KeepsUnstored env) (World.init limits) es := by
  refine h.of_invariant (I := fun w => w.Sound env ∧ w.Calm (fun _ => ∅) ∧ w.Named)
    ⟨World.sound_init env limits, World.calm_init limits, fun k conn l hconn => ?_⟩ ?_ ?_
  · cases hconn
  · rintro w ev ⟨hsound, hcalm, hnamed⟩ ⟨⟨horderly, hpushed⟩, hown, hpatient⟩
    exact ⟨hsound.step henv hpushed, hcalm.step horderly (hnamed.honest ev) hpatient,
      hnamed.step hcalm hown⟩
  · exact fun w ev hI _ => keeps_unstored hI.1 hI.2.1 ev

def carol : Peer := ⟨"tenant-1", "carol", "device-1"⟩

def handoverRun : List WorldEvent :=
  deliveredRun ++ [.restart, .beginCall (startBy carol "call-2") 2, .push (rowOf "call-2" 0),
    pumpAs carol 2, .serve 1 0 [], .serve 1 0 [], pumpAs carol 3]

/-- The hypotheses of `unstored_kept` are met by a run in which the users change. -/
theorem handoverRun_kept :
    Runs.Along (World.step anyEnv)
        (fun w ev => (Orderly ev ∧ PushedInOrder w ev) ∧ OwnSpool anyEnv w ev ∧ Patient w ev)
        (World.init {}) handoverRun ∧
      Runs.Along (World.step anyEnv) (KeepsUnstored anyEnv) (World.init {}) handoverRun :=
  ⟨by decide, unstored_kept anyEnv anyEnv_faithful {} handoverRun (by decide)⟩

def shiftChangeRun : List WorldEvent :=
  [.beginCall (startBy alice "call-1") 0, .push (rowOf "call-1" 0), pumpAs carol 0,
    .serve 0 0 [], pumpAs carol 1]

/-- The gateway fails at nothing and the sockets lose nothing, and the first user's segment is
deleted without having been stored. -/
theorem shiftChangeRun_loses :
    Runs.Along (World.step anyEnv)
        (fun w ev => (Orderly ev ∧ PushedInOrder w ev) ∧ Patient w ev) (World.init {})
        shiftChangeRun ∧
      (Runs.run (World.step anyEnv) (World.init {}) shiftChangeRun).uplink.spool.segments.rows =
        [] ∧
      (Runs.run (World.step anyEnv) (World.init {}) shiftChangeRun).server.sink.puts = [] ∧
      ¬ Runs.Along (World.step anyEnv) (KeepsUnstored anyEnv) (World.init {}) shiftChangeRun := by
  decide

end Sentinel
