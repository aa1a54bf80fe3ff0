import Sentinel.Client.SendPass

/-!
# What one pump does

A `pump` is a send pass followed by a read loop, with a connect before it and a disconnect after it
where they apply.
-/

open List Bool

namespace Sentinel

open Spool

namespace Uplink

variable {u : Uplink} {now : Nat} {m : ServerMessage}

def received (now : Nat) (u : Uplink) (m : ServerMessage) : Uplink :=
  (u.handleControl m now {}).1

theorem received_cases (now : Nat) (u : Uplink) (m : ServerMessage) :
    (∃ c ch t, m = .ack c ch t ∧ received now u m = { u with spool := (u.spool.ack c ch t).1 }) ∨
    (∃ c acked, m = .resume c acked ∧ received now u m = { u with
      awaitingResume := u.awaitingResume.erase c
      resumePoints := u.resumePoints.put c (plan (u.spool.ackedThrough c) acked) }) ∨
    (∃ e, m = .callError e ∧ e.fatal = true ∧ received now u m = { u with
      spool := (u.spool.sealCall e.callId e.code now).1
      events := u.events ++ [(u.spool.sealCall e.callId e.code now).2]
      knownCalls := u.knownCalls.erase e.callId }) ∨
    ∃ v, received now u m = { u with policyVersion := v } := by
  have hsame : ∃ v, u = { u with policyVersion := v } := ⟨u.policyVersion, rfl⟩
  cases m with
  | ack c ch t => exact .inl ⟨c, ch, t, rfl, rfl⟩
  | resume c acked => exact .inr (.inl ⟨c, acked, rfl, rfl⟩)
  | callError e =>
    unfold received handleControl
    dsimp only
    split
    · rename_i hfatal
      exact .inr (.inr (.inl ⟨e, rfl, hfatal, rfl⟩))
    · exact .inr (.inr (.inr hsame))
  | heartbeatAck v =>
    unfold received handleControl
    dsimp only
    split
    · exact .inr (.inr (.inr ⟨v, rfl⟩))
    · exact .inr (.inr (.inr hsame))
  | close code => exact .inr (.inr (.inr hsame))

theorem received_connection (now : Nat) (u : Uplink) (m : ServerMessage) :
    (received now u m).startedThisConnection = u.startedThisConnection ∧
      (received now u m).connected = u.connected := by
  rcases received_cases now u m with ⟨_, _, _, -, he⟩ | ⟨_, _, -, he⟩ | ⟨_, -, -, he⟩ | ⟨_, he⟩
  all_goals
    rw [he]
    exact ⟨rfl, rfl⟩

theorem received_harmless (now : Nat) (u : Uplink) (hm : ∀ e, m = .callError e → e.fatal = false) :
    (received now u m).spool.calls = u.spool.calls ∧ (received now u m).events = u.events := by
  rcases received_cases now u m with ⟨_, _, _, -, he⟩ | ⟨_, _, -, he⟩ | ⟨e, rfl, hf, -⟩ | ⟨_, he⟩
  case inr.inr.inl => cases hf.symm.trans (hm e rfl)
  all_goals
    rw [he]
    exact ⟨rfl, rfl⟩

structure Forgets (u v : Uplink) : Prop where
  keys : ∀ c, c ∈ v.spool.calls.keys ↔ c ∈ u.spool.calls.keys
  ends : ∀ c, v.spool.callEndJson c = u.spool.callEndJson c
  unsealed : ∀ c, v.spool.isSealed c = false → u.spool.isSealed c = false
  known : v.knownCalls ⊆ u.knownCalls
  kept : ∀ c ∈ u.knownCalls, c ∈ u.spool.calls.keys → v.spool.isSealed c = false →
    c ∈ v.knownCalls

theorem Forgets.refl (u : Uplink) : Forgets u u :=
  ⟨fun _ => Iff.rfl, fun _ => rfl, fun _ h => h, Subset.refl _, fun _ h _ _ => h⟩

theorem Forgets.of_eq {v : Uplink} (hcalls : v.spool.calls = u.spool.calls)
    (hknown : v.knownCalls = u.knownCalls) : Forgets u v := by
  refine ⟨fun c => ?_, fun c => ?_, fun c h => ?_, hknown ▸ Subset.refl _,
    fun c h _ _ => hknown ▸ h⟩
  · rw [hcalls]
  · rw [callEndJson, hcalls, ← callEndJson]
  · rwa [isSealed, hcalls, ← isSealed] at h

theorem Forgets.trans {v v' : Uplink} (h : Forgets u v) (h' : Forgets v v') : Forgets u v' where
  keys := fun c => (h'.keys c).trans (h.keys c)
  ends := fun c => (h'.ends c).trans (h.ends c)
  unsealed := fun c hc => h.unsealed c (h'.unsealed c hc)
  known := Subset.trans h'.known h.known
  kept := fun c hc hkey hs =>
    h'.kept c (h.kept c hc hkey (h'.unsealed c hs)) ((h.keys c).mpr hkey) hs

theorem received_forgets (now : Nat) (u : Uplink) (m : ServerMessage) :
    Forgets u (received now u m) := by
  rcases received_cases now u m with ⟨_, _, _, -, he⟩ | ⟨_, _, -, he⟩ | ⟨e, -, -, he⟩ | ⟨_, he⟩ <;>
    rw [he]
  case inr.inr.inl =>
    have hframes := sealCall_frames u.spool e.callId e.code now
    have hseal := isSealed_sealCall u.spool e.callId e.code now
    refine ⟨fun c => (hframes c).2.2, fun c => (hframes c).2.1, fun c hc => ?_,
      fun c hc => mem_of_mem_erase hc, fun c hc hkey hs => ?_⟩
    · exact (or_eq_false_iff.mp ((hseal c).symm.trans hc)).1
    have hne : c ≠ e.callId := by
      rintro rfl
      have hlast := (or_eq_false_iff.mp ((hseal e.callId).symm.trans hs)).2
      rw [Table.isSome_get?.mpr hkey] at hlast
      simp at hlast
    exact (mem_erase_of_ne hne).mpr hc
  all_goals exact .of_eq rfl rfl

variable {msgs incoming : List ServerMessage} {delay : Nat} {r : Pumped}

theorem read_keeps {I : Uplink → Prop} (hI : ∀ u m, m ∈ msgs → I u → I (received now u m))
    (hu : I u) : I (msgs.foldl (received now) u) := by
  induction msgs generalizing u with
  | nil => exact hu
  | cons m msgs ih =>
    exact ih (fun u m hm => hI u m (mem_cons_of_mem _ hm)) (hI u m mem_cons_self hu)

theorem received_rows (now : Nat) (u : Uplink) (m : ServerMessage) :
    (received now u m).spool.segments.rows.Sublist u.spool.segments.rows := by
  rcases received_cases now u m with ⟨_, _, _, -, he⟩ | ⟨_, _, -, he⟩ | ⟨_, -, -, he⟩ | ⟨_, he⟩ <;>
    rw [he]
  · exact filter_sublist
  · exact filter_sublist

theorem received_segments (now : Nat) (u : Uplink) (m : ServerMessage) :
    (received now u m).spool.segments.rows ⊆ u.spool.segments.rows :=
  (received_rows now u m).subset

theorem read_segments (now : Nat) (u : Uplink) (msgs : List ServerMessage) :
    (msgs.foldl (received now) u).spool.segments.rows ⊆ u.spool.segments.rows :=
  read_keeps (I := fun v => v.spool.segments.rows ⊆ u.spool.segments.rows)
    (fun v m _ hv => Subset.trans (received_segments now v m) hv) (Subset.refl _)

theorem read_acked {c : CallId} {ch : Channel} {t : Nat} (h : .ack c ch t ∈ msgs) {row : SegmentRow}
    (hrow : row ∈ (msgs.foldl (received now) u).spool.segments.rows) :
    ¬ (row.1.callId = c ∧ row.1.channel = ch ∧ row.1.seq ≤ t) := by
  induction msgs generalizing u with
  | nil => cases h
  | cons m msgs ih =>
    rcases mem_cons.mp h with rfl | h
    · have hkept := read_segments now _ msgs hrow
      rintro ⟨hc, hch, hle⟩
      refine (mem_ack.mp hkept).2 ⟨hc, hch, hle.trans ?_⟩
      unfold effectiveAck
      split
      · exact le_max_right _ _
      · exact le_refl t
    · exact ih h hrow

def RowsOpen (u : Uplink) : Prop :=
  ∀ row ∈ u.spool.segments.rows, u.spool.isSealed row.1.callId = false

theorem RowsOpen.received (h : RowsOpen u) (now : Nat) (m : ServerMessage) :
    RowsOpen (received now u m) := by
  intro row hrow
  have hold := h row (received_segments now u m hrow)
  rcases received_cases now u m with ⟨_, _, _, -, he⟩ | ⟨_, _, -, he⟩ | ⟨e, -, -, he⟩ | ⟨_, he⟩ <;>
    rw [he] at hrow ⊢
  case inr.inr.inl =>
    have hne : row.1.callId ≠ e.callId := ((mem_sealCall e.callId e.code now).mp hrow).2
    refine (isSealed_sealCall u.spool e.callId e.code now row.1.callId).trans ?_
    simp [hold, hne]
  all_goals exact hold

theorem handleControl_fst (o : PumpOutcome) : (u.handleControl m now o).1 = received now u m := by
  cases m with
  | callError | heartbeatAck =>
    unfold received handleControl
    dsimp only
    split <;> rfl
  | _ => rfl

def readable (incoming : List ServerMessage) : List ServerMessage :=
  incoming.takeWhile fun
    | .close _ => false
    | _ => true

theorem readIncoming_fst (now : Nat) (incoming : List ServerMessage) (u : Uplink)
    (o : PumpOutcome) :
    (readIncoming now incoming u o).1 = (readable incoming).foldl (received now) u := by
  induction incoming generalizing u o with
  | nil => rfl
  | cons m rest ih =>
    have hmore : (readIncoming now rest (received now u m) (u.handleControl m now o).2).1 =
        (m :: readable rest).foldl (received now) u :=
      ih (received now u m) (u.handleControl m now o).2
    cases m with
    | close code => rfl
    | _ =>
      rwa [← handleControl_fst o] at hmore

theorem readable_of_open {o : PumpOutcome} (h : (readIncoming now incoming u o).2.2 = true) :
    readable incoming = incoming := by
  induction incoming generalizing u o with
  | nil => rfl
  | cons m rest ih =>
    cases m with
    | close code => cases h
    | _ => exact congrArg _ (ih h)

/-! ## The uplink stays labelled -/

section Labelled

variable {u' : Uplink}

theorem Labelled.congr (h : Labelled u) (hcalls : u'.spool.calls = u.spool.calls)
    (hknown : ∀ c ∈ u'.knownCalls, c ∈ u.spool.calls.keys) : Labelled u' where
  start := by
    simp only [callStartJson, hcalls]
    exact h.start
  stop := by
    simp only [callEndJson, hcalls]
    exact h.stop
  known := hcalls ▸ hknown

theorem labelled_new (h : Labelled u) : Labelled (new u.spool) :=
  h.congr rfl fun c hc => by
    rcases mem_foldl_insertCall.mp hc with hc | hc
    · cases hc
    · exact (mem_pendingCalls.mp hc).2.1

theorem Labelled.sends {p : SendPass} (h : Labelled u) (hp : Sends u p) : Labelled p.up :=
  h.congr (by rw [hp.spool]) fun _ hc => h.mem_keys (hp.known hc)

theorem Labelled.beginCall (h : Labelled u) (cs : CallStart) (t : Nat) :
    Labelled (u.beginCall cs.callId cs t) where
  start := by
    intro c cs' hc
    rcases (beginCall_frames u.spool cs.callId cs t c).1 with he | ⟨rfl, he⟩
    · exact h.start c cs' (he ▸ hc)
    cases he.symm.trans hc
    rfl
  stop := by
    intro c ce hc
    have he := (beginCall_frames u.spool cs.callId cs t c).2.1
    exact h.stop c ce (he ▸ hc)
  known := by
    intro c hc
    refine (beginCall_frames u.spool cs.callId cs t c).2.2.mpr ?_
    exact (mem_insertCall.mp hc).imp_right (h.known c)

theorem Labelled.endCall (h : Labelled u) (ce : CallEnd) : Labelled (u.endCall ce.callId ce) where
  start := by
    intro c cs hc
    have he := (endCall_frames u.spool ce.callId ce c).1
    exact h.start c cs (he ▸ hc)
  stop := by
    intro c ce' hc
    rcases (endCall_frames u.spool ce.callId ce c).2.1 with he | ⟨rfl, he⟩
    · exact h.stop c ce' (he ▸ hc)
    cases he.symm.trans hc
    rfl
  known := fun c hc => (endCall_frames u.spool ce.callId ce c).2.2.mpr (h.known c hc)

theorem Labelled.received (h : Labelled u) (now : Nat) (m : ServerMessage) :
    Labelled (received now u m) := by
  rcases received_cases now u m with ⟨_, _, _, -, he⟩ | ⟨_, _, -, he⟩ | ⟨e, -, -, he⟩ | ⟨_, he⟩ <;>
    rw [he]
  case inr.inr.inl =>
    have hframes := sealCall_frames u.spool e.callId e.code now
    refine ⟨fun c cs hc => ?_, fun c ce hc => ?_, fun c hc => ?_⟩
    · exact h.start c cs ((hframes c).1 ▸ hc)
    · exact h.stop c ce ((hframes c).2.1 ▸ hc)
    · exact (hframes c).2.2.mpr (h.known c (mem_of_mem_erase hc))
  all_goals exact ⟨h.start, h.stop, h.known⟩

end Labelled

/-! ## The whole pump -/

def dials (u : Uplink) (now : Nat) (env : PumpEnv) : Bool :=
  !u.connected && u.nextAttemptMs ≤ now && env.connects

def sender (u : Uplink) : Uplink := if u.connected then u else u.onConnected

structure Pumps (u : Uplink) (now delay : Nat) (incoming : List ServerMessage) (r : Pumped)
    (p : SendPass) (msgs : List ServerMessage) : Prop where
  sends : Sends u.sender p
  read : msgs <+: incoming
  out : r.out = p.out
  skipped : r.skipped = p.skipped
  up : r.up = msgs.foldl (received now) p.up ∨
    r.up = (msgs.foldl (received now) p.up).dropConnection now delay

theorem Labelled.sender (h : Labelled u) : Labelled u.sender := by
  unfold Uplink.sender
  split
  · exact h
  · exact ⟨h.start, h.stop, h.known⟩

theorem pump_cases (u : Uplink) (now : Nat) (env : PumpEnv) (incoming : List ServerMessage) :
    (u.connected = true ∨ u.dials now env = true) ∧
        ((∃ p, u.sender.sendPending now env.budget = .error p ∧ u.pump now env incoming =
              ⟨p.up.dropConnection now env.delayMs, { sent := p.sent }, p.out, p.skipped⟩) ∨
          ∃ p, u.sender.sendPending now env.budget = .ok p ∧ (u.pump now env incoming).out = p.out ∧
            (u.pump now env incoming).skipped = p.skipped ∧
            (readable incoming = incoming ∧
                (u.pump now env incoming).up = (readable incoming).foldl (received now) p.up ∨
              (u.pump now env incoming).up =
                ((readable incoming).foldl (received now) p.up).dropConnection now env.delayMs)) ∨
      u.connected = false ∧ u.dials now env = false ∧
        ∃ t, u.pump now env incoming = { up := { u with nextAttemptMs := t } } := by
  unfold pump
  split
  · rename_i hwait
    right
    simp only [and_eq_true, not_eq_true', decide_eq_true_eq] at hwait
    exact ⟨hwait.1, by simp [dials, hwait.2], u.nextAttemptMs, rfl⟩
  split
  · rename_i hfail
    right
    simp only [and_eq_true, not_eq_true'] at hfail
    exact ⟨hfail.1, by simp [dials, hfail.2], _, rfl⟩
  left
  refine ⟨?_, ?_⟩
  · cases hc : u.connected with
    | true => exact Or.inl rfl
    | false => exact Or.inr (by simp_all [dials])
  dsimp only
  rw [show (if u.connected then u else u.onConnected) = u.sender from rfl]
  cases hp : u.sender.sendPending now env.budget with
  | error p => exact Or.inl ⟨p, rfl, rfl⟩
  | ok p =>
    have hread := readIncoming_fst now incoming p.up { connected := true, sent := p.sent }
    refine Or.inr ⟨p, rfl, ?_⟩
    dsimp only
    split
    · rename_i hopen
      have hall := readable_of_open (and_eq_true_iff.mp hopen).1
      exact ⟨rfl, rfl, Or.inl ⟨hall, hread⟩⟩
    · exact ⟨rfl, rfl, Or.inr (by rw [← hread])⟩

theorem pump_connected {env : PumpEnv} (h : (u.pump now env incoming).up.connected = true) :
    ∃ p, u.sender.sendPending now env.budget = .ok p ∧ (u.pump now env incoming).out = p.out ∧
      (u.pump now env incoming).up = incoming.foldl (received now) p.up := by
  rcases pump_cases u now env incoming with
    ⟨-, ⟨p, -, he⟩ | ⟨p, hp, hout, -, ⟨hall, he⟩ | he⟩⟩ | ⟨hoff, -, t, he⟩
  · rw [he] at h
    cases h
  · rw [hall] at he
    exact ⟨p, hp, hout, he⟩
  · rw [he] at h
    cases h
  rw [he] at h
  cases hoff.symm.trans h

theorem pump_spec (hu : Labelled u) (now : Nat) (env : PumpEnv) (incoming : List ServerMessage) :
    (u.connected = true ∨ u.dials now env = true) ∧
        (∃ p msgs, Pumps u now env.delayMs incoming (u.pump now env incoming) p msgs) ∨
      u.connected = false ∧ u.dials now env = false ∧
        ∃ t, u.pump now env incoming = { up := { u with nextAttemptMs := t } } := by
  have hsends := sendPending_spec hu.sender now env.budget
  refine (pump_cases u now env incoming).imp_left fun ⟨hconn, hcases⟩ => ⟨hconn, ?_⟩
  rcases hcases with ⟨p, hp, hr⟩ | ⟨p, hp, hout, hskip, hup⟩
  · rw [hp] at hsends
    rw [hr]
    exact ⟨p, [], hsends, nil_prefix, rfl, rfl, Or.inr rfl⟩
  rw [hp] at hsends
  exact ⟨p, readable incoming, hsends, takeWhile_prefix _, hout, hskip, hup.imp_left fun he => he.2⟩

theorem Pumps.labelled {p : SendPass} (hu : Labelled u) (h : Pumps u now delay incoming r p msgs) :
    Labelled r.up := by
  have hread : Labelled (msgs.foldl (received now) p.up) :=
    read_keeps (fun _ m _ h => h.received now m) (hu.sender.sends h.sends)
  rcases h.up with he | he
  · exact he ▸ hread
  · exact he ▸ ⟨hread.start, hread.stop, hread.known⟩

theorem Pumps.started {p : SendPass} (h : Pumps u now delay incoming r p msgs) :
    r.up.startedThisConnection = p.up.startedThisConnection := by
  have hread : (msgs.foldl (received now) p.up).startedThisConnection =
      p.up.startedThisConnection :=
    read_keeps (I := fun v => v.startedThisConnection = p.up.startedThisConnection)
      (fun v m _ hv => (received_connection now v m).1.trans hv) rfl
  rcases h.up with he | he <;> rw [he]
  · exact hread
  · exact hread

theorem Pumps.harmless {p : SendPass} (h : Pumps u now delay incoming r p msgs)
    (hin : ∀ m ∈ incoming, ∀ e, m = .callError e → e.fatal = false) :
    r.up.spool.calls = u.spool.calls ∧
      ∃ new, r.up.events = u.events ++ new ∧ ∀ ev ∈ new, ev.kind = .captureError := by
  have hsender : u.sender.spool = u.spool ∧ u.sender.events = u.events := by
    unfold sender
    split <;> exact ⟨rfl, rfl⟩
  have hread : (msgs.foldl (received now) p.up).spool.calls = u.spool.calls ∧
      (msgs.foldl (received now) p.up).events = u.events := by
    refine read_keeps (I := fun v => v.spool.calls = u.spool.calls ∧ v.events = u.events)
      (fun v m hm hv => ?_) ?_
    · have hkeep := received_harmless now v (hin m (h.read.subset hm))
      exact ⟨hkeep.1.trans hv.1, hkeep.2.trans hv.2⟩
    rw [h.sends.spool, h.sends.events, hsender.1, hsender.2]
    exact ⟨rfl, rfl⟩
  rcases h.up with he | he <;> rw [he]
  · exact ⟨hread.1, [], by rw [hread.2, append_nil], by simp⟩
  refine ⟨hread.1, [reconnectEvent now], ?_, fun ev hev => ?_⟩
  · rw [← hread.2]
    rfl
  rw [mem_singleton.mp hev]
  rfl

/-! ## Events are added and rows removed -/

section Events

open Faults (Upholds)

variable {p : SendPass}

def Leaves (u : Uplink) (p : SendPass) : Prop :=
  p.up.events = u.events ∧ p.up.spool = u.spool

theorem sendPending_leaves (u : Uplink) (now : Nat) (budget : Option Nat) :
    Upholds (Leaves u) (Leaves u) (u.sender.sendPending now budget) := by
  have hkeeps : Keeps u.sender (Leaves u) := by
    refine ⟨?_, ?_, ?_, ?_, ?_, ?_, ?_⟩
    · exact fun _ _ h _ _ => h
    · exact fun _ _ _ h => h
    · exact fun _ _ _ _ _ h _ _ _ _ _ => h
    · exact fun _ _ _ _ h _ _ _ => h
    · exact fun _ _ _ _ h _ _ _ => h
    · exact fun _ _ h => h
    · exact fun _ _ h _ => h
  refine Upholds.imp (sendPending_keeps hkeeps now budget ?_) (fun _ h => h.1) fun _ h => h
  unfold Leaves sender
  split <;> exact ⟨rfl, rfl⟩

theorem received_events (now : Nat) (u : Uplink) (m : ServerMessage) :
    u.events <+: (received now u m).events := by
  rcases received_cases now u m with ⟨_, _, _, -, he⟩ | ⟨_, _, -, he⟩ | ⟨_, -, -, he⟩ | ⟨_, he⟩ <;>
    rw [he]
  exact prefix_append _ _

theorem pump_keeps {I : Uplink → Prop} (u : Uplink) (now : Nat) (env : PumpEnv)
    (incoming : List ServerMessage) (hleaves : ∀ p, Leaves u p → I p.up)
    (hreceived : ∀ v m, I v → I (received now v m))
    (hdrop : ∀ v, I v → I (v.dropConnection now env.delayMs))
    (hwait : ∀ t, I { u with nextAttemptMs := t }) : I (u.pump now env incoming).up := by
  have hpass := sendPending_leaves u now env.budget
  rcases pump_cases u now env incoming with
    ⟨-, ⟨p, hp, hr⟩ | ⟨p, hp, -, -, hup⟩⟩ | ⟨-, -, t, hr⟩
  · rw [hp] at hpass
    rw [hr]
    exact hdrop p.up (hleaves p hpass)
  · rw [hp] at hpass
    have hread : I ((readable incoming).foldl (received now) p.up) :=
      read_keeps (fun v m _ hv => hreceived v m hv) (hleaves p hpass)
    rcases hup with ⟨-, he⟩ | he
    · rwa [he]
    rw [he]
    exact hdrop _ hread
  rw [hr]
  exact hwait t

theorem pump_events (u : Uplink) (now : Nat) (env : PumpEnv) (incoming : List ServerMessage) :
    u.events <+: (u.pump now env incoming).up.events :=
  pump_keeps (I := fun v => u.events <+: v.events) u now env incoming
    (fun _ hp => hp.1 ▸ prefix_refl _)
    (fun v m hv => hv.trans (received_events now v m))
    (fun _ hv => hv.trans (prefix_append _ _)) fun _ => prefix_refl _

theorem pump_rows (u : Uplink) (now : Nat) (env : PumpEnv) (incoming : List ServerMessage) :
    (u.pump now env incoming).up.spool.segments.rows.Sublist u.spool.segments.rows :=
  pump_keeps (I := fun v => v.spool.segments.rows.Sublist u.spool.segments.rows) u now env incoming
    (fun _ hp => hp.2 ▸ Sublist.refl _)
    (fun v m hv => (received_rows now v m).trans hv) (fun _ hv => hv) fun _ => Sublist.refl _

end Events

end Uplink

end Sentinel
