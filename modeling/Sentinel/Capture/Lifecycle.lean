import Sentinel.Lib.Runs
import Sentinel.Capture.Detector

/-!
# Calls as the detector tells them

`lifecycle` says that what the detector emits is a sound account: starts and ends alternate, a call
is under way exactly between the two, and a blocked detector says only that it is blocked or no
longer is.
-/

open List

namespace Sentinel.Capture

open Runs

abbrev Observation := Nat × DetectorInput

def DetectorInput.voiced : DetectorInput → Bool
  | .farVoice voiced | .nearVoice voiced => voiced
  | _ => false

namespace Detector

def next (d : Detector) (o : Observation) : Detector := (d.feed o.1 o.2).1

def emits (d : Detector) (o : Observation) : Transition := (d.feed o.1 o.2).2

def emitted : Detector → List Observation → List Transition
  | _, [] => []
  | d, o :: os => d.emits o :: (d.next o).emitted os

end Detector

/-! ## Starts and ends -/

inductive Mark where
  | started
  | ended
  deriving DecidableEq, Repr

def Mark.other : Mark → Mark
  | .started => .ended
  | .ended => .started

def Transition.mark : Transition → Option Mark
  | .callStarted => some .started
  | .callEnded _ => some .ended
  | _ => Option.none

def AlternateFrom : Mark → List Mark → Prop
  | _, [] => True
  | m, m' :: ms => m' = m ∧ AlternateFrom m.other ms

def CallState.expects (s : CallState) : Mark := if s.busy then .ended else .started

theorem Edge.mark {d : Detector} {s : CallState} {t : Transition} (h : Edge d s t) :
    (t.mark = none ∧ s.busy = d.state.busy) ∨
      (t.mark = some d.state.expects ∧ s.busy = !d.state.busy) := by
  cases h with
  | beat h =>
    cases h with
    | stay => exact .inl ⟨rfl, rfl⟩
    | confirm h | close h =>
      rw [CallState.expects, h]
      exact .inr ⟨rfl, rfl⟩
    | arm h | rearm h | discard h | hangup h | resume h | settle h =>
      rw [h]
      exact .inl ⟨rfl, rfl⟩
  | block h r => exact .inl ⟨rfl, h.symm⟩
  | cut h | handover h =>
    rw [CallState.expects, h]
    exact .inr ⟨rfl, rfl⟩
  | unblock h =>
    rw [h]
    exact .inl ⟨rfl, rfl⟩

namespace Detector

theorem next_mark (d : Detector) (o : Observation) :
    ((d.emits o).mark = none ∧ (d.next o).state.busy = d.state.busy) ∨
      ((d.emits o).mark = some d.state.expects ∧ (d.next o).state.busy = !d.state.busy) := by
  have h := (d.feed_edge o.1 o.2).mark
  rwa [(d.noted_keeps o.1 o.2).1] at h

variable {o : Observation} {d : Detector} {pre mid os : List Observation} {s : CallState}

theorem expects_next_of_busy_ne (h : (d.next o).state.busy = !d.state.busy) :
    (d.next o).state.expects = d.state.expects.other := by
  rw [CallState.expects, CallState.expects, h]
  cases d.state.busy <;> rfl

def marks (d : Detector) (os : List Observation) : List Mark :=
  (d.emitted os).filterMap Transition.mark

theorem marks_cons_none (h : (d.emits o).mark = none) (os : List Observation) :
    d.marks (o :: os) = (d.next o).marks os := by
  rw [marks, emitted, filterMap_cons_none h, marks]

theorem marks_cons_some {m : Mark} (h : (d.emits o).mark = some m) (os : List Observation) :
    d.marks (o :: os) = m :: (d.next o).marks os := by
  rw [marks, emitted, filterMap_cons_some h, marks]

theorem marks_alternate (d : Detector) (os : List Observation) :
    AlternateFrom d.state.expects (d.marks os) := by
  induction os generalizing d with
  | nil => trivial
  | cons o os ih =>
    have ih := ih (d.next o)
    rcases d.next_mark o with ⟨hm, hb⟩ | ⟨hm, hb⟩
    · rwa [marks_cons_none hm, CallState.expects, ← hb]
    rw [marks_cons_some hm]
    exact ⟨rfl, expects_next_of_busy_ne hb ▸ ih⟩

theorem count_marks (d : Detector) (os : List Observation) :
    (d.marks os).count .started + d.state.busy.toNat =
      (d.marks os).count .ended + (run next d os).state.busy.toNat := by
  induction os generalizing d with
  | nil => rfl
  | cons o os ih =>
    have ih := ih (d.next o)
    rw [run_cons]
    rcases d.next_mark o with ⟨hm, hb⟩ | ⟨hm, hb⟩
    · rwa [marks_cons_none hm, ← hb]
    rw [marks_cons_some hm, CallState.expects]
    rw [hb] at ih
    cases hbusy : d.state.busy with
    | false =>
      rw [hbusy] at ih
      simpa [Nat.add_comm, Nat.add_left_comm] using ih
    | true =>
      rw [hbusy] at ih
      have ih : (marks (d.next o) os).count .started =
        (marks (d.next o) os).count .ended + (run next (d.next o) os).state.busy.toNat := ih
      simp only [if_true, count_cons_self]
      rw [count_cons_of_ne (by decide), ih]
      simp only [Bool.toNat_true]
      omega

/-! ## Blocked -/

def HoldsBlock (d : Detector) (o : Observation) : Prop :=
  d.state = .blocked → (d.emits o = .none ∨ (∃ r, d.emits o = .blocked r) ∨
    d.emits o = .unblocked) ∧ ((d.next o).state ≠ .blocked → o.2 = .unblock)

theorem holdsBlock (d : Detector) (o : Observation) : d.HoldsBlock o := by
  obtain ⟨now, input⟩ := o
  intro h
  cases hi : Evaluated input with
  | true =>
    have hfeed : d.feed now input = (d.noted now input, .none) := by
      rw [feed_of_evaluated hi, evaluate, (d.noted_keeps now input).1, h]
    refine ⟨.inl (by rw [emits, hfeed]), fun hne => absurd ?_ hne⟩
    rw [next, hfeed]
    exact (d.noted_keeps now input).1.trans h
  | false =>
    cases input with
    | block r =>
      refine ⟨.inr (.inl ⟨r, ?_⟩), fun hne => absurd rfl hne⟩
      simp [emits, feed, enterBlocked, h]
    | unblock =>
      refine ⟨.inr (.inr ?_), fun _ => rfl⟩
      simp [emits, feed, h, goto]
    | userChanged uid =>
      refine ⟨.inl (by simp [emits, feed, h]), fun hne => absurd ?_ hne⟩
      simp [next, feed, h]
    | _ => cases hi

/-- **The life of a call.** -/
theorem lifecycle (cfg : VadConfig) (os : List Observation) :
    AlternateFrom .started ((new cfg).marks os) ∧
      ((run next (new cfg) os).state.busy = true ↔
        ((new cfg).marks os).count .ended < ((new cfg).marks os).count .started) ∧
      Along next HoldsBlock (new cfg) os := by
  refine ⟨marks_alternate (new cfg) os, ?_, ?_⟩
  · have hcount := count_marks (new cfg) os
    rw [show (new cfg).state.busy.toNat = 0 from rfl, Nat.add_zero] at hcount
    rw [hcount]
    cases (run next (new cfg) os).state.busy <;> simp
  · exact along_of_forall holdsBlock

/-! ## Since when -/

structure Since (d : Detector) (s : CallState) (pre : List Observation) (o : Observation)
    (mid : List Observation) : Prop where
  before : (run next d pre).state ≠ s
  stays : ∀ m, m <+: mid → (run next d (pre ++ o :: m)).state = s

theorem Since.now (h : Since d s pre o mid) : (run next d (pre ++ o :: mid)).state = s :=
  h.stays mid (prefix_refl mid)

theorem Since.earlier {m : List Observation} (h : Since d s pre o mid) (hm : m <+: mid) :
    Since d s pre o m :=
  ⟨h.before, fun m' hm' => h.stays m' (hm'.trans hm)⟩

theorem exists_since (h0 : d.state ≠ s) (os : List Observation) (h : (run next d os).state = s) :
    ∃ pre o mid, os = pre ++ o :: mid ∧ Since d s pre o mid := by
  induction os using reverseRecOn with
  | nil => exact absurd h h0
  | append_singleton os o ih =>
    by_cases hs : (run next d os).state = s
    · obtain ⟨pre, a, mid, rfl, hsince⟩ := ih hs
      refine ⟨pre, a, mid ++ [o], by simp, hsince.before, fun m hm => ?_⟩
      rcases prefix_concat_iff.mp hm with rfl | hm
      · rwa [← cons_append, ← append_assoc]
      · exact hsince.stays m hm
    refine ⟨os, o, [], rfl, hs, fun m hm => ?_⟩
    rwa [prefix_nil.mp hm]

theorem next_of_not_evaluated (d : Detector) (h : Evaluated o.2 = false) :
    (d.next o).state = .blocked ∨ (d.next o).state = .idle ∨
      ∃ uid, d.next o = { d with nowMs := o.1, userUid := uid } := by
  obtain ⟨now, input⟩ := o
  cases input with
  | block r => exact .inl rfl
  | unblock =>
    simp only [next, feed]
    split
    · exact .inr (.inl rfl)
    · exact .inr (.inr ⟨d.userUid, rfl⟩)
  | userChanged uid =>
    simp only [next, feed]
    split
    · exact .inr (.inl rfl)
    · exact .inr (.inr ⟨some uid, rfl⟩)
  | _ => cases h

/-! ## Speech -/

def credit (prev : Nat) (o : Observation) : Nat :=
  if o.2 = .farVoice true then o.1 - prev else 0

def credited : Nat → List Observation → Nat
  | _, [] => 0
  | prev, o :: os => credit prev o + credited o.1 os

theorem credited_concat (prev : Nat) (os : List Observation) (o : Observation) :
    credited prev (os ++ [o]) = credited prev os + credit (os.getLast?.elim prev Prod.fst) o := by
  induction os generalizing prev with
  | nil => simp [credited]
  | cons a os ih =>
    have hlast : (a :: os).getLast?.elim prev Prod.fst = os.getLast?.elim a.1 Prod.fst := by
      rw [getLast?_cons]
      cases os.getLast? <;> rfl
    rw [cons_append, credited, credited, ih, Nat.add_assoc, hlast]

theorem run_nowMs (d : Detector) (os : List Observation) :
    (run next d os).nowMs = os.getLast?.elim d.nowMs Prod.fst := by
  induction os using reverseRecOn with
  | nil => rfl
  | append_singleton os o ih => simp [run_concat, next]

theorem Since.nowMs (_ : Since d s pre o mid) :
    (run next d (pre ++ o :: mid)).nowMs = mid.getLast?.elim o.1 Prod.fst := by
  rw [run_nowMs, getLast?_append, getLast?_cons]
  cases mid.getLast? <;> rfl

theorem noted_armedSpeechMs (d : Detector) (o : Observation) :
    (d.noted o.1 o.2).armedSpeechMs = d.armedSpeechMs + credit d.nowMs o := by
  obtain ⟨now, input⟩ := o
  cases input with
  | farVoice voiced => cases voiced <;> simp [noted, observe, credit]
  | _ => simp [noted, observe, credit]

theorem next_armed (h : (d.next o).state = .armed) : (d.next o).armedSpeechMs =
    if d.state = .armed then d.armedSpeechMs + credit d.nowMs o else 0 := by
  rw [← noted_armedSpeechMs]
  obtain ⟨now, input⟩ := o
  cases hi : Evaluated input with
  | true =>
    have hstate := (d.noted_keeps now input).1
    rw [next, feed_of_evaluated hi] at h ⊢
    unfold evaluate goto at h ⊢
    cases hs : d.state <;> rw [hstate, hs] at h ⊢ <;> dsimp only at h ⊢ <;>
      try split_ifs at h ⊢
    all_goals simp_all
  | false =>
    rcases d.next_of_not_evaluated (o := (now, input)) hi with hb | hb | ⟨uid, hb⟩
    · cases hb.symm.trans h
    · cases hb.symm.trans h
    rw [hb] at h ⊢
    rw [if_pos h]
    cases input <;> first | rfl | cases hi

theorem emits_started (h : d.emits o = .callStarted) :
    d.state = .armed ∧ d.cfg.speechMsToConfirm ≤ d.armedSpeechMs + credit d.nowMs o := by
  obtain ⟨hstate, -, hcfg⟩ := d.noted_keeps o.1 o.2
  rw [← noted_armedSpeechMs, ← hstate, ← hcfg]
  have hedge := d.feed_edge o.1 o.2
  rw [show (d.feed o.1 o.2).2 = .callStarted from h] at hedge
  generalize (d.feed o.1 o.2).1.state = s at hedge
  cases hedge with
  | beat hbeat =>
    cases hbeat with
    | confirm hs hc => exact ⟨hs, hc⟩

theorem Since.armedSpeechMs (h : Since d .armed pre o mid) :
    (run next d (pre ++ o :: mid)).armedSpeechMs = credited o.1 mid := by
  induction mid using reverseRecOn with
  | nil =>
    have hnow := h.now
    rw [run_concat] at hnow ⊢
    exact (next_armed hnow).trans (if_neg h.before)
  | append_singleton mid a ih =>
    have hmid := h.earlier (prefix_append mid [a])
    have hnow := h.now
    rw [← cons_append, ← append_assoc, run_concat] at hnow ⊢
    rw [next_armed hnow, if_pos hmid.now, ih hmid, hmid.nowMs, credited_concat]

/-! ## Silence -/

def Quiet (os : List Observation) (d : Detector) : Prop :=
  ∀ v ∈ os, v.2.voiced = true → v.1 + d.silenceMs ≤ d.nowMs

theorem Quiet.noted (h : Quiet os d) (hclock : d.nowMs ≤ o.1) :
    Quiet (os ++ [o]) (d.noted o.1 o.2) := by
  obtain ⟨now, input⟩ := o
  intro v hv hvoiced
  rcases mem_append.mp hv with hv | hv
  · have hd := h v hv hvoiced
    cases input with
    | farVoice voiced | nearVoice voiced =>
      cases voiced <;> simp [Detector.noted, observe] at hclock ⊢ <;> omega
    | _ =>
      simp [Detector.noted, observe] at hclock ⊢
      omega
  obtain rfl := mem_singleton.mp hv
  cases input with
  | farVoice voiced | nearVoice voiced =>
    obtain rfl : voiced = true := hvoiced
    simp [Detector.noted, observe]
  | _ => cases hvoiced

theorem evaluate_silenceMs_le (d : Detector) : d.evaluate.1.silenceMs ≤ d.silenceMs := by
  unfold evaluate goto
  cases d.state <;> dsimp only <;> try split_ifs
  all_goals simp

theorem next_silenceMs_le (d : Detector) (o : Observation) :
    (d.next o).silenceMs ≤ (d.noted o.1 o.2).silenceMs := by
  obtain ⟨now, input⟩ := o
  cases hi : Evaluated input with
  | true =>
    rw [next, feed_of_evaluated hi]
    exact evaluate_silenceMs_le _
  | false =>
    cases input with
    | block r => exact le_rfl
    | unblock | userChanged => simp only [next, feed]; split <;> exact le_rfl
    | _ => cases hi

def Clocked (os : List Observation) : Prop := os.Pairwise fun a b => a.1 ≤ b.1

theorem Clocked.nowMs_le (h : Clocked (os ++ [o])) (h0 : d.nowMs = 0) :
    (run next d os).nowMs ≤ o.1 := by
  rw [run_nowMs]
  cases hlast : os.getLast? with
  | none =>
    rw [Option.elim_none, h0]
    exact Nat.zero_le _
  | some a =>
    exact (pairwise_append.mp h).2.2 a (mem_of_getLast? hlast) o (mem_singleton_self o)

theorem quiet_run (cfg : VadConfig) (h : Clocked os) : Quiet os (run next (new cfg) os) := by
  induction os using reverseRecOn with
  | nil => exact forall_mem_nil _
  | append_singleton os o ih =>
    have hquiet := (ih (pairwise_append.mp h).1).noted (h.nowMs_le rfl)
    intro v hv hvoiced
    have hsilence := (run next (new cfg) os).next_silenceMs_le o
    have hnoted := hquiet v hv hvoiced
    rw [(noted_keeps _ _ _).2.1] at hnoted
    rw [run_concat, next, feed_nowMs]
    exact (Nat.add_le_add_left hsilence v.1).trans hnoted

/-! ## Wrap -/

theorem next_wrap (h : (d.next o).state = .wrap) (hs : d.state = .wrap → d.sessionActive = false) :
    (d.next o).enteredAtMs = (if d.state = .wrap then d.enteredAtMs else o.1) ∧
      (d.next o).sessionActive = false ∧
      (d.state ≠ .wrap → d.cfg.hangupSilenceMs ≤ (d.noted o.1 o.2).silenceMs) := by
  obtain ⟨now, input⟩ := o
  cases hi : Evaluated input with
  | true =>
    obtain ⟨hstate, hnow, hcfg⟩ := d.noted_keeps now input
    have hentered : (d.noted now input).enteredAtMs = d.enteredAtMs := by cases input <;> rfl
    rw [next, feed_of_evaluated hi] at h ⊢
    unfold evaluate goto at h ⊢
    cases hd : d.state <;> rw [hstate, hd] at h ⊢ <;> dsimp only at h ⊢ <;>
      try split_ifs at h ⊢
    all_goals simp_all
  | false =>
    rcases d.next_of_not_evaluated (o := (now, input)) hi with hb | hb | ⟨uid, hb⟩
    · cases hb.symm.trans h
    · cases hb.symm.trans h
    rw [hb] at h ⊢
    exact ⟨(if_pos h).symm, hs h, fun hne => absurd h hne⟩

theorem emits_hangup (h : d.emits o = .callEnded .hangup) :
    d.state = .wrap ∧ d.cfg.wrapMs ≤ o.1 - d.enteredAtMs ∧ (d.next o).sessionActive = false := by
  obtain ⟨now, input⟩ := o
  cases hi : Evaluated input with
  | true =>
    obtain ⟨hstate, hnow, hcfg⟩ := d.noted_keeps now input
    have hentered : (d.noted now input).enteredAtMs = d.enteredAtMs := by cases input <;> rfl
    rw [emits, feed_of_evaluated hi] at h
    rw [next, feed_of_evaluated hi]
    unfold evaluate goto at h ⊢
    cases hs : d.state <;> rw [hstate, hs] at h ⊢ <;> dsimp only at h ⊢ <;>
      try split_ifs at h ⊢
    all_goals simp_all [timeInStateMs]
  | false =>
    cases input with
    | block r => cases r <;> simp [emits, feed, enterBlocked] at h <;> split at h <;> cases h
    | unblock | userChanged => simp only [emits, feed] at h; split at h <;> cases h
    | _ => cases hi

theorem Since.wrap {w : Observation} (h : Since d .wrap pre w mid) :
    (run next d (pre ++ w :: mid)).enteredAtMs = w.1 ∧
      (run next d (pre ++ w :: mid)).sessionActive = false := by
  induction mid using reverseRecOn with
  | nil =>
    have hnow := h.now
    rw [run_concat] at hnow ⊢
    obtain ⟨hentered, hsession, -⟩ := next_wrap hnow fun hw => absurd hw h.before
    exact ⟨hentered.trans (if_neg h.before), hsession⟩
  | append_singleton mid a ih =>
    have hmid := h.earlier (prefix_append mid [a])
    have hnow := h.now
    obtain ⟨hentered, hsession⟩ := ih hmid
    rw [← cons_append, ← append_assoc, run_concat] at hnow ⊢
    obtain ⟨hentered', hsession', -⟩ := next_wrap hnow fun _ => hsession
    exact ⟨(hentered'.trans (if_pos hmid.now)).trans hentered, hsession'⟩

/-! ## What a start and a hangup stand for -/

theorem run_cfg (d : Detector) (os : List Observation) : (run next d os).cfg = d.cfg :=
  run_invariant (I := fun e => e.cfg = d.cfg) rfl (fun e o h => (feed_cfg e o.1 o.2).trans h) os

theorem started_backed (cfg : VadConfig) (h : (run next (new cfg) os).emits o = .callStarted) :
    ∃ pre a mid, os = pre ++ a :: mid ∧ Since (new cfg) .armed pre a mid ∧
      cfg.speechMsToConfirm ≤ credited a.1 (mid ++ [o]) := by
  obtain ⟨harmed, hspeech⟩ := emits_started h
  have hnew : (new cfg).state ≠ .armed := nofun
  obtain ⟨pre, a, mid, rfl, hsince⟩ := exists_since hnew os harmed
  refine ⟨pre, a, mid, rfl, hsince, ?_⟩
  rw [run_cfg, hsince.armedSpeechMs, hsince.nowMs] at hspeech
  rwa [credited_concat]

theorem hangup_backed (cfg : VadConfig) (hclock : Clocked (os ++ [o]))
    (h : (run next (new cfg) os).emits o = .callEnded .hangup) :
    ∃ pre w mid, os = pre ++ w :: mid ∧ Since (new cfg) .wrap pre w mid ∧ w.1 + cfg.wrapMs ≤ o.1 ∧
      (∀ m, m <+: mid ++ [o] → (run next (new cfg) (pre ++ w :: m)).sessionActive = false) ∧
      ∀ v ∈ pre ++ [w], v.2.voiced = true → v.1 + cfg.hangupSilenceMs ≤ w.1 := by
  obtain ⟨hwrap, hlasted, hsession⟩ := emits_hangup h
  have hnew : (new cfg).state ≠ .wrap := nofun
  obtain ⟨pre, w, mid, rfl, hsince⟩ := exists_since hnew os hwrap
  have hcfg : (new cfg).cfg = cfg := rfl
  rw [run_cfg, hcfg, hsince.wrap.1] at hlasted
  have hsplit := pairwise_append.mp hclock
  have hw : w.1 ≤ o.1 := hsplit.2.2 w (by simp) o (mem_singleton_self o)
  have hpre : Clocked (pre ++ [w]) := by
    refine hsplit.1.sublist ?_
    exact Sublist.append_left (singleton_sublist.mpr mem_cons_self) pre
  refine ⟨pre, w, mid, rfl, hsince, by omega, fun m hm => ?_, fun v hv hvoiced => ?_⟩
  · rcases prefix_concat_iff.mp hm with rfl | hm
    · rwa [← cons_append, ← append_assoc, run_concat]
    · exact (hsince.earlier hm).wrap.2
  have hnow := hsince.stays [] nil_prefix
  rw [run_concat] at hnow
  have hsilence := (next_wrap hnow fun hw => absurd hw hsince.before).2.2 hsince.before
  have hquiet := (quiet_run cfg (pairwise_append.mp hpre).1).noted (hpre.nowMs_le rfl) v hv hvoiced
  rw [run_cfg, hcfg] at hsilence
  rw [(noted_keeps _ _ _).2.1] at hquiet
  exact (Nat.add_le_add_left hsilence v.1).trans hquiet

def briskVad : VadConfig where
  speechMsToConfirm := 20
  hangupSilenceMs := 20
  wrapMs := 20
  debounceMs := 0

def talkedOver : List Observation :=
  [(0, .unblock), (0, .sessionState true), (20, .farVoice true), (20, .sessionState false),
    (40, .farVoice false), (40, .nearVoice true)]

end Detector

end Sentinel.Capture
