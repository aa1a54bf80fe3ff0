import Sentinel.Capture.Lifecycle

/-!
# Arming

Two rules keep the detector from arming for nothing. An arm that no speech confirmed is not repeated
while the session lasts, and none comes within the debounce of the last change of state.
-/

open List

namespace Sentinel.Capture

open Runs

namespace Detector

variable {d : Detector} {a : Observation}

structure Spent (d : Detector) : Prop where
  exhausted : d.armExhausted = true
  resting : d.state = .idle ∨ d.state = .blocked

theorem noted_armExhausted (d : Detector) (ha : a.2 ≠ .sessionState false) :
    (d.noted a.1 a.2).armExhausted = d.armExhausted := by
  obtain ⟨now, input⟩ := a
  cases input with
  | sessionState active =>
    cases active with
    | true => rfl
    | false => exact absurd rfl ha
  | _ => rfl

theorem Spent.evaluate (h : d.Spent) : d.evaluate = (d, .none) := by
  unfold Detector.evaluate
  rcases h.resting with hs | hs <;> simp [hs, h.exhausted]

theorem Spent.next (h : d.Spent) (ha : a.2 ≠ .sessionState false) :
    (d.next a).Spent ∧ d.emits a ≠ .armed := by
  cases hi : Evaluated a.2 with
  | true =>
    have hnoted : (d.noted a.1 a.2).Spent :=
      ⟨(noted_armExhausted d ha).trans h.exhausted, by
        rw [(d.noted_keeps a.1 a.2).1]
        exact h.resting⟩
    rw [Detector.next, emits, feed_of_evaluated hi, hnoted.evaluate]
    exact ⟨hnoted, fun he => by cases he⟩
  | false =>
    obtain ⟨now, input⟩ := a
    have hidle : d.state.busy = false := by rcases h.resting with hs | hs <;> rw [hs] <;> rfl
    cases input with
    | block r =>
      refine ⟨⟨h.exhausted, .inr rfl⟩, ?_⟩
      simp [emits, feed, enterBlocked, hidle]
    | unblock =>
      simp only [Detector.next, emits, feed]
      split
      · exact ⟨⟨h.exhausted, .inl rfl⟩, fun he => by cases he⟩
      · exact ⟨⟨h.exhausted, h.resting⟩, fun he => by cases he⟩
    | userChanged uid =>
      -- Only a call under way is closed by it, and that is what would clear the latch.
      simp only [Detector.next, emits, feed, hidle, Bool.and_false, Bool.false_eq_true, if_false]
      exact ⟨⟨h.exhausted, h.resting⟩, fun he => by cases he⟩
    | _ => cases hi

theorem Spent.not_armed (h : d.Spent) {os : List Observation}
    (hos : ∀ a ∈ os, a.2 ≠ .sessionState false) : .armed ∉ d.emitted os := by
  induction os generalizing d with
  | nil => exact not_mem_nil
  | cons a os ih =>
    obtain ⟨hnext, hemits⟩ := h.next (hos a mem_cons_self)
    rw [emitted, mem_cons, not_or]
    exact ⟨hemits.symm, ih hnext fun b hb => hos b (mem_cons_of_mem a hb)⟩

theorem evaluated_of_emits {t : Transition} (h : d.emits a = t)
    (ht : t = .armed ∨ t = .armDiscarded) : Evaluated a.2 = true := by
  obtain ⟨now, input⟩ := a
  by_contra hi
  cases input with
  | block r => simp only [emits, feed, enterBlocked] at h; split at h <;> simp [← h] at ht
  | unblock | userChanged => simp only [emits, feed] at h; split at h <;> simp [goto, ← h] at ht
  | _ => exact hi rfl

theorem spent_of_discarded (h : d.emits a = .armDiscarded)
    (hs : (d.next a).sessionActive = true) : (d.next a).Spent := by
  have hi := evaluated_of_emits h (.inr rfl)
  have harmed : (d.noted a.1 a.2).state = .armed := by
    have hbeat := d.feed_beat a.1 a.2 hi
    rw [show (d.feed a.1 a.2).2 = .armDiscarded from h] at hbeat
    generalize (d.feed a.1 a.2).1.state = s at hbeat
    cases hbeat with
    | discard hs => exact hs
  rw [emits, feed_of_evaluated hi] at h
  rw [Detector.next, feed_of_evaluated hi] at hs ⊢
  rw [(evaluate_keeps _).2.2] at hs
  rw [evaluate, harmed] at h ⊢
  dsimp only at h ⊢
  rw [hs, Bool.not_true, Bool.false_and, if_neg Bool.false_ne_true] at h
  rw [hs, Bool.not_true, Bool.false_and, if_neg Bool.false_ne_true]
  split_ifs at h ⊢
  · cases h
  · exact ⟨rfl, .inl rfl⟩

/-- **No arm loop.** -/
theorem not_armed_of_discarded (cfg : VadConfig) (pre mid : List Observation) (o : Observation)
    (h : (run next (new cfg) pre).emits o = .armDiscarded)
    (hs : (run next (new cfg) (pre ++ [o])).sessionActive = true)
    (hmid : ∀ a ∈ mid, a.2 ≠ .sessionState false) :
    .armed ∉ (run next (new cfg) (pre ++ [o])).emitted mid := by
  rw [run_concat] at hs ⊢
  exact (spent_of_discarded h hs).not_armed hmid

/-- Far-channel silence until the arm runs out, then a block, a new user and a session that stays
active. -/
theorem not_armed_of_discarded_holdMusic :
    (run next (new {}) [(0, .unblock), (2000, .sessionState true)]).emits (22000, .tick) =
        .armDiscarded ∧
      .armed ∉ (run next (new {})
          [(0, .unblock), (2000, .sessionState true), (22000, .tick)]).emitted
        [(24000, .tick), (25000, .block .signedOut), (26000, .unblock), (26000, .userChanged "bob"),
          (30000, .sessionState true)] :=
  ⟨by decide, not_armed_of_discarded {} [(0, .unblock), (2000, .sessionState true)] _ (22000, .tick)
    (by decide) (by decide) (by decide)⟩

/-! ## The debounce -/

theorem evaluate_stamps (d : Detector) : d.evaluate.1 = d ∨
    d.evaluate.1.state ≠ d.state ∧ d.evaluate.1.lastTransitionMs = d.nowMs := by
  unfold evaluate goto
  cases hs : d.state <;> dsimp only <;> try split_ifs
  all_goals first | exact .inl rfl | exact .inr ⟨(fun he => by cases he), rfl⟩

theorem next_stamps (d : Detector) (a : Observation) :
    (((d.next a).state ≠ d.state ∨ d.state = .blocked) ∧ (d.next a).lastTransitionMs = a.1) ∨
      (d.next a).state = d.state ∧ (d.next a).lastTransitionMs = d.lastTransitionMs := by
  obtain ⟨now, input⟩ := a
  cases hi : Evaluated input with
  | true =>
    obtain ⟨hstate, hnow, -⟩ := d.noted_keeps now input
    have hlast : (d.noted now input).lastTransitionMs = d.lastTransitionMs := by
      cases input <;> rfl
    rw [next, feed_of_evaluated hi]
    rcases evaluate_stamps (d.noted now input) with he | ⟨hne, he⟩
    · rw [he]
      exact .inr ⟨hstate, hlast⟩
    · exact .inl ⟨.inl (hne.trans_eq hstate), he.trans hnow⟩
  | false =>
    cases input with
    | block r =>
      refine .inl ⟨?_, rfl⟩
      by_cases hb : d.state = .blocked
      · exact .inr hb
      · exact .inl (Ne.symm hb)
    | unblock =>
      simp only [next, feed]
      split
      · rename_i hb
        exact .inl ⟨.inr hb, rfl⟩
      · exact .inr ⟨rfl, rfl⟩
    | userChanged uid =>
      simp only [next, feed]
      split
      · rename_i hg
        refine .inl ⟨.inl fun he => ?_, rfl⟩
        have hbusy := (Bool.and_eq_true _ _ ▸ hg).2
        rw [← he] at hbusy
        cases hbusy
      · exact .inr ⟨rfl, rfl⟩
    | _ => cases hi

theorem Since.lastTransitionMs {s : CallState} {pre mid : List Observation} {o : Observation}
    (h : Since d s pre o mid) (hs : s ≠ .blocked) :
    (run next d (pre ++ o :: mid)).lastTransitionMs = o.1 := by
  induction mid using reverseRecOn with
  | nil =>
    have hnow := h.now
    rw [run_concat] at hnow ⊢
    rcases next_stamps (run next d pre) o with ⟨-, hlast⟩ | ⟨hsame, -⟩
    · exact hlast
    · exact absurd (hsame.symm.trans hnow) h.before
  | append_singleton mid a ih =>
    have hmid := h.earlier (prefix_append mid [a])
    have hnow := h.now
    rw [← cons_append, ← append_assoc, run_concat] at hnow ⊢
    rcases next_stamps (run next d (pre ++ o :: mid)) a with ⟨hchange | hblocked, -⟩ | ⟨-, hlast⟩
    · exact absurd (hnow.trans hmid.now.symm) hchange
    · exact absurd (hmid.now.symm.trans hblocked) hs
    · exact hlast.trans (ih hmid)

theorem emits_armed (h : d.emits a = .armed) :
    (d.state = .idle ∧ d.cfg.debounceMs ≤ a.1 - d.lastTransitionMs) ∨ d.state = .finalize := by
  obtain ⟨hstate, hnow, hcfg⟩ := d.noted_keeps a.1 a.2
  have hlast : (d.noted a.1 a.2).lastTransitionMs = d.lastTransitionMs := by
    rcases a.2 <;> rfl
  have hedge := d.feed_edge a.1 a.2
  rw [show (d.feed a.1 a.2).2 = .armed from h] at hedge
  generalize (d.feed a.1 a.2).1.state = s at hedge
  cases hedge with
  | beat hbeat =>
    cases hbeat with
    | arm hidle hs he hd =>
      rw [debounced, decide_eq_true_iff, hnow, hcfg, hlast] at hd
      exact .inl ⟨hstate.symm.trans hidle, hd⟩
    | rearm hfin => exact .inr (hstate.symm.trans hfin)

def Reopens (d : Detector) (a : Observation) : Prop :=
  d.state = .finalize ∧ d.reopenAfterEnd = true ∧ Evaluated a.2 = true ∧
    (d.noted a.1 a.2).sessionActive = true

instance (d : Detector) (a : Observation) : Decidable (d.Reopens a) :=
  inferInstanceAs (Decidable (_ ∧ _ ∧ _ ∧ _))

theorem reopens_iff : d.Reopens a ↔ d.state = .finalize ∧ d.emits a = .armed := by
  obtain ⟨hstate, -, -⟩ := d.noted_keeps a.1 a.2
  have hreopen : (d.noted a.1 a.2).reopenAfterEnd = d.reopenAfterEnd := by rcases a.2 <;> rfl
  constructor
  · rintro ⟨hfin, hflag, hi, hs⟩
    refine ⟨hfin, ?_⟩
    rw [emits, feed_of_evaluated hi, evaluate, hstate, hfin]
    rw [hreopen, hflag, hs, Bool.and_self, if_pos rfl]
    rfl
  rintro ⟨hfin, h⟩
  have hi := evaluated_of_emits h (.inl rfl)
  have hbeat := d.feed_beat a.1 a.2 hi
  rw [show (d.feed a.1 a.2).2 = .armed from h] at hbeat
  generalize (d.feed a.1 a.2).1.state = s at hbeat
  cases hbeat with
  | arm hidle => cases (hidle.symm.trans hstate).trans hfin
  | rearm _ hflag hs => exact ⟨hfin, hreopen.symm.trans hflag, hi, hs⟩

def HandsOver (d : Detector) (o : Observation) : Prop :=
  (∃ uid, o.2 = .userChanged uid) ∧ d.emits o = .callEnded .signedOut

def ArmsDebounced (cfg : VadConfig) (os : List Observation) : Prop :=
  ∀ s pre o mid a, pre ++ o :: mid ++ [a] <+: os → Since (new cfg) s pre o mid →
    (run next (new cfg) (pre ++ o :: mid)).emits a = .armed →
      cfg.debounceMs ≤ a.1 - o.1 ∨ (run next (new cfg) pre).HandsOver o

def Unhurried (d : Detector) (a : Observation) : Prop :=
  d.Reopens a → d.cfg.debounceMs ≤ a.1 - d.lastTransitionMs

theorem not_handsOver_of_finalize {o : Observation} (h : (d.next o).state = .finalize) :
    ¬ d.HandsOver o := by
  rintro ⟨⟨uid, hinput⟩, hended⟩
  obtain ⟨now, input⟩ := o
  subst hinput
  simp only [next, emits, feed] at h hended
  split at h
  · cases h
  rename_i hg
  rw [if_neg hg] at hended
  cases hended

/-- **When arming is debounced.** -/
theorem armsDebounced_iff (cfg : VadConfig) (os : List Observation) :
    ArmsDebounced cfg os ↔ Along next Unhurried (new cfg) os := by
  constructor
  · intro h
    refine along_of_split fun es a rest hos hreopens => ?_
    have hnew : (new cfg).state ≠ .finalize := fun he => by cases he
    obtain ⟨pre, o, mid, rfl, hsince⟩ := exists_since hnew es hreopens.1
    have hentered := hsince.stays [] nil_prefix
    rw [run_concat] at hentered
    have hinit : pre ++ o :: mid ++ [a] <+: os := ⟨rest, by rw [hos]; simp⟩
    rw [run_cfg, hsince.lastTransitionMs (by decide)]
    exact (h _ pre o mid a hinit hsince (reopens_iff.mp hreopens).2).resolve_right
      (not_handsOver_of_finalize hentered)
  · rintro h s pre o mid a ⟨rest, rfl⟩ hsince harmed
    rw [append_assoc] at h
    have hat : (run next (new cfg) (pre ++ o :: mid)).Unhurried a := h.at
    have hnow := hsince.now
    rcases emits_armed harmed with ⟨hidle, hdebounced⟩ | hfin
    · obtain rfl := hnow.symm.trans hidle
      rw [run_cfg, hsince.lastTransitionMs (by decide)] at hdebounced
      exact .inl hdebounced
    · obtain rfl := hnow.symm.trans hfin
      have hdebounced := hat (reopens_iff.mpr ⟨hfin, harmed⟩)
      rw [run_cfg, hsince.lastTransitionMs (by decide)] at hdebounced
      exact .inl hdebounced

def secondHangup : List Observation :=
  [(0, .unblock), (0, .userChanged "alice"), (2000, .sessionState true), (2300, .farVoice true),
    (2300, .userChanged "bob"), (4300, .tick), (4600, .farVoice true), (4600, .sessionState false),
    (12600, .tick), (15600, .tick), (15601, .sessionState true)]

/-- With the timings of the policy's defaults, the detector arms one millisecond after a hangup. -/
theorem secondHangup_not_debounced : Clocked secondHangup ∧ ¬ ArmsDebounced {} secondHangup := by
  refine ⟨by unfold Clocked; decide, fun h => ?_⟩
  have hsince : Since (new {}) .finalize (secondHangup.take 9) (15600, .tick) [] :=
    ⟨by decide, fun m hm => by rw [prefix_nil.mp hm]; decide⟩
  rcases h _ _ _ _ (15601, .sessionState true) ⟨[], by decide⟩ hsince (by decide) with hlate | hover
  · exact absurd hlate (by decide)
  · obtain ⟨uid, hinput⟩ := hover.1
    cases hinput

end Detector

end Sentinel.Capture
