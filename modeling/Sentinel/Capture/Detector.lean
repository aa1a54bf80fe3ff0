import Sentinel.Protocol

/-!
# The call detector

The detector (`state.rs`) decides when a call begins and ends. It does not act: each observation
moves its state and returns a `Transition`, which says what the caller has to do.
-/

open Bool

namespace Sentinel.Capture

structure VadConfig where
  speechMsToConfirm : Nat := 300
  armedTimeoutMs : Nat := 20000
  hangupSilenceMs : Nat := 8000
  wrapMs : Nat := 3000
  debounceMs : Nat := 2000
  deriving DecidableEq, Repr

inductive CallState where
  | idle
  | armed
  | inCall
  | wrap
  | finalize
  | blocked
  deriving DecidableEq, Repr

def CallState.busy : CallState → Bool
  | .inCall | .wrap => true
  | _ => false

@[simp] theorem CallState.busy_idle : CallState.idle.busy = false := rfl
@[simp] theorem CallState.busy_armed : CallState.armed.busy = false := rfl
@[simp] theorem CallState.busy_inCall : CallState.inCall.busy = true := rfl
@[simp] theorem CallState.busy_wrap : CallState.wrap.busy = true := rfl
@[simp] theorem CallState.busy_finalize : CallState.finalize.busy = false := rfl
@[simp] theorem CallState.busy_blocked : CallState.blocked.busy = false := rfl

inductive BlockReason where
  | signedOut
  | pinnedDeviceMissing
  | offlineGraceExpired
  | deviceRevoked
  | shutdown
  deriving DecidableEq, Repr

def BlockReason.endReason : BlockReason → EndReason
  | .signedOut => .signedOut
  | .pinnedDeviceMissing => .deviceLost
  | .offlineGraceExpired => .error
  | .deviceRevoked => .revoked
  | .shutdown => .shutdown

inductive DetectorInput where
  | sessionState (active : Bool)
  | farVoice (voiced : Bool)
  | nearVoice (voiced : Bool)
  | tick
  | block (reason : BlockReason)
  | unblock
  | userChanged (userUid : String)
  deriving DecidableEq, Repr

inductive Transition where
  | none
  | armed
  | callStarted
  | wrapStarted
  | callEnded (reason : EndReason)
  | armDiscarded
  | blocked (reason : BlockReason)
  | unblocked
  deriving DecidableEq, Repr

structure Detector where
  cfg : VadConfig
  state : CallState := .blocked
  enteredAtMs : Nat := 0
  nowMs : Nat := 0
  lastTransitionMs : Nat := 0
  sessionActive : Bool := false
  armedSpeechMs : Nat := 0
  silenceMs : Nat := 0
  blockReason : Option BlockReason := some .signedOut
  userUid : Option String := none
  reopenAfterEnd : Bool := false
  armExhausted : Bool := false
  deriving DecidableEq, Repr

namespace Detector

def new (cfg : VadConfig) : Detector := { cfg }

def timeInStateMs (d : Detector) : Nat := d.nowMs - d.enteredAtMs

def debounced (d : Detector) : Bool := d.cfg.debounceMs ≤ d.nowMs - d.lastTransitionMs

def goto (d : Detector) (next : CallState) (t : Transition) : Detector × Transition :=
  ({ d with state := next, enteredAtMs := d.nowMs, lastTransitionMs := d.nowMs }, t)

def evaluate (d : Detector) : Detector × Transition :=
  match d.state with
  | .blocked => (d, .none)
  | .idle =>
    if d.sessionActive && !d.armExhausted && d.debounced then
      { d with armedSpeechMs := 0 }.goto .armed .armed
    else (d, .none)
  | .armed =>
    if d.cfg.speechMsToConfirm ≤ d.armedSpeechMs then
      { d with silenceMs := 0 }.goto .inCall .callStarted
    else if !d.sessionActive && d.debounced then
      d.goto .idle .armDiscarded
    else if d.cfg.armedTimeoutMs ≤ d.timeInStateMs then
      { d with armExhausted := true }.goto .idle .armDiscarded
    else (d, .none)
  | .inCall =>
    -- Both are required: silence alone is a borrower thinking, an inactive session alone
    -- is a hold.
    if !d.sessionActive && (d.cfg.hangupSilenceMs ≤ d.silenceMs : Bool) && d.debounced then
      d.goto .wrap .wrapStarted
    else (d, .none)
  | .wrap =>
    if d.sessionActive then
      { d with silenceMs := 0 }.goto .inCall .none
    else if d.cfg.wrapMs ≤ d.timeInStateMs then
      d.goto .finalize (.callEnded .hangup)
    else (d, .none)
  | .finalize =>
    if d.reopenAfterEnd && d.sessionActive then
      { d with reopenAfterEnd := false, armExhausted := false, armedSpeechMs := 0 }.goto
        .armed .armed
    else d.goto .idle .none

def enterBlocked (d : Detector) (reason : BlockReason) : Detector × Transition :=
  ({ d with
      blockReason := some reason
      state := .blocked
      enteredAtMs := d.nowMs
      lastTransitionMs := d.nowMs },
    if d.state.busy then .callEnded reason.endReason else .blocked reason)

def observe (d : Detector) (elapsed : Nat) : DetectorInput → Detector
  | .sessionState active =>
    { d with
      -- A full session cycle lets the machine arm again.
      armExhausted := if active then d.armExhausted else false
      sessionActive := active }
  | .farVoice voiced =>
    { d with
      armedSpeechMs := if voiced then d.armedSpeechMs + elapsed else d.armedSpeechMs
      silenceMs := if voiced then 0 else d.silenceMs + elapsed }
  | .nearVoice voiced => { d with silenceMs := if voiced then 0 else d.silenceMs + elapsed }
  | .tick => { d with silenceMs := d.silenceMs + elapsed }
  | _ => d

def feed (d : Detector) (now : Nat) (input : DetectorInput) : Detector × Transition :=
  let elapsed := now - d.nowMs
  let d := { d with nowMs := now }
  match input with
  | .block reason => d.enterBlocked reason
  | .unblock =>
    if d.state = .blocked then { d with blockReason := none }.goto .idle .unblocked
    else (d, .none)
  | .userChanged uid =>
    let changed : Bool := d.userUid ≠ some uid
    let d := { d with userUid := some uid }
    if changed && d.state.busy then
      -- The record is closed rather than let one row carry two identities.
      { d with reopenAfterEnd := d.sessionActive, armExhausted := false }.goto .idle
        (.callEnded .signedOut)
    else (d, .none)
  | input => (d.observe elapsed input).evaluate

end Detector

/-! ## The state diagram -/

inductive Beat (d : Detector) : CallState → Transition → Prop
  | stay : Beat d d.state .none
  | arm (h : d.state = .idle) (hs : d.sessionActive = true) (he : d.armExhausted = false)
      (hd : d.debounced = true) : Beat d .armed .armed
  | rearm (h : d.state = .finalize) (hr : d.reopenAfterEnd = true)
      (hs : d.sessionActive = true) : Beat d .armed .armed
  | confirm (h : d.state = .armed) (hc : d.cfg.speechMsToConfirm ≤ d.armedSpeechMs) :
      Beat d .inCall .callStarted
  | discard (h : d.state = .armed) : Beat d .idle .armDiscarded
  | hangup (h : d.state = .inCall) : Beat d .wrap .wrapStarted
  | resume (h : d.state = .wrap) : Beat d .inCall .none
  | close (h : d.state = .wrap) (hw : d.cfg.wrapMs ≤ d.timeInStateMs) :
      Beat d .finalize (.callEnded .hangup)
  | settle (h : d.state = .finalize) : Beat d .idle .none

inductive Edge (d : Detector) : CallState → Transition → Prop
  | beat {s : CallState} {t : Transition} (h : Beat d s t) : Edge d s t
  | block (h : d.state.busy = false) (r : BlockReason) : Edge d .blocked (.blocked r)
  | cut (h : d.state.busy = true) (r : BlockReason) : Edge d .blocked (.callEnded r.endReason)
  | unblock (h : d.state = .blocked) : Edge d .idle .unblocked
  | handover (h : d.state.busy = true) : Edge d .idle (.callEnded .signedOut)

namespace Detector

theorem evaluate_beat (d : Detector) : Beat d d.evaluate.1.state d.evaluate.2 := by
  have hstay : Beat d d.state .none := .stay
  unfold evaluate
  cases h : d.state with
  | blocked => exact hstay
  | idle =>
    dsimp only
    split
    · rename_i hg
      simp only [and_eq_true, not_eq_true'] at hg
      exact .arm h hg.1.1 hg.1.2 hg.2
    · exact hstay
  | armed =>
    dsimp only
    split
    · rename_i hg
      exact .confirm h hg
    split
    · exact .discard h
    split
    · exact .discard h
    · exact hstay
  | inCall =>
    dsimp only
    split
    · exact .hangup h
    · exact hstay
  | wrap =>
    dsimp only
    split
    · exact .resume h
    split
    · rename_i hg
      exact .close h hg
    · exact hstay
  | finalize =>
    dsimp only
    split
    · rename_i hg
      simp only [and_eq_true] at hg
      exact .rearm h hg.1 hg.2
    · exact .settle h

def noted (d : Detector) (now : Nat) (input : DetectorInput) : Detector :=
  { d with nowMs := now }.observe (now - d.nowMs) input

theorem noted_keeps (d : Detector) (now : Nat) (input : DetectorInput) :
    (d.noted now input).state = d.state ∧ (d.noted now input).nowMs = now ∧
      (d.noted now input).cfg = d.cfg := by
  cases input <;> exact ⟨rfl, rfl, rfl⟩

def Evaluated : DetectorInput → Bool
  | .block _ | .unblock | .userChanged _ => false
  | _ => true

variable {d : Detector}

variable {now : Nat} {s s' : CallState}

theorem feed_of_evaluated {input : DetectorInput} (h : Evaluated input = true) :
    d.feed now input = (d.noted now input).evaluate := by
  cases input <;> first | rfl | cases h

theorem feed_beat (d : Detector) (now : Nat) (input : DetectorInput) (h : Evaluated input = true) :
    Beat (d.noted now input) (d.feed now input).1.state (d.feed now input).2 := by
  rw [feed_of_evaluated h]
  exact evaluate_beat _

theorem feed_edge (d : Detector) (now : Nat) (input : DetectorInput) :
    Edge (d.noted now input) (d.feed now input).1.state (d.feed now input).2 := by
  cases hi : Evaluated input with
  | true => exact .beat (feed_beat d now input hi)
  | false =>
    cases input with
    | block reason =>
      change Edge _ .blocked (if d.state.busy then _ else _)
      split
      · rename_i h
        exact .cut (by exact h) reason
      rename_i h
      exact .block (by exact eq_false_iff.2 h) reason
    | unblock =>
      simp only [feed]
      split
      · rename_i h
        exact .unblock h
      · exact .beat .stay
    | userChanged uid =>
      simp only [feed]
      split
      · rename_i h
        exact .handover (and_eq_true _ _ ▸ h).2
      · exact .beat .stay
    | _ => cases hi

theorem evaluate_keeps (d : Detector) : d.evaluate.1.nowMs = d.nowMs ∧ d.evaluate.1.cfg = d.cfg ∧
      d.evaluate.1.sessionActive = d.sessionActive := by
  unfold evaluate goto
  cases d.state <;> dsimp only <;> try split_ifs
  all_goals exact ⟨rfl, rfl, rfl⟩

theorem feed_keeps (d : Detector) (now : Nat) (input : DetectorInput) :
    (d.feed now input).1.nowMs = now ∧ (d.feed now input).1.cfg = d.cfg := by
  cases hi : Evaluated input with
  | true =>
    rw [feed_of_evaluated hi]
    obtain ⟨-, hnow, hcfg⟩ := noted_keeps d now input
    exact ⟨(evaluate_keeps _).1.trans hnow, (evaluate_keeps _).2.1.trans hcfg⟩
  | false =>
    cases input with
    | block reason => exact ⟨rfl, rfl⟩
    | unblock | userChanged => simp only [feed]; split <;> exact ⟨rfl, rfl⟩
    | _ => cases hi

@[simp] theorem feed_nowMs (d : Detector) (now : Nat) (input : DetectorInput) :
    (d.feed now input).1.nowMs = now :=
  (feed_keeps d now input).1

@[simp] theorem feed_cfg (d : Detector) (now : Nat) (input : DetectorInput) :
    (d.feed now input).1.cfg = d.cfg :=
  (feed_keeps d now input).2

/-! ## No exit is overdue -/

structure Settled (d : Detector) : Prop where
  armed : d.state = .armed → d.armedSpeechMs < d.cfg.speechMsToConfirm
  wrap : d.state = .wrap → d.timeInStateMs < d.cfg.wrapMs

structure Timed (cfg : VadConfig) : Prop where
  confirm : 0 < cfg.speechMsToConfirm
  wrap : 0 < cfg.wrapMs

instance (cfg : VadConfig) : Decidable (Timed cfg) :=
  decidable_of_iff (0 < cfg.speechMsToConfirm ∧ 0 < cfg.wrapMs)
    ⟨fun h => ⟨h.1, h.2⟩, fun h => ⟨h.confirm, h.wrap⟩⟩

theorem evaluate_settled (d : Detector) (hcfg : Timed d.cfg) : d.evaluate.1.Settled := by
  have hconfirm := hcfg.confirm
  have hwrap := hcfg.wrap
  unfold evaluate goto
  cases hs : d.state <;> dsimp only <;> try split_ifs
  all_goals constructor <;> simp_all [timeInStateMs]

theorem feed_settled (hcfg : Timed d.cfg) (h : d.Settled) (input : DetectorInput) :
    (d.feed d.nowMs input).1.Settled := by
  cases hi : Evaluated input with
  | true =>
    rw [feed_of_evaluated hi]
    exact evaluate_settled _ (by rwa [(noted_keeps _ _ _).2.2])
  | false =>
    cases input with
    | block reason => exact ⟨nofun, nofun⟩
    | unblock =>
      simp only [feed]
      split
      · exact ⟨nofun, nofun⟩
      · exact h
    | userChanged uid =>
      simp only [feed]
      split
      · exact ⟨nofun, nofun⟩
      · exact ⟨h.armed, h.wrap⟩
    | _ => cases hi

theorem new_settled (cfg : VadConfig) : (new cfg).Settled :=
  ⟨nofun, nofun⟩

/-! ## Two voices at one clock reading

A capture step feeds the far voice and then the near voice, and acts on one transition
only: the first if there was one, the second otherwise. -/

def hear (d : Detector) (now : Nat) (far near : Bool) : Detector × Transition :=
  let d1 := d.feed now (.farVoice far)
  let d2 := d1.1.feed now (.nearVoice near)
  (d2.1, if d1.2 ≠ .none then d1.2 else d2.2)

structure After (d : Detector) (t : Transition) : Prop where
  armed : t = .armed → d.armedSpeechMs = 0
  discarded : t = .armDiscarded → d.sessionActive = true → d.armExhausted = true
  wrap : t = .wrapStarted → d.timeInStateMs = 0
  ended : ∀ r, t = .callEnded r → d.sessionActive = false

theorem evaluate_after (d : Detector) : After d.evaluate.1 d.evaluate.2 := by
  unfold evaluate goto
  cases hs : d.state <;> dsimp only <;> try split_ifs
  all_goals constructor <;> simp_all [timeInStateMs]

structure Heard (cfg : VadConfig) (s s' : CallState) (t : Transition) : Prop where
  started : t = .callStarted → s = .armed ∧ s'.busy = true
  ended : ∀ r, t = .callEnded r → s.busy = true ∧ s'.busy = false
  arms : t = .armed → s.busy = false
  discards : t = .armDiscarded → s = .armed
  armed : s' = .armed → s = .armed ∨ t = .armed
  stays : 0 < cfg.wrapMs → s.busy = true → (∀ r, t ≠ .callEnded r) → s'.busy = true
  outside : 0 < cfg.speechMsToConfirm → s.busy = false → t ≠ .callStarted → s'.busy = false

theorem Heard.not_armed {cfg : VadConfig} {r : EndReason}
    (h : Heard cfg s s' (.callEnded r)) : s' ≠ .armed := by
  intro hs'
  rcases h.armed hs' with hs | hs
  · have hbusy := (h.ended r rfl).1
    rw [hs] at hbusy
    cases hbusy
  · cases hs

theorem heard_of_beats {e : Detector} {t t' : Transition} (h1 : Beat d s t)
    (ha : After e t) (h2 : Beat e s' t') (hs : e.state = s) (hcfg : e.cfg = d.cfg) :
    Heard d.cfg d.state s' (if t ≠ .none then t else t') := by
  have harmed := ha.armed
  have hwrap := ha.wrap
  have hended := ha.ended
  rw [← hcfg]
  cases h1 with
  | stay =>
    rw [← hs]
    clear hs
    cases h2 <;> constructor <;> simp_all
  | resume h | settle h => cases h2 <;> constructor <;> simp_all
  -- An edge of the far voice: the near voice's edge is not acted on, so it must not matter.
  | arm h | rearm h | confirm h | discard h | hangup h | close h =>
    cases h2 <;> constructor <;> simp_all

theorem hear_heard (d : Detector) (now : Nat) (far near : Bool) :
    Heard d.cfg d.state (d.hear now far near).1.state (d.hear now far near).2 := by
  have h1 := feed_beat d now (.farVoice far) rfl
  have ha := evaluate_after (d.noted now (.farVoice far))
  have h2 := feed_beat (d.feed now (.farVoice far)).1 now (.nearVoice near) rfl
  rw [← feed_of_evaluated rfl] at ha
  have hnow : (d.feed now (.farVoice far)).1.nowMs = now := feed_nowMs _ _ _
  have hafter : After ((d.feed now (.farVoice far)).1.noted now (.nearVoice near))
      (d.feed now (.farVoice far)).2 :=
    ⟨ha.armed, ha.discarded,
      fun h => (congrArg (· - (d.feed now (.farVoice far)).1.enteredAtMs) hnow.symm).trans
        (ha.wrap h),
      ha.ended⟩
  have hheard := heard_of_beats h1 hafter h2 rfl (feed_cfg d now _)
  exact hheard

/-! ## The events that come between capture steps -/

def readyToArm (d : Detector) : Bool :=
  (d.state = .idle && !d.armExhausted && d.debounced) ||
    (d.state = .finalize && d.reopenAfterEnd)

theorem session_armed {active : Bool}
    (h : (d.feed d.nowMs (.sessionState active)).1.state = .armed) :
    d.state = .armed ∨ (active = true ∧ d.readyToArm = true) := by
  have hb := feed_beat d d.nowMs (.sessionState active) rfl
  generalize (d.feed d.nowMs (.sessionState active)).1.state = s at h hb
  generalize (d.feed d.nowMs (.sessionState active)).2 = t at hb
  cases hb with
  | stay => exact .inl h
  | arm hidle hs he hd =>
    obtain rfl : active = true := hs
    have hidle : d.state = .idle := hidle
    have he : d.armExhausted = false := he
    have hd : d.debounced = true := hd
    exact .inr ⟨rfl, by simp [readyToArm, hidle, he, hd]⟩
  | rearm hfin hr hs =>
    obtain rfl : active = true := hs
    have hfin : d.state = .finalize := hfin
    have hr : d.reopenAfterEnd = true := hr
    exact .inr ⟨rfl, by simp [readyToArm, hfin, hr]⟩
  | _ => cases h

theorem session_busy (hset : d.Settled) (active : Bool) :
    (d.feed d.nowMs (.sessionState active)).1.state.busy = d.state.busy := by
  have hb := feed_beat d d.nowMs (.sessionState active) rfl
  generalize (d.feed d.nowMs (.sessionState active)).1.state = s at hb
  generalize (d.feed d.nowMs (.sessionState active)).2 = t at hb
  have hstate : (d.noted d.nowMs (.sessionState active)).state = d.state := rfl
  cases hb with
  | stay => rfl
  | confirm h hc => exact absurd (hset.armed h) (Nat.not_lt.2 hc)
  | close h hw => exact absurd (hset.wrap h) (Nat.not_lt.2 hw)
  | arm h | rearm h | discard h | hangup h | resume h | settle h =>
    rw [← hstate, h]
    rfl

theorem feed_unblock_state (d : Detector) (now : Nat) :
    (d.feed now .unblock).1.state = if d.state = .blocked then .idle else d.state := by
  simp only [feed]
  split <;> rfl

theorem feed_userChanged_state (d : Detector) (now : Nat) (uid : String) :
    (d.feed now (.userChanged uid)).1.state =
      if d.userUid ≠ some uid ∧ d.state.busy then .idle else d.state := by
  simp only [feed]
  by_cases hu : d.userUid = some uid <;> cases hb : d.state.busy <;> simp [hu, goto]

theorem armed_of_unblock {d : Detector} (h : (d.feed now .unblock).1.state = .armed) :
    d.state = .armed := by
  rw [feed_unblock_state] at h
  split at h
  · cases h
  · exact h

theorem armed_of_userChanged {d : Detector} {uid : String}
    (h : (d.feed now (.userChanged uid)).1.state = .armed) : d.state = .armed := by
  rw [feed_userChanged_state] at h
  split at h
  · cases h
  · exact h

end Detector

end Sentinel.Capture
