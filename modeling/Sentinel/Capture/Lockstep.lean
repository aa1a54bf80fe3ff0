import Sentinel.Lib.Runs
import Sentinel.Capture.Steps

/-!
# The pipeline and the detector in step

The pipeline and the detector are kept together by acting on every `call_started` and `call_ended`,
and only `step` acts.
-/

namespace Sentinel.Capture

variable {α : Type} {dsp : Dsp α}

/-! ## What the log has to say -/

def follow (current : Option CallId) : Entry α → Option (Option CallId)
  | .started cs => if current = none then some (some cs.callId) else none
  | .spooled _ _ => some current
  | .ended ce => if current = some ce.callId then some none else none

def openCall (log : List (Entry α)) : Option (Option CallId) := log.foldlM follow none

theorem openCall_append (log more : List (Entry α)) :
    openCall (log ++ more) = (openCall log).bind fun c => more.foldlM follow c :=
  List.foldlM_append

theorem foldlM_follow_entriesOf {ch : Channel} (c : Option CallId) (callId : CallId)
    (clockMs : Nat) (segs : List (Segment α ch)) :
    (entriesOf callId clockMs segs).foldlM follow c = some c := by
  induction segs with
  | nil => rfl
  | cons seg rest ih => exact ih

theorem openCall_entriesOf {ch ch' : Channel} (log : List (Entry α)) (callId : CallId)
    (clockMs : Nat) (segs : List (Segment α ch)) (segs' : List (Segment α ch')) :
    openCall (log ++ (entriesOf callId clockMs segs ++ entriesOf callId clockMs segs')) =
      openCall log := by
  rw [← List.append_assoc, openCall_append, openCall_append, Option.bind_assoc]
  simp [foldlM_follow_entriesOf]

def InStep (r : Rig dsp) : Prop :=
  (r.pipeline.currentCall.isSome ↔ r.pipeline.detector.state.busy) ∧
    (openCall r.book.log).isSome

instance (r : Rig dsp) : Decidable (InStep r) := inferInstanceAs (Decidable (_ ∧ _))

/-! ## The runs in which it holds -/

instance (book : Recorder α) (c : CallId) : Decidable (book.Unsealed c) :=
  inferInstanceAs (Decidable (_ = _))

instance (r : Rig dsp) (env : StepEnv α) : Decidable (Smooth r env) :=
  decidable_of_iff (env.budget = none ∧
      (∀ call ∈ r.pipeline.currentCall, r.book.Unsealed call.callId) ∧
      r.book.Unsealed env.callId)
    ⟨fun h => ⟨h.1, h.2.1, h.2.2⟩, fun h => ⟨h.budget, h.current, h.minted⟩⟩

def Undisturbed (r : Rig dsp) : PipeEvent α → Prop
  | .step env => Smooth r env
  | .block _ | .deviceLost => r.pipeline.currentCall = none
  | .openPinned env => env.present = true ∨ r.pipeline.currentCall = none
  | .userChanged uid => r.pipeline.detector.userUid = some uid ∨ r.pipeline.currentCall = none
  | _ => True

instance (r : Rig dsp) (e : PipeEvent α) : Decidable (Undisturbed r e) := by
  unfold Undisturbed
  cases e <;> infer_instance

/-! ## The invariant -/

structure Lockstep (r : Rig dsp) : Prop where
  timed : Detector.Timed r.pipeline.detector.cfg
  settled : r.pipeline.detector.Settled
  clock : r.pipeline.detector.nowMs = r.pipeline.clockMs
  busy : r.pipeline.detector.state.busy = r.pipeline.currentCall.isSome
  log : openCall r.book.log = some (r.pipeline.currentCall.map (·.callId))

namespace Lockstep

variable {r : Rig dsp} {p : Pipeline dsp}

theorem inStep (h : Lockstep r) : InStep r :=
  ⟨by rw [h.busy], by rw [h.log]; rfl⟩

theorem init {policy : Policy} (hcfg : Detector.Timed policy.vad) (tier : CaptureTier)
    (deviceId userUid : String) (u : Uplink) :
    Lockstep (Rig.init policy tier deviceId userUid u : Rig dsp) where
  timed := hcfg
  settled := Detector.feed_settled hcfg (Detector.new_settled _) _
  clock := rfl
  busy := rfl
  log := rfl

theorem of_feed {input : DetectorInput} (h : Lockstep r)
    (hdetector : p.detector = (r.pipeline.detector.feed r.pipeline.clockMs input).1)
    (hclock : p.clockMs = r.pipeline.clockMs) (hcall : p.currentCall = r.pipeline.currentCall)
    (hbusy : p.detector.state.busy = r.pipeline.detector.state.busy) :
    Lockstep { r with pipeline := p } where
  timed := by
    rw [hdetector, Detector.feed_cfg]
    exact h.timed
  settled := by
    rw [hdetector, ← h.clock]
    exact Detector.feed_settled h.timed h.settled input
  clock := by
    rw [hdetector, Detector.feed_nowMs, hclock]
  busy := by
    rw [hbusy, h.busy, hcall]
  log := by
    rw [h.log, hcall]

theorem of_same {book : Recorder α} (h : Lockstep r) (hsame : r.pipeline.SameButPipes p)
    (hlog : openCall book.log = openCall r.book.log) : Lockstep ⟨p, book⟩ where
  timed := hsame.detector ▸ h.timed
  settled := hsame.detector ▸ h.settled
  clock := by
    rw [hsame.detector, hsame.clockMs, h.clock]
  busy := by
    rw [hsame.detector, hsame.currentCall, h.busy]
  log := by
    rw [hlog, hsame.currentCall, h.log]

theorem not_busy (h : Lockstep r) (hnone : r.pipeline.currentCall = none) :
    r.pipeline.detector.state.busy = false := by
  rw [h.busy, hnone]
  rfl

theorem block {reason : BlockReason} (h : Lockstep r) (hnone : r.pipeline.currentCall = none)
    (hdetector : p.detector = (r.pipeline.detector.feed r.pipeline.clockMs (.block reason)).1)
    (hclock : p.clockMs = r.pipeline.clockMs) (hcall : p.currentCall = r.pipeline.currentCall) :
    Lockstep { r with pipeline := p } :=
  h.of_feed hdetector hclock hcall (by rw [hdetector, h.not_busy hnone]; rfl)

theorem unblock (h : Lockstep r)
    (hdetector : p.detector = (r.pipeline.detector.feed r.pipeline.clockMs .unblock).1)
    (hclock : p.clockMs = r.pipeline.clockMs) (hcall : p.currentCall = r.pipeline.currentCall) :
    Lockstep { r with pipeline := p } := by
  refine h.of_feed hdetector hclock hcall ?_
  rw [hdetector, Detector.feed_unblock_state]
  split
  · rename_i hblocked
    rw [hblocked]
    rfl
  · rfl

theorem openPinned {env : Pipeline.OpenEnv} (h : Lockstep r)
    (hopen : env.present = true ∨ r.pipeline.currentCall = none) :
    Lockstep { r with pipeline := (r.pipeline.openPinned env).1 } := by
  have hopened := openPinned_opened r.pipeline env
  generalize (r.pipeline.openPinned env).1 = p at hopened ⊢
  cases hopened with
  | failed hp => rcases hp with rfl | rfl <;> exact h.of_same ⟨rfl, rfl, rfl, rfl⟩ rfl
  | opened hp =>
    subst hp
    exact h.unblock rfl rfl rfl
  | missing habsent hp =>
    subst hp
    exact h.block (hopen.resolve_left (by simp [habsent])) rfl rfl rfl

theorem userChanged {uid : String} (h : Lockstep r)
    (huser : r.pipeline.detector.userUid = some uid ∨ r.pipeline.currentCall = none) :
    Lockstep { r with pipeline := r.pipeline.onUserChanged uid } := by
  refine h.of_feed rfl rfl rfl ?_
  change ((r.pipeline.detector.feed r.pipeline.clockMs (.userChanged uid)).1.state).busy = _
  rw [Detector.feed_userChanged_state, if_neg]
  rintro ⟨hne, hbusy⟩
  rcases huser with huser | hnone
  · exact hne huser
  rw [h.not_busy hnone] at hbusy
  cases hbusy

/-! ## A capture step -/

theorem acted {env : StepEnv α} [Inhabited α] {t : Transition} {w w1 : Work dsp} (h : Lockstep r)
    (hbook : w.book = r.book) (hlistens : Listens r.pipeline w.pipeline t)
    (happlied : Work.Applied env w w1 t) : Lockstep ⟨w1.pipeline, w1.book⟩ := by
  have htimed : Detector.Timed w.pipeline.detector.cfg := hlistens.cfg ▸ h.timed
  have hsettled := hlistens.settled h.timed
  have hcall := hlistens.currentCall
  have hheard := hlistens.heard
  have hlog : openCall w.book.log = some (w.pipeline.currentCall.map (·.callId)) := by
    rw [hbook, hcall, h.log]
  -- The states in which the detector neither starts nor ends a call.
  have hquiet : t ≠ .callStarted → (∀ reason, t ≠ .callEnded reason) →
      Lockstep ⟨w.pipeline, w.book⟩ := by
    intro hstart hend
    refine ⟨htimed, hsettled, hlistens.clock, ?_, hlog⟩
    rw [hcall, ← h.busy]
    cases hb : r.pipeline.detector.state.busy with
    | true => exact hheard.stays h.timed.wrap hb hend
    | false => exact hheard.outside h.timed.confirm hb hstart
  cases happlied with
  | restarted ht hsame hbook1 hpipe =>
    have hw : Lockstep ⟨w.pipeline, w.book⟩ := by
      rcases ht with rfl | rfl <;> exact hquiet nofun nofun
    exact hw.of_same hsame (by rw [hbook1])
  | started hcall1 hdetector hclock huser hpipe hlog1 =>
    obtain ⟨harmed, hbusy⟩ := hheard.started rfl
    have hnone : r.pipeline.currentCall = none := by
      rw [← Option.not_isSome_iff_eq_none, ← h.busy, harmed]
      decide
    refine ⟨hdetector ▸ htimed, hdetector ▸ hsettled, ?_, ?_, ?_⟩
    · rw [hdetector, hclock, hlistens.clock]
    · rw [hdetector, hcall1, hbusy]
      rfl
    rw [hlog1, openCall_append, hlog, hcall, hnone, hcall1]
    rfl
  | ended reason call segs w2 ce hcall1 hmoved hpipeline hce hlog1 =>
    have hsame := hmoved.same
    refine ⟨?_, ?_, ?_, ?_, ?_⟩
    · exact hpipeline ▸ hsame.detector ▸ htimed
    · exact hpipeline ▸ hsame.detector ▸ hsettled
    · rw [hpipeline, hsame.detector, hsame.clockMs]
      exact hlistens.clock
    · rw [hpipeline, hsame.detector, hsame.currentCall]
      exact (hheard.ended reason rfl).2
    rw [hlog1, hpipeline, hsame.currentCall, openCall_append, hmoved.log, openCall_entriesOf,
      hlog, hcall1]
    simp [follow, hce]
  | nothing harmed hstarted hended hw1 =>
    have hend : ∀ reason, t ≠ .callEnded reason := by
      rintro reason rfl
      have hbusy := (hheard.ended reason rfl).1
      rw [h.busy, ← hcall, hended reason rfl] at hbusy
      cases hbusy
    exact hw1 ▸ hquiet hstarted hend

theorem drains [Inhabited α] {w w' : Work dsp} (h : Lockstep ⟨w.pipeline, w.book⟩)
    (hdrains : Work.Drains w w') : Lockstep ⟨w'.pipeline, w'.book⟩ := by
  cases hdrains with
  | idle hcall hw => exact hw ▸ h
  | call call segs hcall hmoved =>
    exact h.of_same hmoved.same (by rw [hmoved.log]; exact openCall_entriesOf ..)

theorem capture [Inhabited α] {env : StepEnv α} (h : Lockstep r) (hsmooth : Smooth r env) :
    Lockstep (r.capture env) := by
  have hcaptured := capture_captured hsmooth
  generalize r.capture env = r' at hcaptured ⊢
  cases hcaptured with
  | stopped hbook hsame hfed =>
    exact h.of_same hsame (congrArg (fun book => openCall book.log) hbook)
  | acted t w w1 w2 hbook hlistens hfed happlied hdrains hr =>
    rw [hr]
    exact ((h.acted hbook hlistens happlied).drains hdrains).of_same ⟨rfl, rfl, rfl, rfl⟩ rfl

theorem step [Inhabited α] {e : PipeEvent α} (h : Lockstep r) (he : Undisturbed r e) :
    Lockstep (r.step e) := by
  cases e with
  | openPinned env => exact h.openPinned he
  | sessionState active =>
    have hbusy := Detector.session_busy h.settled active
    rw [h.clock] at hbusy
    exact h.of_feed rfl rfl rfl hbusy
  | userChanged uid => exact h.userChanged he
  | block | deviceLost => exact h.block he rfl rfl rfl
  | unblock => exact h.unblock rfl rfl rfl
  | step env => exact h.capture he
  | takeEvents | setAccountRef a | uplink u => exact h.of_same ⟨rfl, rfl, rfl, rfl⟩ rfl

end Lockstep

/-- **The pipeline and the detector stay in step** -/
theorem in_step [Inhabited α] (policy : Policy) (hcfg : Detector.Timed policy.vad)
    (tier : CaptureTier) (deviceId userUid : String) (u : Uplink) (es : List (PipeEvent α))
    (h : Runs.Along Rig.step Undisturbed (Rig.init policy tier deviceId userUid u : Rig dsp) es) :
    InStep (Runs.run Rig.step (Rig.init policy tier deviceId userUid u : Rig dsp) es) :=
  (h.invariant (Lockstep.init hcfg tier deviceId userUid u) fun _ _ => Lockstep.step).inStep

/-! ## Concrete runs -/

def oneCallRun : List (PipeEvent Int) :=
  [.openPinned headset, .sessionState true, slice 1 "call-1", .sessionState false,
    slice 0 "call-2", slice 0 "call-2"]

/-- The hypotheses of `in_step` are met by a run that records a whole call. -/
theorem oneCallRun_in_step :
    (Runs.run Rig.step brisk oneCallRun).book.log.length = 4 ∧
      Runs.Along Rig.step Undisturbed brisk oneCallRun ∧
      InStep (Runs.run Rig.step brisk oneCallRun) :=
  ⟨by decide +kernel, by decide +kernel,
    in_step briskPolicy (by decide) .A "device-1" "alice" { spool := {} } oneCallRun
      (by decide +kernel)⟩

def signOutRun : List (PipeEvent Int) :=
  [.openPinned headset, .sessionState true, slice 1 "call-1", .block .signedOut, .unblock,
    slice 1 "call-2", slice 1 "call-2"]

/-- The second call is started on top of the first, which is never ended. -/
theorem signOutRun_overlaps : ¬ InStep (Runs.run Rig.step brisk signOutRun) := by
  decide +kernel

end Sentinel.Capture
