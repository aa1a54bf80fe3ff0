import Sentinel.Capture.Pipeline

/-!
# What a capture step does

Each function of a capture step gets one specification, for the case that the codec and the spool do
not fail: a step reads (`Reads`), and then either stops, or listens and acts on one transition
(`Applied`), spools what an open call has ready (`Drains`) and bounds the pre-roll.
-/

open List Option

namespace Sentinel.Capture

open Faults (Budget)

variable {α : Type} {dsp : Dsp α}

/-! ## Pipes -/

namespace Pipeline

variable {ch : Channel}

@[simp] theorem pipe_setPipe_self (p : Pipeline dsp) (q : Option (ChannelPipe dsp ch)) :
    (p.setPipe q).pipe ch = q := by
  cases ch <;> rfl

theorem pipe_setPipe_ne (p : Pipeline dsp) {ch' : Channel} (q : Option (ChannelPipe dsp ch))
    (h : ch' ≠ ch) : (p.setPipe q).pipe ch' = p.pipe ch' := by
  cases ch <;> cases ch' <;> first | rfl | exact absurd rfl h

theorem mem_pipe_boundPreroll {p : Pipeline dsp} {q : ChannelPipe dsp ch}
    (hq : q ∈ p.boundPreroll.pipe ch) : ∃ q0 ∈ p.pipe ch, q = q0.trim p.keepsPreroll := by
  cases ch <;>
  · obtain ⟨q0, hq0, rfl⟩ := mem_map.1 hq
    exact ⟨q0, hq0, rfl⟩

theorem forall_setPipe {p : Pipeline dsp} {P : (ch : Channel) → ChannelPipe dsp ch → Prop}
    (h : ∀ ch, ∀ q ∈ p.pipe ch, P ch q) {q : ChannelPipe dsp ch} (hq : P ch q) :
    ∀ ch', ∀ q' ∈ (p.setPipe (some q)).pipe ch', P ch' q' := by
  intro ch' q' hq'
  by_cases hne : ch' = ch
  · subst hne
    rw [pipe_setPipe_self] at hq'
    exact some.inj hq' ▸ hq
  · exact h ch' q' (pipe_setPipe_ne p (some q) hne ▸ hq')

structure SameButPipes (p p' : Pipeline dsp) : Prop where
  detector : p'.detector = p.detector
  clockMs : p'.clockMs = p.clockMs
  currentCall : p'.currentCall = p.currentCall
  userUid : p'.userUid = p.userUid

namespace SameButPipes

theorem refl (p : Pipeline dsp) : SameButPipes p p := ⟨rfl, rfl, rfl, rfl⟩

theorem trans {p p' p'' : Pipeline dsp} (h : SameButPipes p p') (h' : SameButPipes p' p'') :
    SameButPipes p p'' :=
  ⟨h'.detector.trans h.detector, h'.clockMs.trans h.clockMs, h'.currentCall.trans h.currentCall,
    h'.userUid.trans h.userUid⟩

theorem setPipe (p : Pipeline dsp) {ch : Channel} (q : Option (ChannelPipe dsp ch)) :
    SameButPipes p (p.setPipe q) := by
  cases ch <;> exact ⟨rfl, rfl, rfl, rfl⟩

end SameButPipes

end Pipeline

def ChannelPipe.Fed {ch : Channel} (samples : List α) (q q' : ChannelPipe dsp ch) : Prop :=
  ∃ fed out, (∀ a ∈ fed, a ∈ samples) ∧ Encodes q.encoder q'.encoder fed out ∧
    q'.ready = q.ready ++ out ∧ out.length ≤ 1

theorem ChannelPipe.Fed.refl {ch : Channel} (samples : List α) (q : ChannelPipe dsp ch) :
    q.Fed samples q :=
  ⟨[], [], nofun, .refl _, (append_nil _).symm, Nat.zero_le _⟩

theorem ChannelPipe.Fed.mark {ch : Channel} {samples : List α} {q q' : ChannelPipe dsp ch}
    (h : q.Fed samples q') : q.Fed samples { q' with encoder := q'.encoder.markForeign } := by
  obtain ⟨fed, out, hfed, henc, hready, hout⟩ := h
  exact ⟨fed, out, hfed, ⟨henc.nextSeq, henc.seqs, henc.pcm⟩, hready, hout⟩

def ChannelPipe.Emptied [Inhabited α] {ch : Channel} (segs : List (Segment α ch))
    (q q' : ChannelPipe dsp ch) : Prop :=
  ∃ silence tail, (∀ a ∈ silence, a = default) ∧ Encodes q.encoder q'.encoder silence tail ∧
    segs = q.ready ++ tail ∧ q'.ready = []

/-! ## Reading -/

def StepEnv.samples (env : StepEnv α) : Channel → List α
  | .far => env.far.getD []
  | .near => env.near.getD []

structure Reads (samples : Channel → List α) (w w' : Work dsp) : Prop where
  budget : w'.budget = w.budget
  book : w'.book = w.book
  same : w.pipeline.SameButPipes w'.pipeline
  fed : ∀ ch, ∀ q' ∈ w'.pipeline.pipe ch, ∃ q ∈ w.pipeline.pipe ch, q.Fed (samples ch) q'

theorem Reads.refl (samples : Channel → List α) (w : Work dsp) : Reads samples w w :=
  ⟨rfl, rfl, .refl _, fun _ q hq => ⟨q, hq, .refl _ q⟩⟩

namespace Work

variable {w : Work dsp} {read : Option (List α)} {ch : Channel}

def sampled (w : Work dsp) (env : StepEnv α) : Option (Work dsp × Nat) :=
  match w.readChannel .far env.far with
  | .error _ => none
  | .ok far =>
    match far.2.readChannel .near env.near with
    | .error _ => none
    | .ok near => if far.1 = 0 ∧ near.1 = 0 then none else some (near.2, max far.1 near.1)

structure Pushed (ch : Channel) (samples : List α) (w w' : Work dsp) : Prop where
  book : w'.book = w.book
  same : w.pipeline.SameButPipes w'.pipeline
  budget : w.budget = none → w'.budget = none
  other : ∀ ch' ≠ ch, w'.pipeline.pipe ch' = w.pipeline.pipe ch'
  pipe : ∀ q' ∈ w'.pipeline.pipe ch, ∃ q ∈ w.pipeline.pipe ch, ∃ out,
    (q.encoder.pushSamples samples w.budget).out = some out ∧
    q'.encoder = (q.encoder.pushSamples samples w.budget).enc ∧ q'.ready = q.ready ++ out

theorem readChannel_pushed {n : Nat} {w' : Work dsp} (h : w.readChannel ch read = .ok (n, w')) :
    Pushed ch ((read.getD []).take readSamples) w w' := by
  unfold readChannel at h
  split at h
  · rename_i hnone
    cases h
    refine ⟨rfl, .refl _, id, fun _ _ => rfl, fun q' hq' => ?_⟩
    cases hnone.symm.trans hq'
  rename_i q hq
  split at h
  · cases h
  dsimp only at h
  split at h
  · rename_i hempty
    cases h
    refine ⟨rfl, .refl _, id, fun _ _ => rfl, fun q' hq' => ⟨q', hq', [], ?_⟩⟩
    rw [getD_some, isEmpty_iff.mp hempty]
    exact ⟨rfl, rfl, (append_nil _).symm⟩
  split at h
  · cases h
  rename_i finished hfinished
  cases h
  refine ⟨rfl, .setPipe _ _, fun hb => ?_, fun _ hne => Pipeline.pipe_setPipe_ne _ _ hne,
    fun q' hq' => ⟨q, hq, ?_⟩⟩
  · rw [hb]
    exact (SegmentEncoder.pushSamples_none _ _).1
  rw [Pipeline.pipe_setPipe_self] at hq'
  obtain rfl := some.inj hq'
  exact ⟨finished, hfinished, rfl, rfl⟩

theorem readChannel_failed (hb : w.budget = none) {w' : Work dsp}
    (h : w.readChannel ch read = .error w') : w' = w ∧ read = none := by
  unfold readChannel at h
  split at h
  · cases h
  rename_i q hq
  split at h
  · cases h
    exact ⟨rfl, rfl⟩
  dsimp only at h
  split at h
  · cases h
  rename_i available _
  obtain ⟨-, out, hout⟩ := q.encoder.pushSamples_none (available.take readSamples)
  rw [hb, hout] at h
  cases h

theorem Pushed.fed {w' : Work dsp} (hb : w.budget = none)
    (h : Pushed ch ((read.getD []).take readSamples) w w') :
    ∀ q' ∈ w'.pipeline.pipe ch, ∃ q ∈ w.pipeline.pipe ch, q.Fed (read.getD []) q' := by
  intro q' hq'
  obtain ⟨q, hq, out, hout, henc, hready⟩ := h.pipe q' hq'
  rw [hb] at hout henc
  obtain ⟨hcodes, hfull⟩ := SegmentEncoder.pushSamples_spec hout
  rw [← henc] at hcodes
  exact ⟨q, hq, _, out, fun a ha => mem_of_mem_take ha, hcodes, hready,
    SegmentEncoder.length_out_le_one hcodes hfull (length_take_le _ _)⟩

variable [Inhabited α]

inductive Proceeds (env : StepEnv α) (w : Work dsp) :
    Option (Work dsp × Nat) → Except (Work dsp) (Work dsp) → Prop
  | farFailed {w1 : Work dsp} (hfar : w.readChannel .far env.far = .error w1) :
      Proceeds env w none (.error w1)
  | nearFailed {n : Nat} {w1 w2 : Work dsp} (hfar : w.readChannel .far env.far = .ok (n, w1))
      (hnear : w1.readChannel .near env.near = .error w2) : Proceeds env w none (.error w2)
  | idle {n m : Nat} {w1 w2 : Work dsp} (hfar : w.readChannel .far env.far = .ok (n, w1))
      (hnear : w1.readChannel .near env.near = .ok (m, w2)) : Proceeds env w none (.ok w2)
  | listened {n m : Nat} {w1 w2 : Work dsp} (hfar : w.readChannel .far env.far = .ok (n, w1))
      (hnear : w1.readChannel .near env.near = .ok (m, w2)) :
      Proceeds env w (some (w2, max n m))
        ({ w2 with pipeline := (w2.pipeline.listen (max n m)).1 }.act env
          (w2.pipeline.listen (max n m)).2)

theorem step_proceeds (env : StepEnv α) (w : Work dsp) :
    w.Proceeds env (w.sampled env) (w.step env) := by
  unfold step sampled
  cases hfar : w.readChannel .far env.far with
  | error w1 => exact .farFailed hfar
  | ok far =>
    change Proceeds env w _ ((far.2.readChannel .near env.near).bind _)
    dsimp only
    cases hnear : far.2.readChannel .near env.near with
    | error w2 => exact .nearFailed hfar hnear
    | ok near =>
      change Proceeds env w _ (if far.1 = 0 ∧ near.1 = 0 then .ok near.2 else _)
      by_cases hzero : far.1 = 0 ∧ near.1 = 0
      · simp only [hzero, and_self, if_true]
        exact .idle hfar hnear
      simp only [hzero, if_false]
      exact .listened hfar hnear

theorem step_reads (hb : w.budget = none) (env : StepEnv α) : ∃ w', Reads env.samples w w' ∧
      (w.step env = .ok w' ∨ w.step env = .error w' ∨ ∃ n, w.step env =
          { w' with pipeline := (w'.pipeline.listen n).1 }.act env (w'.pipeline.listen n).2) := by
  have hboth : ∀ {n m : Nat} {w1 w2 : Work dsp}, w.readChannel .far env.far = .ok (n, w1) →
      w1.readChannel .near env.near = .ok (m, w2) → Reads env.samples w w2 := by
    intro n m w1 w2 hfar hnear
    have h1 := readChannel_pushed hfar
    have h2 := readChannel_pushed hnear
    have hb1 := h1.budget hb
    refine ⟨(h2.budget hb1).trans hb.symm, h2.book.trans h1.book, h1.same.trans h2.same,
      fun ch q' hq' => ?_⟩
    cases ch with
    | far => exact h1.fed hb q' (h2.other .far (by decide) ▸ hq')
    | near => exact h1.other .near (by decide) ▸ h2.fed hb1 q' hq'
  have hstep := step_proceeds env w
  generalize w.step env = result, w.sampled env = heard at hstep
  cases hstep with
  | farFailed hfar =>
    obtain ⟨rfl, -⟩ := readChannel_failed hb hfar
    exact ⟨_, .refl _ _, .inr (.inl rfl)⟩
  | nearFailed hfar hnear =>
    have h1 := readChannel_pushed hfar
    obtain ⟨rfl, -⟩ := readChannel_failed (h1.budget hb) hnear
    refine ⟨_, ⟨(h1.budget hb).trans hb.symm, h1.book, h1.same, fun ch q' hq' => ?_⟩,
      .inr (.inl rfl)⟩
    cases ch with
    | far => exact h1.fed hb q' hq'
    | near => exact ⟨q', h1.other .near (by decide) ▸ hq', .refl _ q'⟩
  | idle hfar hnear => exact ⟨_, hboth hfar hnear, .inl rfl⟩
  | listened hfar hnear => exact ⟨_, hboth hfar hnear, .inr (.inr ⟨_, rfl⟩)⟩

end Work

/-! ## Listening -/

namespace Detector

theorem hear_keeps (d : Detector) (now : Nat) (far near : Bool) :
    (d.hear now far near).1.nowMs = now ∧ (d.hear now far near).1.cfg = d.cfg :=
  ⟨feed_nowMs _ _ _, (feed_cfg _ _ _).trans (feed_cfg _ _ _)⟩

theorem hear_settled (d : Detector) (hcfg : Timed d.cfg) (now : Nat) (far near : Bool) :
    (d.hear now far near).1.Settled := by
  change ((d.feed now (.farVoice far)).1.feed now (.nearVoice near)).1.Settled
  rw [feed_of_evaluated rfl]
  refine evaluate_settled _ ?_
  rwa [(noted_keeps _ _ _).2.2, feed_cfg]

end Detector

structure Listens (p p' : Pipeline dsp) (t : Transition) : Prop where
  heard : Detector.Heard p.detector.cfg p.detector.state p'.detector.state t
  clock : p'.detector.nowMs = p'.clockMs
  settled : Detector.Timed p.detector.cfg → p'.detector.Settled
  cfg : p'.detector.cfg = p.detector.cfg
  currentCall : p'.currentCall = p.currentCall
  userUid : p'.userUid = p.userUid

theorem listen_listens (p : Pipeline dsp) (n : Nat) : Listens p (p.listen n).1 (p.listen n).2 where
  heard := Detector.hear_heard ..
  clock := (Detector.hear_keeps ..).1
  settled hcfg := Detector.hear_settled _ hcfg ..
  cfg := (Detector.hear_keeps ..).2
  currentCall := rfl
  userUid := rfl

theorem forall_listen {P : (ch : Channel) → ChannelPipe dsp ch → Prop} {p : Pipeline dsp}
    (h : ∀ ch, ∀ q ∈ p.pipe ch, P ch q)
    (hmark : ∀ q, P .far q → P .far { q with encoder := q.encoder.markForeign }) (n : Nat) :
    ∀ ch, ∀ q ∈ (p.listen n).1.pipe ch, P ch q := by
  intro ch q hq
  cases ch with
  | near => exact h .near q hq
  | far =>
    simp only [Pipeline.pipe, Pipeline.listen] at hq
    split at hq
    · obtain ⟨q1, hq1, rfl⟩ := mem_map.1 hq
      exact hmark q1 (h .far q1 hq1)
    · exact h .far q hq

/-! ## Spooling -/

def entriesOf {ch : Channel} (callId : CallId) (clockMs : Nat) (segs : List (Segment α ch)) :
    List (Entry α) :=
  segs.map fun seg => .spooled (toRow callId seg clockMs) seg.pcm

def Recorder.Unsealed (book : Recorder α) (callId : CallId) : Prop :=
  book.uplink.spool.isSealed callId = false

namespace Work

structure Spooled {ch : Channel} (callId : CallId) (segs : List (Segment α ch))
    (w w' : Work dsp) : Prop where
  budget : w'.budget = none
  same : w.pipeline.SameButPipes w'.pipeline
  pipe : ∀ ch', w'.pipeline.pipe ch' = w.pipeline.pipe ch'
  log : w'.book.log = w.book.log ++ entriesOf callId w.pipeline.clockMs segs
  unsealed : ∀ c, w.book.Unsealed c → w'.book.Unsealed c

theorem pushSegment_of_unsealed {u : Uplink} (row : SegmentRow)
    (h : u.spool.isSealed row.1.callId = false) :
    ∃ u', u.pushSegment row = .ok u' ∧ ∀ c, u'.spool.isSealed c = u.spool.isSealed c := by
  obtain ⟨s', ev, hpush⟩ : ∃ s' ev, u.spool.push row = .ok (s', ev) := by
    unfold Spool.push
    rw [if_neg (by simp [h])]
    exact ⟨_, _, rfl⟩
  have hcalls := (Spool.push_ok hpush).2.1
  refine ⟨_, by rw [Uplink.pushSegment, hpush], fun c => ?_⟩
  simp only [Spool.isSealed, hcalls]

variable {w : Work dsp} {callId : CallId} {ch : Channel}

theorem spool_ok (hb : w.budget = none) (hs : w.book.Unsealed callId) (seg : Segment α ch) :
    ∃ w', w.spool callId seg = .ok w' ∧ Spooled callId [seg] w w' := by
  obtain ⟨u', hu, hsealed⟩ :=
    pushSegment_of_unsealed (toRow callId seg w.pipeline.clockMs) hs
  unfold spool
  simp only [hb, Budget.spend, hu]
  refine ⟨_, rfl, rfl, ⟨rfl, rfl, rfl, rfl⟩, fun ch' => ?_, rfl, fun c hc => (hsealed c).trans hc⟩
  cases ch' <;> rfl

theorem spoolAll_ok (hb : w.budget = none) (hs : w.book.Unsealed callId)
    (segs : List (Segment α ch)) :
    ∃ w', w.spoolAll callId segs = .ok w' ∧ Spooled callId segs w w' := by
  induction segs generalizing w with
  | nil =>
    exact ⟨w, rfl, hb, .refl _, fun _ => rfl, (append_nil _).symm, fun _ h => h⟩
  | cons seg rest ih =>
    obtain ⟨w1, hw1, h1⟩ := spool_ok hb hs seg
    obtain ⟨w2, hw2, h2⟩ := ih h1.budget (h1.unsealed _ hs)
    refine ⟨w2, by rw [spoolAll, hw1]; exact hw2, h2.budget, h1.same.trans h2.same,
      fun ch' => (h2.pipe ch').trans (h1.pipe ch'), ?_,
      fun c hc => h2.unsealed c (h1.unsealed c hc)⟩
    rw [h2.log, h1.log, h1.same.clockMs, append_assoc]
    rfl

structure Moved [Inhabited α] (callId : CallId) (ch : Channel) (segs : List (Segment α ch))
    (w w' : Work dsp) : Prop where
  budget : w'.budget = none
  same : w.pipeline.SameButPipes w'.pipeline
  other : ∀ ch' ≠ ch, w'.pipeline.pipe ch' = w.pipeline.pipe ch'
  pipe : (w.pipeline.pipe ch = none ∧ w'.pipeline.pipe ch = none ∧ segs = []) ∨
    ∃ q q', w.pipeline.pipe ch = some q ∧ w'.pipeline.pipe ch = some q' ∧ q.Emptied segs q'
  log : w'.book.log = w.book.log ++ entriesOf callId w.pipeline.clockMs segs
  unsealed : ∀ c, w.book.Unsealed c → w'.book.Unsealed c

theorem restartChannel_ok (hb : w.budget = none) (ch : Channel) :
    ∃ w', w.restartChannel ch = .ok w' ∧ w'.budget = none ∧ w'.book = w.book ∧
      w.pipeline.SameButPipes w'.pipeline ∧
      (∀ ch' ≠ ch, w'.pipeline.pipe ch' = w.pipeline.pipe ch') ∧
      ∀ q' ∈ w'.pipeline.pipe ch, ∃ q, q' = ChannelPipe.restart q := by
  unfold restartChannel
  cases hq : w.pipeline.pipe ch with
  | none => exact ⟨w, rfl, hb, rfl, .refl _, fun _ _ => rfl, by simp [hq]⟩
  | some q =>
    simp only [hb, Budget.spend]
    refine ⟨_, rfl, rfl, rfl, .setPipe _ _, fun ch' hne => Pipeline.pipe_setPipe_ne _ _ hne,
      fun q' hq' => ⟨q, ?_⟩⟩
    rw [Pipeline.pipe_setPipe_self] at hq'
    exact (some.inj hq').symm

variable [Inhabited α]

theorem moved_of_emptied {q : ChannelPipe dsp ch} {segs : List (Segment α ch)}
    (hs : w.book.Unsealed callId) (hq : w.pipeline.pipe ch = some q) (q' : ChannelPipe dsp ch)
    (hempty : q.Emptied segs q') {b : Budget} (hb : b = none) :
    ∃ w', spoolAll callId segs
        { w with pipeline := w.pipeline.setPipe (some q'), budget := b } = .ok w' ∧
      Moved callId ch segs w w' := by
  have hsame := Pipeline.SameButPipes.setPipe w.pipeline (some q')
  obtain ⟨w', hw', h⟩ := spoolAll_ok (w := { w with
    pipeline := w.pipeline.setPipe (some q'), budget := b }) hb hs segs
  refine ⟨w', hw', h.budget, hsame.trans h.same, fun ch' hne => ?_,
    .inr ⟨q, q', hq, ?_, hempty⟩, h.log.trans (by rw [hsame.clockMs]), h.unsealed⟩
  · exact (h.pipe ch').trans (Pipeline.pipe_setPipe_ne _ _ hne)
  · exact (h.pipe ch).trans (Pipeline.pipe_setPipe_self _ _)

theorem moved_of_none (hb : w.budget = none) (hq : w.pipeline.pipe ch = none) :
    Moved callId ch [] w w :=
  ⟨hb, .refl _, fun _ _ => rfl, .inl ⟨hq, hq, rfl⟩, (append_nil _).symm, fun _ h => h⟩

theorem drainChannel_ok (hb : w.budget = none) (hs : w.book.Unsealed callId) (ch : Channel) :
    ∃ w' segs, w.drainChannel callId ch = .ok w' ∧ Moved callId ch segs w w' := by
  unfold drainChannel
  cases hq : w.pipeline.pipe ch with
  | none => exact ⟨w, [], rfl, moved_of_none hb hq⟩
  | some q =>
    obtain ⟨w', hw', h⟩ := moved_of_emptied hs hq { q with ready := [] }
      ⟨[], [], nofun, .refl _, (append_nil _).symm, rfl⟩ hb
    exact ⟨w', q.ready, hw', h⟩

theorem flushChannel_ok (hb : w.budget = none) (hs : w.book.Unsealed callId) (ch : Channel) :
    ∃ w' segs, w.flushChannel callId ch = .ok w' ∧ Moved callId ch segs w w' := by
  unfold flushChannel
  cases hq : w.pipeline.pipe ch with
  | none => exact ⟨w, [], rfl, moved_of_none hb hq⟩
  | some q =>
    obtain ⟨hbudget, tail, htail⟩ := q.encoder.flush_none
    obtain ⟨silence, hsilence, henc⟩ := SegmentEncoder.flush_spec htail
    obtain ⟨w', hw', h⟩ := moved_of_emptied hs hq
      { q with ready := [], encoder := (q.encoder.flush none).enc }
      ⟨silence, tail, hsilence, henc, rfl, rfl⟩ hbudget
    simp only [hb, htail]
    exact ⟨w', _, hw', h⟩

structure MovedBoth (callId : CallId) (segs : (ch : Channel) → List (Segment α ch))
    (w w' : Work dsp) : Prop where
  budget : w'.budget = none
  same : w.pipeline.SameButPipes w'.pipeline
  pipe : ∀ ch, (w.pipeline.pipe ch = none ∧ w'.pipeline.pipe ch = none ∧ segs ch = []) ∨
    ∃ q q', w.pipeline.pipe ch = some q ∧ w'.pipeline.pipe ch = some q' ∧ q.Emptied (segs ch) q'
  log : w'.book.log = w.book.log ++ (entriesOf callId w.pipeline.clockMs (segs .far) ++
    entriesOf callId w.pipeline.clockMs (segs .near))
  unsealed : ∀ c, w.book.Unsealed c → w'.book.Unsealed c

def both (far : List (Segment α .far)) (near : List (Segment α .near)) :
    (ch : Channel) → List (Segment α ch)
  | .far => far
  | .near => near

theorem Moved.both {w1 w2 : Work dsp} {far : List (Segment α .far)} {near : List (Segment α .near)}
    (h1 : Moved callId .far far w w1) (h2 : Moved callId .near near w1 w2) :
    MovedBoth callId (Work.both far near) w w2 where
  budget := h2.budget
  same := h1.same.trans h2.same
  pipe ch := by
    cases ch with
    | far =>
      have hother := h2.other .far (by decide)
      simpa only [Work.both, hother] using h1.pipe
    | near =>
      have hother := h1.other .near (by decide)
      simpa only [Work.both, hother] using h2.pipe
  log := by rw [h2.log, h1.log, h1.same.clockMs, append_assoc]; rfl
  unsealed c hc := h2.unsealed c (h1.unsealed c hc)

inductive Drains (w w' : Work dsp) : Prop
  | idle (hcall : w.pipeline.currentCall = none) (h : w' = w)
  | call (call : CurrentCall) (segs : (ch : Channel) → List (Segment α ch))
      (hcall : w.pipeline.currentCall = some call) (h : MovedBoth call.callId segs w w')

theorem drainEncoders_ok (hb : w.budget = none)
    (hs : ∀ call ∈ w.pipeline.currentCall, w.book.Unsealed call.callId) :
    ∃ w', w.drainEncoders = .ok w' ∧ Drains w w' := by
  unfold drainEncoders
  cases hcall : w.pipeline.currentCall with
  | none => exact ⟨w, rfl, .idle hcall rfl⟩
  | some call =>
    have hs := hs call hcall
    obtain ⟨w1, far, hw1, h1⟩ := drainChannel_ok hb hs .far
    obtain ⟨w2, near, hw2, h2⟩ := drainChannel_ok h1.budget (h1.unsealed _ hs) .near
    exact ⟨w2, by simp only [hw1]; exact hw2, .call call _ hcall (h1.both h2)⟩

/-! ## Acting on a transition -/

inductive Applied (env : StepEnv α) (w w' : Work dsp) : Transition → Prop
  | restarted {t : Transition} (ht : t = .armed ∨ t = .armDiscarded)
      (hsame : w.pipeline.SameButPipes w'.pipeline) (hbook : w'.book = w.book)
      (hpipe : ∀ ch, ∀ q' ∈ w'.pipeline.pipe ch, ∃ q, q' = ChannelPipe.restart q) :
      Applied env w w' t
  | started (hcall : w'.pipeline.currentCall = some ⟨env.callId, env.startedAt⟩)
      (hdetector : w'.pipeline.detector = w.pipeline.detector)
      (hclock : w'.pipeline.clockMs = w.pipeline.clockMs)
      (huser : w'.pipeline.userUid = w.pipeline.userUid)
      (hpipe : ∀ ch, w'.pipeline.pipe ch = w.pipeline.pipe ch)
      (hlog : w'.book.log = w.book.log ++ [.started (w.pipeline.callStart env)]) :
      Applied env w w' .callStarted
  | ended (reason : EndReason) (call : CurrentCall) (segs : (ch : Channel) → List (Segment α ch))
      (w1 : Work dsp) (ce : CallEnd) (hcall : w.pipeline.currentCall = some call)
      (hmoved : MovedBoth call.callId segs
        { w with pipeline := { w.pipeline with currentCall := none } } w1)
      (hpipeline : w'.pipeline = w1.pipeline) (hce : ce.callId = call.callId)
      (hlog : w'.book.log = w1.book.log ++ [.ended ce]) :
      Applied env w w' (.callEnded reason)
  | nothing {t : Transition} (harmed : t ≠ .armed) (hstarted : t ≠ .callStarted)
      (hended : ∀ r, t = .callEnded r → w.pipeline.currentCall = none) (h : w' = w) :
      Applied env w w' t

theorem restarted_ok (hb : w.budget = none) (env : StepEnv α) {t : Transition}
    (ht : t = .armed ∨ t = .armDiscarded) :
    ∃ w', (w.restartChannel .far).bind (fun w => w.restartChannel .near) = .ok w' ∧
      w'.budget = none ∧ Applied env w w' t := by
  obtain ⟨w1, hw1, hb1, hbook1, hsame1, -, hq1⟩ := restartChannel_ok hb .far
  obtain ⟨w2, hw2, hb2, hbook2, hsame2, hne2, hq2⟩ := restartChannel_ok hb1 .near
  refine ⟨w2, by rw [hw1]; exact hw2, hb2,
    .restarted ht (hsame1.trans hsame2) (hbook2.trans hbook1) fun ch q' hq' => ?_⟩
  cases ch with
  | far =>
    rw [hne2 .far (by decide)] at hq'
    exact hq1 q' hq'
  | near => exact hq2 q' hq'

theorem finishCall_ok (hb : w.budget = none)
    (hs : ∀ call ∈ w.pipeline.currentCall, w.book.Unsealed call.callId) (env : StepEnv α)
    (reason : EndReason) :
    ∃ w', w.finishCall env reason = .ok w' ∧ w'.budget = none ∧ w'.pipeline.currentCall = none ∧
      Applied env w w' (.callEnded reason) := by
  unfold finishCall
  cases hcall : w.pipeline.currentCall with
  | none => exact ⟨w, rfl, hb, hcall, .nothing nofun nofun (fun _ _ => hcall) rfl⟩
  | some call =>
    have hs := hs call hcall
    obtain ⟨w1, far, hw1, h1⟩ := flushChannel_ok
      (w := { w with pipeline := { w.pipeline with currentCall := none } }) hb hs .far
    obtain ⟨w2, near, hw2, h2⟩ := flushChannel_ok h1.budget (h1.unsealed _ hs) .near
    have hboth := h1.both h2
    simp only [hw1, hw2, Except.bind, recordEnd, h2.budget, Budget.spend]
    exact ⟨_, rfl, rfl, hboth.same.currentCall, .ended reason call _ w2 _ hcall hboth rfl rfl rfl⟩

theorem applyTransition_ok (hb : w.budget = none)
    (hs : ∀ call ∈ w.pipeline.currentCall, w.book.Unsealed call.callId) {env : StepEnv α}
    (hmint : w.book.Unsealed env.callId) (t : Transition) :
    ∃ w', w.applyTransition env t = .ok w' ∧ w'.budget = none ∧
      (∀ call ∈ w'.pipeline.currentCall, w'.book.Unsealed call.callId) ∧ Applied env w w' t := by
  have hrestart : ∀ t, t = .armed ∨ t = .armDiscarded →
      ∃ w', (w.restartChannel .far).bind (fun w => w.restartChannel .near) = .ok w' ∧
        w'.budget = none ∧ (∀ call ∈ w'.pipeline.currentCall, w'.book.Unsealed call.callId) ∧
        Applied env w w' t := by
    intro t ht
    obtain ⟨w', hw', hb', h⟩ := restarted_ok hb env ht
    refine ⟨w', hw', hb', fun call hcall => ?_, h⟩
    cases h with
    | restarted _ hsame hbook _ =>
      rw [hbook]
      exact hs call (by rwa [← hsame.currentCall])
    | nothing harmed _ _ h => exact h ▸ hs call (h ▸ hcall)
    | started | ended => cases ht <;> contradiction
  cases t with
  | armed => exact hrestart _ (.inl rfl)
  | armDiscarded => exact hrestart _ (.inr rfl)
  | callStarted =>
    simp only [applyTransition, startCall, hb, Budget.spend]
    refine ⟨_, rfl, rfl, fun call hcall => ?_, .started rfl rfl rfl rfl (fun ch => ?_) rfl⟩
    · obtain rfl := some.inj hcall
      exact (Spool.isSealed_beginCall _ _ _ _ _).trans hmint
    · cases ch <;> rfl
  | callEnded reason =>
    obtain ⟨w', hw', hb', hnone, h⟩ := finishCall_ok hb hs env reason
    exact ⟨w', hw', hb', by simp [hnone], h⟩
  | none | wrapStarted | blocked reason | unblocked =>
    exact ⟨w, rfl, hb, hs, .nothing nofun nofun nofun rfl⟩

theorem act_ok (hb : w.budget = none)
    (hs : ∀ call ∈ w.pipeline.currentCall, w.book.Unsealed call.callId) {env : StepEnv α}
    (hmint : w.book.Unsealed env.callId) (t : Transition) :
    ∃ w1 w2 res, w.act env t = .ok { w2 with pipeline := w2.pipeline.boundPreroll, result := res } ∧
      Applied env w w1 t ∧ Drains w1 w2 := by
  obtain ⟨w1, hw1, hb1, hs1, h1⟩ := applyTransition_ok hb hs hmint t
  obtain ⟨w2, hw2, h2⟩ := drainEncoders_ok hb1 hs1
  unfold act
  rw [hw1]
  exact ⟨w1, w2, _, by simp only [Except.bind, hw2]; rfl, h1, h2⟩

end Work

/-! ## Opening -/

inductive Opened (env : Pipeline.OpenEnv) (p p' : Pipeline dsp) : Prop
  | failed (h : p' = p ∨ p' = { p with far := some {} })
  | opened (h : p' = { p with far := some {}, near := some {} }.feed .unblock)
  | missing (habsent : env.present = false)
      (h : p' = { p.feed (.block .pinnedDeviceMissing) with
        events := p.events ++ [p.deviceLostEvent] })

theorem openPinned_opened (p : Pipeline dsp) (env : Pipeline.OpenEnv) :
    Opened env p (p.openPinned env).1 := by
  unfold Pipeline.openPinned
  split
  · exact .failed (.inl rfl)
  split
  · split
    · exact .failed (.inl rfl)
    unfold Pipeline.openPipes
    split
    · exact .failed (.inl rfl)
    split
    · exact .failed (.inr rfl)
    · exact .opened rfl
  rename_i habsent
  exact .missing (Bool.eq_false_iff.2 habsent) rfl

theorem Opened.keeps {env : Pipeline.OpenEnv} {p p' : Pipeline dsp} (h : Opened env p p') :
    p'.currentCall = p.currentCall ∧ p'.clockMs = p.clockMs ∧ p'.userUid = p.userUid ∧
      (p'.detector.state = .armed → p.detector.state = .armed) ∧
      (p.detector.nowMs = p.clockMs → p'.detector.nowMs = p'.clockMs) := by
  rcases h with (rfl | rfl) | rfl | ⟨-, rfl⟩
  · exact ⟨rfl, rfl, rfl, id, id⟩
  · exact ⟨rfl, rfl, rfl, id, id⟩
  · exact ⟨rfl, rfl, rfl, Detector.armed_of_unblock, fun _ => Detector.feed_nowMs _ _ _⟩
  · exact ⟨rfl, rfl, rfl, nofun, fun _ => Detector.feed_nowMs _ _ _⟩

theorem forall_opened {P : (ch : Channel) → ChannelPipe dsp ch → Prop} {p p' : Pipeline dsp}
    (h : ∀ ch, ∀ q ∈ p.pipe ch, P ch q) (hnew : ∀ ch, P ch {}) {env : Pipeline.OpenEnv}
    (hopened : Opened env p p') : ∀ ch, ∀ q ∈ p'.pipe ch, P ch q := by
  have hnew : ∀ ch, ∀ q ∈ some ({} : ChannelPipe dsp ch), P ch q :=
    fun ch q hq => some.inj hq ▸ hnew ch
  rcases hopened with (rfl | rfl) | rfl | ⟨-, rfl⟩
  · exact h
  · exact Channel.rec (hnew .far) (h .near)
  · exact Channel.rec (hnew .far) (hnew .near)
  · exact Channel.rec (h .far) (h .near)

/-! ## A whole step -/

structure Smooth (r : Rig dsp) (env : StepEnv α) : Prop where
  budget : env.budget = none
  current : ∀ call ∈ r.pipeline.currentCall, r.book.Unsealed call.callId
  minted : r.book.Unsealed env.callId

inductive Captured [Inhabited α] (env : StepEnv α) (r r' : Rig dsp) : Prop
  | stopped (hbook : r'.book = r.book) (hsame : r.pipeline.SameButPipes r'.pipeline)
      (hfed : ∀ ch, ∀ q' ∈ r'.pipeline.pipe ch, ∃ q ∈ r.pipeline.pipe ch,
        q.Fed (env.samples ch) q')
  | acted (t : Transition) (w w1 w2 : Work dsp) (hbook : w.book = r.book)
      (hlistens : Listens r.pipeline w.pipeline t)
      (hfed : ∀ ch, ∀ q' ∈ w.pipeline.pipe ch, ∃ q ∈ r.pipeline.pipe ch,
        q.Fed (env.samples ch) q')
      (happlied : Work.Applied env w w1 t) (hdrains : Work.Drains w1 w2)
      (hr : r' = ⟨w2.pipeline.boundPreroll, w2.book⟩)

theorem capture_captured [Inhabited α] {r : Rig dsp} {env : StepEnv α} (h : Smooth r env) :
    Captured env r (r.capture env) := by
  obtain ⟨w, hreads, hstep⟩ :=
    Work.step_reads (w := ⟨r.pipeline, r.book, env.budget, {}⟩) h.budget env
  unfold Rig.capture
  rcases hstep with hok | herr | ⟨n, hact⟩
  · rw [hok]
    exact .stopped hreads.book hreads.same hreads.fed
  · rw [herr]
    exact .stopped hreads.book hreads.same hreads.fed
  have hlisten := listen_listens w.pipeline n
  obtain ⟨w1, w2, res, hw, happlied, hdrains⟩ := Work.act_ok
    (w := { w with pipeline := (w.pipeline.listen n).1 }) (hreads.budget.trans h.budget)
    (fun call hcall => by
      rw [hlisten.currentCall, hreads.same.currentCall] at hcall
      exact hreads.book ▸ h.current call hcall)
    (show w.book.Unsealed env.callId from hreads.book ▸ h.minted) (w.pipeline.listen n).2
  rw [hact, hw]
  have hdetector := hreads.same.detector
  refine .acted _ { w with pipeline := (w.pipeline.listen n).1 } w1 w2 hreads.book
    ⟨?_, hlisten.clock, ?_, ?_, ?_, ?_⟩
    (forall_listen hreads.fed (fun _ ⟨q, hq, hfed⟩ => ⟨q, hq, hfed.mark⟩) n) happlied hdrains rfl
  · exact hdetector ▸ hlisten.heard
  · exact hdetector ▸ hlisten.settled
  · exact hdetector ▸ hlisten.cfg
  · exact hlisten.currentCall.trans hreads.same.currentCall
  · exact hlisten.userUid.trans hreads.same.userUid

end Sentinel.Capture
