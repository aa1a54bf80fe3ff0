import Sentinel.Capture.Lockstep

/-!
# The sequence numbers of a call

A call's segments are to be numbered from zero on each channel, without a gap. The number is a
counter of the encoder, which is built anew where `step` acts on `armed`.
-/

open List Option

namespace Sentinel.Capture

variable {α : Type} {dsp : Dsp α}

/-! ## What the log has to say -/

def spooledSeqs (log : List (Entry α)) (c : CallId) (ch : Channel) : List Nat :=
  log.filterMap fun
    | .spooled row _ => if row.1.callId = c ∧ row.1.channel = ch then some row.1.seq else none
    | _ => none

def NumberedLog (log : List (Entry α)) : Prop :=
  ∀ c ch, spooledSeqs log c ch = List.range (spooledSeqs log c ch).length

def NumberedFromZero (r : Rig dsp) : Prop := NumberedLog r.book.log

def startedCalls (log : List (Entry α)) : List CallId :=
  log.filterMap fun
    | .started cs => some cs.callId
    | _ => none

@[simp] theorem spooledSeqs_append (log more : List (Entry α)) (c : CallId) (ch : Channel) :
    spooledSeqs (log ++ more) c ch = spooledSeqs log c ch ++ spooledSeqs more c ch :=
  filterMap_append

@[simp] theorem startedCalls_append (log more : List (Entry α)) :
    startedCalls (log ++ more) = startedCalls log ++ startedCalls more :=
  filterMap_append

theorem spooledSeqs_entriesOf {ch : Channel} (callId : CallId) (clockMs : Nat)
    (segs : List (Segment α ch)) (c : CallId) (ch' : Channel) :
    spooledSeqs (entriesOf callId clockMs segs) c ch' =
      if callId = c ∧ ch = ch' then segs.map (·.seq) else [] := by
  induction segs with
  | nil => simp [entriesOf, spooledSeqs]
  | cons seg rest ih =>
    by_cases h : callId = c ∧ ch = ch'
    · rw [if_pos h] at ih ⊢
      rw [map_cons, ← ih]
      exact filterMap_cons_some (if_pos h)
    rw [if_neg h] at ih ⊢
    rw [← ih]
    exact filterMap_cons_none (if_neg h)

@[simp] theorem startedCalls_entriesOf {ch : Channel} (callId : CallId) (clockMs : Nat)
    (segs : List (Segment α ch)) : startedCalls (entriesOf callId clockMs segs) = [] := by
  induction segs with
  | nil => rfl
  | cons seg rest ih => exact ih

theorem spooledSeqs_both (callId : CallId) (clockMs : Nat)
    (segs : (ch : Channel) → List (Segment α ch)) (c : CallId) (ch : Channel) :
    spooledSeqs (entriesOf callId clockMs (segs .far) ++ entriesOf callId clockMs (segs .near))
      c ch = if callId = c then (segs ch).map (·.seq) else [] := by
  rw [spooledSeqs_append, spooledSeqs_entriesOf, spooledSeqs_entriesOf]
  by_cases h : callId = c <;> cases ch <;> simp [h]

/-! ## Pipes that count on -/

def ChannelPipe.Continues {ch : Channel} (k : Nat) (q : ChannelPipe dsp ch) : Prop :=
  q.ready.map (·.seq) = List.range' k q.ready.length ∧
    q.encoder.nextSeq = k + q.ready.length

instance {ch : Channel} (k : Nat) (q : ChannelPipe dsp ch) : Decidable (q.Continues k) :=
  inferInstanceAs (Decidable (_ ∧ _))

abbrev ChannelPipe.FromZero {ch : Channel} (q : ChannelPipe dsp ch) : Prop := q.Continues 0

namespace ChannelPipe

variable {ch : Channel} {q q' : ChannelPipe dsp ch} {k : Nat}

theorem Continues.append (h : q.Continues k) {e : SegmentEncoder dsp ch} {samples : List α}
    {out : List (Segment α ch)} (henc : Encodes q.encoder e samples out) :
    (q.ready ++ out).map (·.seq) = range' k (q.ready ++ out).length ∧
      e.nextSeq = k + (q.ready ++ out).length := by
  constructor
  · rw [map_append, h.1, henc.seqs, h.2, length_append, range'_append_1]
  · rw [henc.nextSeq, h.2, length_append, Nat.add_assoc]

theorem Continues.fed {samples : List α} (h : q.Continues k) (hfed : q.Fed samples q') :
    q'.Continues k := by
  obtain ⟨fed, out, -, henc, hready, -⟩ := hfed
  unfold Continues
  rw [hready]
  exact h.append henc

theorem Continues.emptied [Inhabited α] {segs : List (Segment α ch)} (h : q.Continues k)
    (hempty : q.Emptied segs q') :
    segs.map (·.seq) = range' k segs.length ∧ q'.Continues (k + segs.length) := by
  obtain ⟨silence, tail, -, henc, rfl, hready⟩ := hempty
  obtain ⟨hseqs, hnext⟩ := h.append henc
  refine ⟨hseqs, ?_, ?_⟩
  · rw [hready]
    rfl
  rw [hnext, hready]
  rfl

theorem trim_eq (h : q.ready.length ≤ prerollMaxSegments) : q.trim true = q := by
  have hzero : q.ready.length - prerollMaxSegments = 0 := by omega
  simp [trim, hzero]

end ChannelPipe

/-! ## The runs in which it holds -/

def BeginsFresh (r : Rig dsp) (e : PipeEvent α) : Prop :=
  Undisturbed r e ∧
    match e with
    | .openPinned _ => r.pipeline.currentCall = none
    | .sessionState active => active = true → r.pipeline.detector.readyToArm = true →
        ∀ ch, ∀ q ∈ r.pipeline.pipe ch, q.FromZero
    | .step env => env.callId ∉ startedCalls r.book.log ∧
        (r.pipeline.detector.state = .armed →
          ∀ ch, ∀ q ∈ r.pipeline.pipe ch, q.ready.length < prerollMaxSegments)
    | _ => True

instance (r : Rig dsp) : ∀ e : PipeEvent α, Decidable (BeginsFresh r e)
  | .openPinned _ => inferInstanceAs (Decidable (_ ∧ _ = _))
  | .sessionState _ => inferInstanceAs (Decidable (_ ∧ (_ → _ → ∀ _, ∀ _ ∈ _, _)))
  | .step _ => inferInstanceAs (Decidable (_ ∧ _ ∉ _ ∧ (_ → ∀ _, ∀ _ ∈ _, _)))
  | .userChanged _ | .block _ | .unblock | .deviceLost | .takeEvents | .setAccountRef _
  | .uplink _ => inferInstanceAs (Decidable (_ ∧ True))

/-! ## The invariant -/

structure Tally (p : Pipeline dsp) (log : List (Entry α)) : Prop where
  numbered : NumberedLog log
  known : ∀ c ∉ startedCalls log, ∀ ch, spooledSeqs log c ch = []
  current : ∀ call ∈ p.currentCall, call.callId ∈ startedCalls log
  armed : p.detector.state = .armed → ∀ ch, ∀ q ∈ p.pipe ch, q.FromZero
  continues : ∀ call ∈ p.currentCall, ∀ ch, ∀ q ∈ p.pipe ch,
    q.Continues (spooledSeqs log call.callId ch).length

theorem range_append_range' {xs ys : List Nat} (hx : xs = range xs.length)
    (hy : ys = range' xs.length ys.length) : xs ++ ys = range (xs ++ ys).length :=
  calc xs ++ ys
      = range' 0 xs.length ++ range' (0 + xs.length) ys.length := by
        rw [Nat.zero_add, ← hy, ← range_eq_range', ← hx]
    _ = range' 0 (xs.length + ys.length) := range'_append_1
    _ = range (xs ++ ys).length := by rw [length_append, range_eq_range']

variable {w w' : Work dsp} {callId : CallId} {segs : (ch : Channel) → List (Segment α ch)}

theorem Work.MovedBoth.numbered [Inhabited α] (h : Work.MovedBoth callId segs w w')
    (hlog : NumberedLog w.book.log) (hpipe : ∀ ch, ∀ q ∈ w.pipeline.pipe ch,
      q.Continues (spooledSeqs w.book.log callId ch).length) :
    NumberedLog w'.book.log ∧ ∀ ch, ∀ q' ∈ w'.pipeline.pipe ch,
        q'.Continues (spooledSeqs w'.book.log callId ch).length ∧ q'.ready = [] := by
  have hseqs : ∀ c ch, spooledSeqs w'.book.log c ch = spooledSeqs w.book.log c ch ++
      if callId = c then (segs ch).map (·.seq) else [] := by
    intro c ch
    rw [h.log, spooledSeqs_append, spooledSeqs_both]
  refine ⟨fun c ch => ?_, fun ch q' hq' => ?_⟩
  · rw [hseqs]
    by_cases hc : callId = c
    · subst hc
      rw [if_pos rfl]
      refine range_append_range' (hlog callId ch) ?_
      rcases h.pipe ch with ⟨-, -, hnil⟩ | ⟨q, q', hq, -, hempty⟩
      · rw [hnil]
        rfl
      rw [length_map]
      exact ((hpipe ch q hq).emptied hempty).1
    rw [if_neg hc, append_nil]
    exact hlog c ch
  rcases h.pipe ch with ⟨-, hnone, -⟩ | ⟨q, q1, hq, hq1, hempty⟩
  · cases hnone.symm.trans hq'
  obtain rfl : q1 = q' := some.inj (hq1.symm.trans hq')
  refine ⟨?_, hempty.choose_spec.choose_spec.2.2.2⟩
  rw [hseqs, if_pos rfl, length_append, length_map]
  exact ((hpipe ch q hq).emptied hempty).2

theorem Work.MovedBoth.startedCalls_eq [Inhabited α] (h : Work.MovedBoth callId segs w w') :
    startedCalls w'.book.log = startedCalls w.book.log := by
  rw [h.log]
  simp

theorem Work.MovedBoth.known [Inhabited α] (h : Work.MovedBoth callId segs w w')
    (hknown : ∀ c ∉ startedCalls w.book.log, ∀ ch, spooledSeqs w.book.log c ch = [])
    (hcall : callId ∈ startedCalls w.book.log) :
    ∀ c ∉ startedCalls w'.book.log, ∀ ch, spooledSeqs w'.book.log c ch = [] := by
  intro c hc ch
  rw [h.startedCalls_eq] at hc
  have hne : callId ≠ c := fun heq => hc (heq ▸ hcall)
  rw [h.log, spooledSeqs_append, spooledSeqs_both, if_neg hne, hknown c hc, nil_append]

namespace Tally

variable {p p' : Pipeline dsp} {log : List (Entry α)}

theorem of_pipes (h : Tally p log) (hcall : p'.currentCall = p.currentCall)
    (harmed : p'.detector.state = .armed → ∀ ch, ∀ q ∈ p'.pipe ch, q.FromZero)
    (hpipe : ∀ call ∈ p.currentCall, ∀ ch, ∀ q' ∈ p'.pipe ch, ∃ q ∈ p.pipe ch,
      ∀ k, q.Continues k → q'.Continues k) : Tally p' log where
  numbered := h.numbered
  known := h.known
  current call hc := h.current call (hcall ▸ hc)
  armed := harmed
  continues call hc ch q' hq' := by
    rw [hcall] at hc
    obtain ⟨q, hq, hcont⟩ := hpipe call hc ch q' hq'
    exact hcont _ (h.continues call hc ch q hq)

theorem of_detector (h : Tally p log) (hcall : p'.currentCall = p.currentCall)
    (hpipe : ∀ ch, p'.pipe ch = p.pipe ch) (harmed : p'.detector.state = .armed →
      p.detector.state = .armed ∨ ∀ ch, ∀ q ∈ p.pipe ch, q.FromZero) : Tally p' log := by
  refine h.of_pipes hcall (fun hs ch q hq => ?_) fun _ _ ch q hq => ⟨q, hpipe ch ▸ hq, fun _ => id⟩
  rw [hpipe] at hq
  exact (harmed hs).elim (fun hs => h.armed hs ch q hq) fun hall => hall ch q hq

theorem of_idle (hnumbered : NumberedLog log)
    (hknown : ∀ c ∉ startedCalls log, ∀ ch, spooledSeqs log c ch = [])
    (hcall : p.currentCall = none)
    (harmed : p.detector.state = .armed → ∀ ch, ∀ q ∈ p.pipe ch, q.FromZero) : Tally p log where
  numbered := hnumbered
  known := hknown
  current := by simp [hcall]
  armed := harmed
  continues := by simp [hcall]

theorem append_ended (h : Tally p log) (ce : CallEnd) : Tally p (log ++ [.ended ce]) := by
  have hspooled : spooledSeqs (log ++ [.ended ce]) = spooledSeqs log := by
    funext c ch
    simp [spooledSeqs]
  have hstarted : startedCalls (log ++ [.ended ce]) = startedCalls log := by simp [startedCalls]
  refine ⟨?_, ?_, ?_, h.armed, ?_⟩
  · unfold NumberedLog
    exact hspooled ▸ h.numbered
  · exact hspooled ▸ hstarted ▸ h.known
  · exact hstarted ▸ h.current
  · exact hspooled ▸ h.continues

theorem append_started {call : CurrentCall} {cs : CallStart} (h : Tally p log)
    (hnew : call.callId ∉ startedCalls log) (hcs : cs.callId = call.callId)
    (hcall : p'.currentCall = some call) (hstate : p'.detector.state ≠ .armed)
    (hpipe : ∀ ch, ∀ q ∈ p'.pipe ch, q.FromZero) : Tally p' (log ++ [.started cs]) := by
  have hspooled : ∀ c ch, spooledSeqs (log ++ [.started cs]) c ch = spooledSeqs log c ch := by
    simp [spooledSeqs]
  have hstarted : startedCalls (log ++ [.started cs]) = startedCalls log ++ [call.callId] := by
    simp [startedCalls, hcs]
  refine ⟨fun c ch => ?_, fun c hc ch => ?_, fun call' hc => ?_, fun hs => absurd hs hstate,
    fun call' hc ch q hq => ?_⟩
  · rw [hspooled]
    exact h.numbered c ch
  · rw [hspooled]
    rw [hstarted, mem_append, not_or] at hc
    exact h.known c hc.1 ch
  · rw [hcall] at hc
    obtain rfl := some.inj hc
    rw [hstarted]
    simp
  rw [hcall] at hc
  obtain rfl := some.inj hc
  rw [hspooled, h.known _ hnew]
  exact hpipe ch q hq

theorem fed {samples : Channel → List α} (h : Tally p log) (hsame : p.SameButPipes p')
    (hfed : ∀ ch, ∀ q' ∈ p'.pipe ch, ∃ q ∈ p.pipe ch, q.Fed (samples ch) q') : Tally p' log := by
  refine h.of_pipes hsame.currentCall (fun hs ch q' hq' => ?_) fun _ _ ch q' hq' => ?_
  · obtain ⟨q, hq, hq'⟩ := hfed ch q' hq'
    exact (h.armed (hsame.detector ▸ hs) ch q hq).fed hq'
  obtain ⟨q, hq, hq'⟩ := hfed ch q' hq'
  exact ⟨q, hq, fun k hk => hk.fed hq'⟩

theorem boundPreroll (h : Tally p log)
    (hshort : (p.detector.state = .armed ∨ p.currentCall.isSome = true) →
      ∀ ch, ∀ q ∈ p.pipe ch, q.ready.length ≤ prerollMaxSegments) : Tally p.boundPreroll log := by
  have hpipe : (p.detector.state = .armed ∨ p.currentCall.isSome = true) →
      ∀ ch, ∀ q ∈ p.boundPreroll.pipe ch, q ∈ p.pipe ch := by
    intro hkeep ch q hq
    have hk : p.keepsPreroll = true := by simpa [Pipeline.keepsPreroll] using hkeep
    obtain ⟨q0, hq0, rfl⟩ := Pipeline.mem_pipe_boundPreroll hq
    rwa [hk, ChannelPipe.trim_eq (hshort hkeep ch q0 hq0)]
  refine h.of_pipes rfl (fun hs ch q hq => ?_) fun call hc ch q hq => ?_
  · exact h.armed hs ch q (hpipe (.inl hs) ch q hq)
  · exact ⟨q, hpipe (.inr (isSome_of_mem hc)) ch q hq, fun _ => id⟩

variable [Inhabited α]

theorem acted {env : StepEnv α} {r : Rig dsp} {t : Transition} {w w1 : Work dsp}
    (h : Tally r.pipeline r.book.log) (hlock : Lockstep r)
    (hnew : env.callId ∉ startedCalls r.book.log) (hroom : r.pipeline.detector.state = .armed →
      ∀ ch, ∀ q ∈ r.pipeline.pipe ch, q.ready.length < prerollMaxSegments)
    (hbook : w.book = r.book) (hlistens : Listens r.pipeline w.pipeline t)
    (hfed : ∀ ch, ∀ q' ∈ w.pipeline.pipe ch, ∃ q ∈ r.pipeline.pipe ch, q.Fed (env.samples ch) q')
    (happlied : Work.Applied env w w1 t) :
    Tally w1.pipeline w1.book.log ∧ (w1.pipeline.detector.state = .armed →
      ∀ ch, ∀ q ∈ w1.pipeline.pipe ch, q.ready.length ≤ prerollMaxSegments) := by
  have hheard := hlistens.heard
  have hcall := hlistens.currentCall
  cases happlied with
  | restarted ht hsame hbook1 hpipe =>
    have hidle : r.pipeline.detector.state.busy = false := by
      rcases ht with rfl | rfl
      · exact hheard.arms rfl
      rw [hheard.discards rfl]
      rfl
    have hnone : w1.pipeline.currentCall = none := by
      rw [hsame.currentCall, hcall, ← not_isSome_iff_eq_none, ← hlock.busy, hidle]
      decide
    have hfresh : ∀ ch, ∀ q ∈ w1.pipeline.pipe ch, q.FromZero ∧ q.ready = [] := by
      intro ch q hq
      obtain ⟨q0, rfl⟩ := hpipe ch q hq
      exact ⟨⟨rfl, rfl⟩, rfl⟩
    rw [hbook1, hbook]
    refine ⟨.of_idle h.numbered h.known hnone fun _ ch q hq => (hfresh ch q hq).1,
      fun _ ch q hq => ?_⟩
    rw [(hfresh ch q hq).2]
    exact Nat.zero_le _
  | started hcall1 hdetector hclock huser hpipe hlog1 =>
    obtain ⟨harmed, hbusy⟩ := hheard.started rfl
    have hnot : w1.pipeline.detector.state ≠ .armed := by
      rw [hdetector]
      intro hs
      rw [hs] at hbusy
      cases hbusy
    rw [hlog1, hbook]
    refine ⟨h.append_started hnew rfl hcall1 hnot fun ch q hq => ?_, fun hs => absurd hs hnot⟩
    obtain ⟨q0, hq0, hq⟩ := hfed ch q (hpipe ch ▸ hq)
    exact (h.armed harmed ch q0 hq0).fed hq
  | ended reason call segs w2 ce hcall1 hmoved hpipeline hce hlog1 =>
    have hnot : w1.pipeline.detector.state ≠ .armed := by
      rw [hpipeline, hmoved.same.detector]
      exact hheard.not_armed
    have hnone : w1.pipeline.currentCall = none := by rw [hpipeline, hmoved.same.currentCall]
    have hcallr : call ∈ r.pipeline.currentCall := hcall ▸ hcall1
    have hpipes : ∀ ch, ∀ q ∈ w.pipeline.pipe ch,
        q.Continues (spooledSeqs w.book.log call.callId ch).length := by
      intro ch q hq
      obtain ⟨q0, hq0, hq⟩ := hfed ch q hq
      rw [hbook]
      exact (h.continues call hcallr ch q0 hq0).fed hq
    have hnumbered := hmoved.numbered (hbook ▸ h.numbered)
      fun ch q hq => hpipes ch q (by cases ch <;> exact hq)
    have hknown := hmoved.known (hbook ▸ h.known) (hbook ▸ h.current call hcallr)
    have hidle : Tally w1.pipeline w2.book.log :=
      .of_idle hnumbered.1 hknown hnone fun hs => absurd hs hnot
    rw [hlog1]
    exact ⟨hidle.append_ended ce, fun hs => absurd hs hnot⟩
  | nothing harmed hstarted hended hw1 =>
    subst hw1
    have hs0 : w1.pipeline.detector.state = .armed → r.pipeline.detector.state = .armed :=
      fun hs => (hheard.armed hs).resolve_right harmed
    rw [hbook]
    refine ⟨h.of_pipes hcall (fun hs ch q hq => ?_) fun _ _ ch q hq => ?_, fun hs ch q hq => ?_⟩
    · obtain ⟨q0, hq0, hq⟩ := hfed ch q hq
      exact (h.armed (hs0 hs) ch q0 hq0).fed hq
    · obtain ⟨q0, hq0, hq⟩ := hfed ch q hq
      exact ⟨q0, hq0, fun k hk => hk.fed hq⟩
    obtain ⟨q0, hq0, fed, out, -, -, hready, hout⟩ := hfed ch q hq
    have hlt := hroom (hs0 hs) ch q0 hq0
    rw [hready, length_append]
    omega

theorem drains {w w' : Work dsp} (h : Tally w.pipeline w.book.log)
    (hlock : Lockstep ⟨w.pipeline, w.book⟩) (hdrains : Work.Drains w w')
    (hshort : w.pipeline.detector.state = .armed →
      ∀ ch, ∀ q ∈ w.pipeline.pipe ch, q.ready.length ≤ prerollMaxSegments) :
    Tally w'.pipeline w'.book.log ∧
      ((w'.pipeline.detector.state = .armed ∨ w'.pipeline.currentCall.isSome = true) →
        ∀ ch, ∀ q ∈ w'.pipeline.pipe ch, q.ready.length ≤ prerollMaxSegments) := by
  cases hdrains with
  | idle hcall hw =>
    subst hw
    refine ⟨h, fun hs => hshort (hs.resolve_right ?_)⟩
    simp [hcall]
  | call call segs hcall hmoved =>
    have hnumbered := hmoved.numbered h.numbered (h.continues call hcall)
    have hnot : w'.pipeline.detector.state ≠ .armed := by
      rw [hmoved.same.detector]
      intro hs
      have hbusy : w.pipeline.detector.state.busy = w.pipeline.currentCall.isSome := hlock.busy
      rw [hs, hcall] at hbusy
      cases hbusy
    refine ⟨⟨hnumbered.1, hmoved.known h.known (h.current call hcall), fun call' hc => ?_,
      fun hs => absurd hs hnot, fun call' hc ch q hq => ?_⟩, fun _ ch q hq => ?_⟩
    · rw [hmoved.startedCalls_eq]
      exact h.current call' (hmoved.same.currentCall ▸ hc)
    · rw [hmoved.same.currentCall, hcall] at hc
      obtain rfl := some.inj hc
      exact (hnumbered.2 ch q hq).1
    rw [(hnumbered.2 ch q hq).2]
    exact Nat.zero_le _

end Tally

structure Numbered (r : Rig dsp) : Prop where
  lockstep : Lockstep r
  tally : Tally r.pipeline r.book.log

namespace Numbered

theorem init {policy : Policy} (hcfg : Detector.Timed policy.vad) (tier : CaptureTier)
    (deviceId userUid : String) (u : Uplink) :
    Numbered (Rig.init policy tier deviceId userUid u : Rig dsp) where
  lockstep := .init hcfg tier deviceId userUid u
  tally := ⟨fun _ _ => rfl, fun _ _ _ => rfl, nofun, nofun, nofun⟩

variable {r : Rig dsp}

theorem openPinned {env : Pipeline.OpenEnv} (h : Numbered r)
    (hnone : r.pipeline.currentCall = none) : Tally (r.pipeline.openPinned env).1 r.book.log := by
  have hopened := openPinned_opened r.pipeline env
  obtain ⟨hcall, -, -, harmed, -⟩ := hopened.keeps
  refine h.tally.of_pipes hcall (fun hs => ?_) fun call hc => absurd hc (by simp [hnone])
  exact forall_opened (P := fun _ q => q.FromZero) (h.tally.armed (harmed hs))
    (fun _ => ⟨rfl, rfl⟩) hopened

theorem sessionState {active : Bool} (h : Numbered r)
    (hfresh : active = true → r.pipeline.detector.readyToArm = true →
      ∀ ch, ∀ q ∈ r.pipeline.pipe ch, q.FromZero) :
    Tally (r.pipeline.onSessionState active) r.book.log := by
  refine h.tally.of_detector rfl (fun ch => by cases ch <;> rfl) fun hs => ?_
  have hs : (r.pipeline.detector.feed r.pipeline.detector.nowMs
      (.sessionState active)).1.state = .armed := by rw [h.lockstep.clock]; exact hs
  exact (Detector.session_armed hs).imp id fun ⟨hactive, hready⟩ => hfresh hactive hready

variable [Inhabited α]

theorem capture {env : StepEnv α} (h : Numbered r) (he : BeginsFresh r (.step env)) :
    Tally (r.capture env).pipeline (r.capture env).book.log := by
  have hcaptured := capture_captured he.1
  generalize r.capture env = r' at hcaptured ⊢
  cases hcaptured with
  | stopped hbook hsame hfed => exact hbook ▸ h.tally.fed hsame hfed
  | acted t w w1 w2 hbook hlistens hfed happlied hdrains hr =>
    obtain ⟨htally, hshort⟩ :=
      h.tally.acted h.lockstep he.2.1 he.2.2 hbook hlistens hfed happlied
    obtain ⟨htally, hshort⟩ :=
      htally.drains (h.lockstep.acted hbook hlistens happlied) hdrains hshort
    rw [hr]
    exact htally.boundPreroll hshort

theorem step {e : PipeEvent α} (h : Numbered r) (he : BeginsFresh r e) : Numbered (r.step e) := by
  refine ⟨h.lockstep.step he.1, ?_⟩
  cases e with
  | step env => exact h.capture he
  | openPinned env => exact h.openPinned he.2
  | sessionState active => exact h.sessionState he.2
  | userChanged uid =>
    exact h.tally.of_detector rfl (fun ch => by cases ch <;> rfl) fun hs =>
      .inl (Detector.armed_of_userChanged hs)
  | block reason => exact h.tally.of_detector rfl (fun ch => by cases ch <;> rfl) nofun
  | unblock =>
    exact h.tally.of_detector rfl (fun ch => by cases ch <;> rfl) fun hs =>
      .inl (Detector.armed_of_unblock hs)
  | deviceLost =>
    refine h.tally.of_pipes rfl nofun fun _ _ ch q hq => ?_
    cases ch <;> cases hq
  | takeEvents | setAccountRef a | uplink u =>
    exact h.tally.of_detector rfl (fun ch => by cases ch <;> rfl) .inl

end Numbered

/-- **Every call is numbered from zero** -/
theorem numbered_from_zero [Inhabited α] (policy : Policy) (hcfg : Detector.Timed policy.vad)
    (tier : CaptureTier) (deviceId userUid : String) (u : Uplink) (es : List (PipeEvent α))
    (h : Runs.Along Rig.step BeginsFresh (Rig.init policy tier deviceId userUid u : Rig dsp) es) :
    NumberedFromZero (Runs.run Rig.step (Rig.init policy tier deviceId userUid u : Rig dsp) es) :=
  (h.invariant (Numbered.init hcfg tier deviceId userUid u) fun _ _ => Numbered.step).tally.numbered

/-! ## Concrete runs -/

def freshCallsRun : List (PipeEvent Int) :=
  [.openPinned headset, .sessionState true, slice 1 "call-1", .sessionState false,
    slice 0 "call-2", slice 0 "call-2", .block .offlineGraceExpired, .sessionState true, .unblock,
    slice 1 "call-2", slice 1 "call-2", .sessionState false, slice 0 "call-3", slice 0 "call-3"]

/-- The hypotheses of `numbered_from_zero` are met by a run that records two calls. -/
theorem freshCallsRun_numbered :
    spooledSeqs (Runs.run Rig.step brisk freshCallsRun).book.log "call-2" .far = [0] ∧
      Runs.Along Rig.step BeginsFresh brisk freshCallsRun ∧
      NumberedFromZero (Runs.run Rig.step brisk freshCallsRun) :=
  ⟨by decide +kernel, by decide +kernel,
    numbered_from_zero briskPolicy (by decide) .A "device-1" "alice" { spool := {} } freshCallsRun
      (by decide +kernel)⟩

def secondCallRun : List (PipeEvent Int) :=
  [.openPinned headset, .sessionState true, slice 1 "call-1", .sessionState false,
    slice 0 "call-2", slice 0 "call-2", .sessionState true, slice 1 "call-2",
    .sessionState false, slice 0 "call-3", slice 0 "call-3"]

theorem spooledSeqs_secondCallRun :
    spooledSeqs (Runs.run Rig.step brisk secondCallRun).book.log "call-2" .far = [1] := by
  decide +kernel

theorem secondCallRun_starts_late : ¬ NumberedFromZero (Runs.run Rig.step brisk secondCallRun) := by
  intro h
  have hfar := h "call-2" .far
  rw [spooledSeqs_secondCallRun] at hfar
  exact absurd hfar (by decide)

end Sentinel.Capture
