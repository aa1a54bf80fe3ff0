import Sentinel.Capture.Lockstep

/-!
# Whose audio a call holds

Every sample spooled under a call should be that of the user it was started for. But samples reach
the spool late, under whichever call is open by then.
-/

open List

namespace Sentinel.Capture

/-! ## Samples that remember -/

inductive Origin where
  | silence
  | captured (signedIn : Option String)
  deriving DecidableEq, Repr

structure Sample where
  pcm : Int
  origin : Origin
  deriving DecidableEq, Repr

instance : Inhabited Sample := ⟨⟨0, .silence⟩⟩

def Sample.OwnedBy (uid : String) (a : Sample) : Prop :=
  a.origin = .silence ∨ a.origin = .captured (some uid)

instance (uid : String) (a : Sample) : Decidable (a.OwnedBy uid) :=
  inferInstanceAs (Decidable (_ ∨ _))

/-! ## The machine with a seat in front of it -/

variable {dsp : Dsp Sample}

structure Desk (dsp : Dsp Sample) where
  rig : Rig dsp
  signedIn : Option String

inductive DeskEvent where
  | signIn (uid : String)
  | signOut
  | capture (env : StepEnv Int)
  | sessionState (active : Bool)
  | openPinned (env : Pipeline.OpenEnv)
  | block (reason : BlockReason)
  | unblock
  | deviceLost
  | uplink (u : Uplink)

def heardBy (signedIn : Option String) (samples : List Int) : List Sample :=
  samples.map fun pcm => ⟨pcm, .captured signedIn⟩

def DeskEvent.toPipe (signedIn : Option String) : DeskEvent → PipeEvent Sample
  | .signIn uid => .userChanged uid
  | .signOut => .block .signedOut
  | .capture env =>
    .step
      { far := env.far.map (heardBy signedIn)
        near := env.near.map (heardBy signedIn)
        callId := env.callId
        startedAt := env.startedAt
        endedAt := env.endedAt
        budget := env.budget }
  | .sessionState active => .sessionState active
  | .openPinned env => .openPinned env
  | .block reason => .block reason
  | .unblock => .unblock
  | .deviceLost => .deviceLost
  | .uplink u => .uplink u

def DeskEvent.signedInAfter (signedIn : Option String) : DeskEvent → Option String
  | .signIn uid => some uid
  | .signOut => none
  | _ => signedIn

def Desk.step (d : Desk dsp) (e : DeskEvent) : Desk dsp :=
  ⟨d.rig.step (e.toPipe d.signedIn), e.signedInAfter d.signedIn⟩

def Desk.init (policy : Policy) (tier : CaptureTier) (deviceId uid : String) (u : Uplink) :
    Desk dsp :=
  ⟨.init policy tier deviceId uid u, some uid⟩

/-! ## The statement -/

def startsOf {α : Type} (log : List (Entry α)) : List CallStart :=
  log.filterMap fun
    | .started cs => some cs
    | _ => none

def spooledOf {α : Type} (log : List (Entry α)) : List (SegmentRow × List α) :=
  log.filterMap fun
    | .spooled row pcm => some (row, pcm)
    | _ => none

def AttributedLog (log : List (Entry Sample)) : Prop :=
  ∀ s ∈ spooledOf log, ∀ cs ∈ startsOf log, cs.callId = s.1.1.callId →
    ∀ a ∈ s.2, a.OwnedBy cs.userUid

def Attributed (d : Desk dsp) : Prop := AttributedLog d.rig.book.log

instance (d : Desk dsp) : Decidable (Attributed d) :=
  inferInstanceAs (Decidable (∀ _ ∈ _, ∀ _ ∈ _, _ → ∀ _ ∈ _, _))

/-! ## Pipes full of one kind of sample -/

section Pipes

variable {α : Type} {dsp : Dsp α} {ch : Channel} {P : α → Prop} {q q' : ChannelPipe dsp ch}

def ChannelPipe.All (P : α → Prop) (q : ChannelPipe dsp ch) : Prop :=
  (∀ seg ∈ q.ready, ∀ a ∈ seg.pcm, P a) ∧ ∀ a ∈ q.encoder.held, P a

instance [DecidablePred P] (q : ChannelPipe dsp ch) : Decidable (q.All P) :=
  inferInstanceAs (Decidable (_ ∧ _))

namespace ChannelPipe

theorem All.fed {samples : List α} (h : q.All P) (hfed : q.Fed samples q')
    (hsamples : ∀ a ∈ samples, P a) : q'.All P := by
  obtain ⟨fed, out, hsub, henc, hready, -⟩ := hfed
  obtain ⟨hout, hheld⟩ := henc.forall_pcm h.2 fun a ha => hsamples a (hsub a ha)
  refine ⟨fun seg hseg => ?_, hheld⟩
  rw [hready, mem_append] at hseg
  exact hseg.elim (h.1 seg) (hout seg)

theorem All.emptied [Inhabited α] {segs : List (Segment α ch)} (h : q.All P)
    (hempty : q.Emptied segs q') (hdefault : P default) :
    (∀ seg ∈ segs, ∀ a ∈ seg.pcm, P a) ∧ q'.All P := by
  obtain ⟨silence, tail, hsilence, henc, rfl, hready⟩ := hempty
  obtain ⟨htail, hheld⟩ := henc.forall_pcm h.2 fun a ha => hsilence a ha ▸ hdefault
  refine ⟨fun seg hseg => ?_, by simp [hready], hheld⟩
  exact (mem_append.1 hseg).elim (h.1 seg) (htail seg)

theorem All.trim (h : q.All P) (keep : Bool) : (q.trim keep).All P := by
  unfold ChannelPipe.trim
  split
  · exact ⟨nofun, h.2⟩
  · exact ⟨fun seg hseg => h.1 seg (mem_of_mem_drop hseg), h.2⟩

end ChannelPipe

def Pipeline.All (P : α → Prop) (p : Pipeline dsp) : Prop := ∀ ch, ∀ q ∈ p.pipe ch, q.All P

instance [DecidablePred P] (p : Pipeline dsp) : Decidable (p.All P) :=
  inferInstanceAs (Decidable (∀ _, ∀ _ ∈ _, _))

theorem Pipeline.All.boundPreroll {p : Pipeline dsp} (h : p.All P) : p.boundPreroll.All P := by
  intro ch q hq
  obtain ⟨q0, hq0, rfl⟩ := Pipeline.mem_pipe_boundPreroll hq
  exact (h ch q0 hq0).trim _

theorem Pipeline.All.moved [Inhabited α] {w w' : Work dsp} {callId : CallId}
    {segs : (ch : Channel) → List (Segment α ch)} (h : w.pipeline.All P)
    (hmoved : Work.MovedBoth callId segs w w') (hdefault : P default) :
    (∀ ch, ∀ seg ∈ segs ch, ∀ a ∈ seg.pcm, P a) ∧ w'.pipeline.All P := by
  have hboth : ∀ ch, (∀ seg ∈ segs ch, ∀ a ∈ seg.pcm, P a) ∧
      ∀ q' ∈ w'.pipeline.pipe ch, q'.All P := by
    intro ch
    rcases hmoved.pipe ch with ⟨-, hnone, hnil⟩ | ⟨q, q', hq, hq', hempty⟩
    · rw [hnone, hnil]
      exact ⟨nofun, nofun⟩
    obtain ⟨hsegs, hall⟩ := (h ch q hq).emptied hempty hdefault
    refine ⟨hsegs, fun q1 hq1 => ?_⟩
    obtain rfl : q' = q1 := Option.some.inj (hq'.symm.trans hq1)
    exact hall
  exact ⟨fun ch => (hboth ch).1, fun ch => (hboth ch).2⟩

end Pipes

/-! ## Logs -/

section Logs

variable {α : Type}

@[simp] theorem startsOf_append (log more : List (Entry α)) :
    startsOf (log ++ more) = startsOf log ++ startsOf more :=
  filterMap_append

@[simp] theorem spooledOf_append (log more : List (Entry α)) :
    spooledOf (log ++ more) = spooledOf log ++ spooledOf more :=
  filterMap_append

@[simp] theorem startsOf_entriesOf {ch : Channel} (callId : CallId) (clockMs : Nat)
    (segs : List (Segment α ch)) : startsOf (entriesOf callId clockMs segs) = [] := by
  induction segs with
  | nil => rfl
  | cons seg rest ih => exact ih

theorem spooled_of_mem {log : List (Entry α)} {s : SegmentRow × List α} (h : s ∈ spooledOf log) :
    .spooled s.1 s.2 ∈ log := by
  obtain ⟨entry, hentry, hs⟩ := mem_filterMap.mp h
  cases entry with
  | spooled row pcm =>
    obtain rfl := Option.some.inj hs
    exact hentry
  | started cs | ended ce => cases hs

theorem spooledOf_entriesOf {ch : Channel} (callId : CallId) (clockMs : Nat)
    (segs : List (Segment α ch)) :
    spooledOf (entriesOf callId clockMs segs) =
      segs.map fun seg => (toRow callId seg clockMs, seg.pcm) := by
  induction segs with
  | nil => rfl
  | cons seg rest ih => exact congrArg _ ih

theorem Work.MovedBoth.startsOf_eq [Inhabited α] {dsp : Dsp α} {w w' : Work dsp}
    {callId : CallId} {segs : (ch : Channel) → List (Segment α ch)}
    (h : Work.MovedBoth callId segs w w') : startsOf w'.book.log = startsOf w.book.log := by
  rw [h.log]
  simp

theorem Work.MovedBoth.mem_spooledOf [Inhabited α] {dsp : Dsp α} {w w' : Work dsp}
    {callId : CallId} {segs : (ch : Channel) → List (Segment α ch)}
    (h : Work.MovedBoth callId segs w w') {s : SegmentRow × List α}
    (hs : s ∈ spooledOf w'.book.log) :
    s ∈ spooledOf w.book.log ∨
      s.1.1.callId = callId ∧ ∃ ch, ∃ seg ∈ segs ch, seg.pcm = s.2 := by
  rw [h.log, spooledOf_append, spooledOf_append, spooledOf_entriesOf, spooledOf_entriesOf] at hs
  simp only [mem_append, mem_map] at hs
  rcases hs with hs | ⟨seg, hseg, rfl⟩ | ⟨seg, hseg, rfl⟩
  · exact .inl hs
  · exact .inr ⟨rfl, .far, seg, hseg, rfl⟩
  · exact .inr ⟨rfl, .near, seg, hseg, rfl⟩

end Logs

/-! ## The runs in which it holds -/

def KeepsApart (d : Desk dsp) : DeskEvent → Prop
  | .capture env => d.signedIn.isSome ∧ env.budget = none ∧
      (∀ call ∈ d.rig.pipeline.currentCall, d.rig.book.Unsealed call.callId) ∧
      d.rig.book.Unsealed env.callId ∧
      ∀ cs ∈ startsOf d.rig.book.log, cs.callId ≠ env.callId
  | .signIn uid => d.rig.pipeline.userUid = uid ∨
      (d.rig.pipeline.currentCall = none ∧ d.rig.pipeline.detector.state ≠ .armed)
  | .sessionState active => active = true → d.rig.pipeline.detector.readyToArm = true →
      d.rig.pipeline.All (Sample.OwnedBy d.rig.pipeline.userUid)
  | _ => True

instance (d : Desk dsp) (e : DeskEvent) : Decidable (KeepsApart d e) := by
  unfold KeepsApart
  cases e <;> infer_instance

/-! ## The invariant -/

structure Apart (p : Pipeline dsp) (log : List (Entry Sample)) : Prop where
  clock : p.detector.nowMs = p.clockMs
  attributed : AttributedLog log
  known : ∀ s ∈ spooledOf log, ∃ cs ∈ startsOf log, cs.callId = s.1.1.callId
  current : ∀ call ∈ p.currentCall, (∃ cs ∈ startsOf log, cs.callId = call.callId) ∧
    ∀ cs ∈ startsOf log, cs.callId = call.callId → cs.userUid = p.userUid
  waiting : (p.detector.state = .armed ∨ p.currentCall.isSome = true) →
    p.All (Sample.OwnedBy p.userUid)

theorem Work.MovedBoth.attributed {w w' : Work dsp} {callId : CallId} {uid : String}
    {segs : (ch : Channel) → List (Segment Sample ch)} (h : Work.MovedBoth callId segs w w')
    (hattr : AttributedLog w.book.log)
    (huser : ∀ cs ∈ startsOf w.book.log, cs.callId = callId → cs.userUid = uid)
    (hsegs : ∀ ch, ∀ seg ∈ segs ch, ∀ a ∈ seg.pcm, a.OwnedBy uid) : AttributedLog w'.book.log := by
  intro s hs cs hcs hid a ha
  rw [h.startsOf_eq] at hcs
  rcases h.mem_spooledOf hs with hs | ⟨hcall, ch, seg, hseg, hpcm⟩
  · exact hattr s hs cs hcs hid a ha
  rw [huser cs hcs (hid.trans hcall)]
  exact hsegs ch seg hseg a (hpcm ▸ ha)

theorem Work.MovedBoth.known_starts {w w' : Work dsp} {callId : CallId}
    {segs : (ch : Channel) → List (Segment Sample ch)} (h : Work.MovedBoth callId segs w w')
    (hknown : ∀ s ∈ spooledOf w.book.log, ∃ cs ∈ startsOf w.book.log, cs.callId = s.1.1.callId)
    (hstart : ∃ cs ∈ startsOf w.book.log, cs.callId = callId) :
    ∀ s ∈ spooledOf w'.book.log, ∃ cs ∈ startsOf w'.book.log, cs.callId = s.1.1.callId := by
  intro s hs
  rw [h.startsOf_eq]
  rcases h.mem_spooledOf hs with hs | ⟨hcall, -⟩
  · exact hknown s hs
  · rwa [hcall]

theorem owned_default (uid : String) : (default : Sample).OwnedBy uid := .inl rfl

namespace Apart

variable {p p' : Pipeline dsp} {log : List (Entry Sample)}

theorem of_detector (h : Apart p log) (hclock : p'.detector.nowMs = p'.clockMs)
    (hcall : p'.currentCall = p.currentCall) (huser : p'.userUid = p.userUid)
    (hpipe : ∀ ch, p'.pipe ch = p.pipe ch) (harmed : p'.detector.state = .armed →
      p.detector.state = .armed ∨ p.All (Sample.OwnedBy p.userUid)) : Apart p' log where
  clock := hclock
  attributed := h.attributed
  known := h.known
  current := by
    rw [hcall, huser]
    exact h.current
  waiting hw ch q hq := by
    rw [hcall] at hw
    rw [huser]
    rw [hpipe] at hq
    rcases hw with hs | hc
    · exact (harmed hs).elim (fun hs => h.waiting (.inl hs) ch q hq) fun hall => hall ch q hq
    · exact h.waiting (.inr hc) ch q hq

theorem of_pipes (h : Apart p log) (hsame : p.SameButPipes p')
    (hpipe : (p.detector.state = .armed ∨ p.currentCall.isSome = true) →
      p'.All (Sample.OwnedBy p.userUid)) : Apart p' log where
  clock := by rw [hsame.detector, hsame.clockMs, h.clock]
  attributed := h.attributed
  known := h.known
  current := by
    rw [hsame.currentCall, hsame.userUid]
    exact h.current
  waiting := by
    rwa [hsame.detector, hsame.currentCall, hsame.userUid]

theorem append_ended (h : Apart p log) (ce : CallEnd) : Apart p (log ++ [.ended ce]) := by
  have hspooled : spooledOf (log ++ [.ended ce]) = spooledOf log := by simp [spooledOf]
  have hstarts : startsOf (log ++ [.ended ce]) = startsOf log := by simp [startsOf]
  refine ⟨h.clock, ?_, ?_, ?_, h.waiting⟩
  · unfold AttributedLog
    rw [hspooled, hstarts]
    exact h.attributed
  · rw [hspooled, hstarts]
    exact h.known
  rw [hstarts]
  exact h.current

theorem append_started {call : CurrentCall} {cs : CallStart} (h : Apart p log)
    (hnew : ∀ cs ∈ startsOf log, cs.callId ≠ call.callId) (hcs : cs.callId = call.callId)
    (huser : cs.userUid = p'.userUid) (hcall : p'.currentCall = some call)
    (hclock : p'.detector.nowMs = p'.clockMs) (hwaiting : p'.All (Sample.OwnedBy p'.userUid)) :
    Apart p' (log ++ [.started cs]) := by
  have hspooled : spooledOf (log ++ [.started cs]) = spooledOf log := by simp [spooledOf]
  have hstarts : startsOf (log ++ [.started cs]) = startsOf log ++ [cs] := by simp [startsOf]
  refine ⟨hclock, fun s hs cs' hcs' hid => ?_, fun s hs => ?_, fun call' hc => ?_,
    fun _ => hwaiting⟩
  · rw [hspooled] at hs
    rw [hstarts, mem_append, mem_singleton] at hcs'
    rcases hcs' with hcs' | rfl
    · exact h.attributed s hs cs' hcs' hid
    -- The identifier is new, so nothing was spooled under it.
    obtain ⟨cs0, hcs0, hid0⟩ := h.known s hs
    exact absurd (hid0.trans (hid.symm.trans hcs)) (hnew cs0 hcs0)
  · obtain ⟨cs', hcs', hid⟩ := h.known s (hspooled ▸ hs)
    rw [hstarts]
    exact ⟨cs', mem_append_left _ hcs', hid⟩
  rw [hcall] at hc
  obtain rfl := Option.some.inj hc
  rw [hstarts]
  refine ⟨⟨cs, by simp, hcs⟩, fun cs' hcs' hid => ?_⟩
  rw [mem_append, mem_singleton] at hcs'
  rcases hcs' with hcs' | rfl
  · exact absurd hid (hnew cs' hcs')
  · exact huser

theorem acted {env : StepEnv Sample} {r : Rig dsp} {t : Transition} {w w1 : Work dsp}
    (h : Apart r.pipeline r.book.log)
    (hsamples : ∀ ch, ∀ a ∈ env.samples ch, a.OwnedBy r.pipeline.userUid)
    (hnew : ∀ cs ∈ startsOf r.book.log, cs.callId ≠ env.callId)
    (hbook : w.book = r.book) (hlistens : Listens r.pipeline w.pipeline t)
    (hfed : ∀ ch, ∀ q' ∈ w.pipeline.pipe ch, ∃ q ∈ r.pipeline.pipe ch, q.Fed (env.samples ch) q')
    (happlied : Work.Applied env w w1 t) : Apart w1.pipeline w1.book.log := by
  have hheard := hlistens.heard
  have hcall := hlistens.currentCall
  have huser := hlistens.userUid
  have hwaiting : (r.pipeline.detector.state = .armed ∨ r.pipeline.currentCall.isSome = true) →
      w.pipeline.All (Sample.OwnedBy w.pipeline.userUid) := by
    intro hw ch q hq
    obtain ⟨q0, hq0, hq⟩ := hfed ch q hq
    rw [huser]
    exact (h.waiting hw ch q0 hq0).fed hq (hsamples ch)
  cases happlied with
  | restarted ht hsame hbook1 hpipe =>
    rw [hbook1, hbook]
    refine ⟨?_, h.attributed, h.known, ?_, fun _ ch q hq => ?_⟩
    · rw [hsame.detector, hsame.clockMs, hlistens.clock]
    · rw [hsame.currentCall, hsame.userUid, hcall, huser]
      exact h.current
    obtain ⟨q0, rfl⟩ := hpipe ch q hq
    exact ⟨nofun, nofun⟩
  | started hcall1 hdetector hclock huser1 hpipe hlog1 =>
    rw [hlog1, hbook]
    refine h.append_started hnew rfl huser1.symm hcall1 ?_ fun ch q hq => ?_
    · rw [hdetector, hclock, hlistens.clock]
    rw [huser1]
    exact hwaiting (.inl (hheard.started rfl).1) ch q (hpipe ch ▸ hq)
  | ended reason call segs w2 ce hcall1 hmoved hpipeline hce hlog1 =>
    have hcallr : call ∈ r.pipeline.currentCall := hcall ▸ hcall1
    have hall : w.pipeline.All (Sample.OwnedBy r.pipeline.userUid) :=
      huser ▸ hwaiting (.inr (Option.isSome_of_mem hcallr))
    have hsegs := (Pipeline.All.moved (P := Sample.OwnedBy r.pipeline.userUid)
      (fun ch q hq => hall ch q (by cases ch <;> exact hq)) hmoved (owned_default _)).1
    obtain ⟨hstart, hname⟩ := h.current call hcallr
    have hnone : w1.pipeline.currentCall = none := by rw [hpipeline, hmoved.same.currentCall]
    rw [hlog1]
    refine append_ended ⟨?_, ?_, ?_, by simp [hnone], fun hw => ?_⟩ ce
    · rw [hpipeline, hmoved.same.detector, hmoved.same.clockMs]
      exact hlistens.clock
    · exact hmoved.attributed (hbook ▸ h.attributed) (hbook ▸ hname) hsegs
    · exact hmoved.known_starts (hbook ▸ h.known) (hbook ▸ hstart)
    rw [hnone, hpipeline, hmoved.same.detector] at hw
    exact absurd (hw.resolve_right nofun) hheard.not_armed
  | nothing harmed hstarted hended hw1 =>
    subst hw1
    rw [hbook]
    refine ⟨hlistens.clock, h.attributed, h.known, ?_, fun hw => hwaiting ?_⟩
    · rw [hcall, huser]
      exact h.current
    rw [hcall] at hw
    exact hw.imp (fun hs => (hheard.armed hs).resolve_right harmed) id

theorem drains {w w' : Work dsp} (h : Apart w.pipeline w.book.log)
    (hdrains : Work.Drains w w') : Apart w'.pipeline w'.book.log := by
  cases hdrains with
  | idle hcall hw => exact hw ▸ h
  | call call segs hcall hmoved =>
    have hall := h.waiting (.inr (Option.isSome_of_mem hcall))
    obtain ⟨hsegs, hleft⟩ := hall.moved hmoved (owned_default _)
    obtain ⟨hstart, hname⟩ := h.current call hcall
    refine ⟨?_, hmoved.attributed h.attributed hname hsegs, hmoved.known_starts h.known hstart, ?_,
      fun _ => ?_⟩
    · rw [hmoved.same.detector, hmoved.same.clockMs, h.clock]
    · rw [hmoved.same.currentCall, hmoved.same.userUid, hmoved.startsOf_eq]
      exact h.current
    · rwa [hmoved.same.userUid]

theorem capture {r : Rig dsp} {env : StepEnv Sample} (h : Apart r.pipeline r.book.log)
    (hsmooth : Smooth r env) (hsamples : ∀ ch, ∀ a ∈ env.samples ch, a.OwnedBy r.pipeline.userUid)
    (hnew : ∀ cs ∈ startsOf r.book.log, cs.callId ≠ env.callId) :
    Apart (r.capture env).pipeline (r.capture env).book.log := by
  have hcaptured := capture_captured hsmooth
  generalize r.capture env = r' at hcaptured ⊢
  cases hcaptured with
  | stopped hbook hsame hfed =>
    rw [hbook]
    refine h.of_pipes hsame fun hw ch q hq => ?_
    obtain ⟨q0, hq0, hq⟩ := hfed ch q hq
    exact (h.waiting hw ch q0 hq0).fed hq (hsamples ch)
  | acted t w w1 w2 hbook hlistens hfed happlied hdrains hr =>
    subst hr
    have h2 := (h.acted hsamples hnew hbook hlistens hfed happlied).drains hdrains
    exact h2.of_pipes ⟨rfl, rfl, rfl, rfl⟩ fun hw => (h2.waiting hw).boundPreroll

theorem openPinned (h : Apart p log) (env : Pipeline.OpenEnv) : Apart (p.openPinned env).1 log := by
  have hopened := openPinned_opened p env
  obtain ⟨hcall, -, huser, harmed, hclock⟩ := hopened.keeps
  refine ⟨hclock h.clock, h.attributed, h.known, ?_, fun hw => ?_⟩
  · rw [hcall, huser]
    exact h.current
  rw [hcall] at hw
  rw [huser]
  exact forall_opened (P := fun _ q => q.All _) (h.waiting (hw.imp_left harmed))
    (fun _ => ⟨nofun, nofun⟩) hopened

theorem sessionState {active : Bool} (h : Apart p log)
    (harm : active = true → p.detector.readyToArm = true →
      p.All (Sample.OwnedBy p.userUid)) : Apart (p.onSessionState active) log := by
  refine h.of_detector (Detector.feed_nowMs _ _ _) rfl rfl (fun ch => by cases ch <;> rfl)
    fun hs => ?_
  have hs : (p.detector.feed p.detector.nowMs (.sessionState active)).1.state = .armed := by
    rwa [h.clock]
  exact (Detector.session_armed hs).imp id fun ⟨hactive, hready⟩ => harm hactive hready

theorem userChanged {uid : String} (h : Apart p log)
    (huser : p.userUid = uid ∨ (p.currentCall = none ∧ p.detector.state ≠ .armed)) :
    Apart (p.onUserChanged uid) log := by
  have hstate : (p.onUserChanged uid).detector.state = .armed → p.detector.state = .armed :=
    Detector.armed_of_userChanged
  rcases huser with rfl | ⟨hnone, hunarmed⟩
  · exact h.of_detector (Detector.feed_nowMs _ _ _) rfl rfl (fun ch => by cases ch <;> rfl)
      fun hs => .inl (hstate hs)
  have hcall : (p.onUserChanged uid).currentCall = none := hnone
  refine ⟨Detector.feed_nowMs _ _ _, h.attributed, h.known, by simp [hcall], fun hw => ?_⟩
  rw [hcall] at hw
  exact absurd (hstate (hw.resolve_right nofun)) hunarmed

theorem block (h : Apart p log) (reason : BlockReason) : Apart (p.block reason) log :=
  h.of_detector (Detector.feed_nowMs _ _ _) rfl rfl (fun ch => by cases ch <;> rfl) nofun

theorem unblock (h : Apart p log) : Apart p.unblock log :=
  h.of_detector (Detector.feed_nowMs _ _ _) rfl rfl (fun ch => by cases ch <;> rfl) fun hs =>
    .inl (Detector.armed_of_unblock hs)

theorem deviceLost (h : Apart p log) : Apart p.onDeviceLost log := by
  refine ⟨Detector.feed_nowMs _ _ _, h.attributed, h.known, h.current, fun _ ch q hq => ?_⟩
  cases ch <;> cases hq

end Apart

structure Seated (d : Desk dsp) : Prop where
  apart : Apart d.rig.pipeline d.rig.book.log
  user : ∀ uid ∈ d.signedIn, d.rig.pipeline.userUid = uid

theorem step_userUid (r : Rig dsp) (e : PipeEvent Sample)
    (hsmooth : ∀ env, e = .step env → Smooth r env) (huser : ∀ uid, e ≠ .userChanged uid) :
    (r.step e).pipeline.userUid = r.pipeline.userUid := by
  cases e with
  | step env =>
    have hcaptured := capture_captured (hsmooth env rfl)
    change (r.capture env).pipeline.userUid = _
    generalize r.capture env = r' at hcaptured ⊢
    cases hcaptured with
    | stopped hbook hsame hfed => exact hsame.userUid
    | acted t w w1 w2 hbook hlistens hfed happlied hdrains hr =>
      subst hr
      have h1 : w1.pipeline.userUid = w.pipeline.userUid := by
        cases happlied with
        | restarted _ hsame => exact hsame.userUid
        | started _ _ _ huser1 => exact huser1
        | ended reason call segs w2 ce hcall1 hmoved hpipeline =>
          rw [hpipeline, hmoved.same.userUid]
        | nothing _ _ _ hw => rw [hw]
      have h2 : w2.pipeline.userUid = w1.pipeline.userUid := by
        cases hdrains with
        | idle _ hw => rw [hw]
        | call _ _ _ hmoved => exact hmoved.same.userUid
      exact h2.trans (h1.trans hlistens.userUid)
  | openPinned env => exact (openPinned_opened r.pipeline env).keeps.2.2.1
  | userChanged uid => exact absurd rfl (huser uid)
  | _ => rfl

namespace Seated

theorem init (policy : Policy) (tier : CaptureTier) (deviceId uid : String) (u : Uplink) :
    Seated (Desk.init policy tier deviceId uid u : Desk dsp) where
  apart := ⟨rfl, nofun, nofun, nofun, fun _ ch q hq => by cases ch <;> cases hq⟩
  user uid' h := Option.some.inj h

theorem capture {d : Desk dsp} {env : StepEnv Int} (h : Seated d)
    (he : KeepsApart d (.capture env)) : Seated (d.step (.capture env)) := by
  obtain ⟨hsigned, hbudget, hcurrent, hminted, hnew⟩ := he
  obtain ⟨uid, huid⟩ := Option.isSome_iff_exists.1 hsigned
  have hsmooth : ∀ env', (DeskEvent.capture env).toPipe d.signedIn = .step env' →
      Smooth d.rig env' := by
    intro env' henv
    obtain rfl := PipeEvent.step.inj henv
    exact ⟨hbudget, hcurrent, hminted⟩
  refine ⟨h.apart.capture (hsmooth _ rfl) (fun ch a ha => ?_) hnew, fun uid' hu => ?_⟩
  · have hmem : a ∈ heardBy d.signedIn ((env.far.getD [])) ∨
        a ∈ heardBy d.signedIn ((env.near.getD [])) := by
      cases ch with
      | far => cases hf : env.far <;> simp_all [StepEnv.samples, heardBy]
      | near => cases hn : env.near <;> simp_all [StepEnv.samples, heardBy]
    rw [h.user uid huid]
    rcases hmem with hmem | hmem <;>
    · obtain ⟨pcm, -, rfl⟩ := mem_map.1 hmem
      exact .inr (by rw [huid])
  · exact (step_userUid d.rig _ hsmooth nofun).trans (h.user uid' hu)

theorem step {d : Desk dsp} {e : DeskEvent} (h : Seated d) (he : KeepsApart d e) :
    Seated (d.step e) := by
  have huser : ∀ e : PipeEvent Sample, (∀ env, e ≠ .step env) → (∀ uid, e ≠ .userChanged uid) →
      ∀ uid ∈ d.signedIn, (d.rig.step e).pipeline.userUid = uid := by
    intro e hstep hchange uid hu
    exact (step_userUid d.rig e (fun env henv => absurd henv (hstep env)) hchange).trans
      (h.user uid hu)
  cases e with
  | capture env => exact h.capture he
  | signIn uid => exact ⟨h.apart.userChanged he, fun uid' hu => Option.some.inj hu⟩
  | signOut => exact ⟨h.apart.block .signedOut, nofun⟩
  | sessionState active => exact ⟨h.apart.sessionState he, huser _ nofun nofun⟩
  | openPinned env => exact ⟨h.apart.openPinned env, huser _ nofun nofun⟩
  | block reason => exact ⟨h.apart.block reason, huser _ nofun nofun⟩
  | unblock => exact ⟨h.apart.unblock, huser _ nofun nofun⟩
  | deviceLost => exact ⟨h.apart.deviceLost, huser _ nofun nofun⟩
  | uplink u => exact ⟨h.apart, huser _ nofun nofun⟩

end Seated

/-- **Every sample is its call's user's** -/
theorem samples_attributed (policy : Policy) (tier : CaptureTier) (deviceId uid : String)
    (u : Uplink) (es : List DeskEvent) (h : Runs.Along Desk.step KeepsApart
      (Desk.init policy tier deviceId uid u : Desk dsp) es) :
    Attributed (Runs.run Desk.step (Desk.init policy tier deviceId uid u : Desk dsp) es) :=
  (h.invariant (Seated.init policy tier deviceId uid u) fun _ _ => Seated.step).apart.attributed

/-! ## Concrete runs -/

def aliceDesk : Desk (thresholdDsp fun a : Sample => a.pcm ≠ 0) :=
  .init briskPolicy .A "device-1" "alice" { spool := {} }

def deskSlice (a : Int) (callId : CallId) : DeskEvent :=
  .capture { far := some (List.replicate 320 a), near := some [], callId }

def oneAfterTheOtherRun : List DeskEvent :=
  [.openPinned headset, .sessionState true, deskSlice 1 "call-1", .sessionState false,
    deskSlice 0 "call-2", deskSlice 0 "call-2", .signOut, .signIn "bob", .unblock,
    .sessionState true, deskSlice 1 "call-2", .sessionState false, deskSlice 0 "call-3",
    deskSlice 0 "call-3"]

/-- The hypothesis of `samples_attributed` is met by a run with two users' calls. -/
theorem oneAfterTheOtherRun_attributed :
    (startsOf (Runs.run Desk.step aliceDesk oneAfterTheOtherRun).rig.book.log).map (·.userUid) =
        ["alice", "bob"] ∧
      Runs.Along Desk.step KeepsApart aliceDesk oneAfterTheOtherRun ∧
      Attributed (Runs.run Desk.step aliceDesk oneAfterTheOtherRun) := by
  have hapart : Runs.Along Desk.step KeepsApart aliceDesk oneAfterTheOtherRun := by
    decide +kernel
  exact ⟨by decide +kernel, hapart,
    samples_attributed briskPolicy .A "device-1" "alice" { spool := {} } oneAfterTheOtherRun
      hapart⟩

def leftOpenRun : List DeskEvent :=
  [.openPinned headset, .sessionState true, deskSlice 1 "call-1", .sessionState false, .signOut,
    .signIn "bob", .unblock] ++ List.replicate 49 (deskSlice 0 "call-2")

/-- Bob's first second is spooled under alice's call. -/
theorem leftOpenRun_misattributed : ¬ Attributed (Runs.run Desk.step aliceDesk leftOpenRun) := by
  decide +kernel

end Sentinel.Capture
