import Sentinel.Client.Eviction
import Sentinel.Capture.Steps

/-!
# What waits in a pipeline

Between the read and the spool a sample waits in a frame, in a segment being built, and in one that
is not spooled yet; a step moves it on, and may fail anywhere. None of that looks at samples.
-/

open List

namespace Sentinel.Capture

open Faults (Budget Upholds)

variable {α : Type} {dsp : Dsp α}

structure Law (dsp : Dsp α) where
  enc : (ch : Channel) → SegmentEncoder dsp ch → Prop
  seg : (ch : Channel) → Segment α ch → Prop
  row : SegmentRow → List α → Prop
  plug : Bool → Prop := fun _ => True
  spooled : ∀ {ch : Channel} {s : Segment α ch} (callId : CallId) (clockMs : Nat), seg ch s →
    row (toRow callId s clockMs) s.pcm

namespace Law

def Renews (law : Law dsp) : Prop := ∀ ch, law.enc ch .new

def Flushes [Inhabited α] (law : Law dsp) : Prop :=
  ∀ {ch : Channel} {e : SegmentEncoder dsp ch} (budget : Budget), law.enc ch e →
    law.enc ch (e.flush budget).enc ∧
      ∀ out, (e.flush budget).out = some out → ∀ s ∈ out, law.seg ch s

structure Allows [Inhabited α] (law : Law dsp) (t : Transition) : Prop where
  renews : t = .armed ∨ t = .armDiscarded → law.Renews
  flushes : ∀ reason, t = .callEnded reason → law.Flushes

def Pipe (law : Law dsp) {ch : Channel} (q : ChannelPipe dsp ch) : Prop :=
  law.enc ch q.encoder ∧ ∀ s ∈ q.ready, law.seg ch s

def Pipes (law : Law dsp) (p : Pipeline dsp) : Prop := ∀ ch, ∀ q ∈ p.pipe ch, law.Pipe q

def Log (law : Law dsp) (book : Recorder α) : Prop :=
  law.plug book.uplink.connected ∧ ∀ row pcm, .spooled row pcm ∈ book.log → law.row row pcm

structure Rules (law : Law dsp) (w : Work dsp) : Prop where
  pipes : law.Pipes w.pipeline
  log : law.Log w.book

structure Holds (law : Law dsp) (r : Rig dsp) : Prop where
  pipes : law.Pipes r.pipeline
  log : law.Log r.book

structure Implies (law law' : Law dsp) : Prop where
  enc : ∀ {ch : Channel} (e : SegmentEncoder dsp ch), law.enc ch e → law'.enc ch e
  seg : ∀ {ch : Channel} (s : Segment α ch), law.seg ch s → law'.seg ch s
  row : ∀ row pcm, law.row row pcm → law'.row row pcm
  plug : ∀ b, law.plug b → law'.plug b

variable {law law' : Law dsp} {p p' : Pipeline dsp}

theorem Implies.pipes (himp : law.Implies law') (h : law.Pipes p) : law'.Pipes p :=
  fun ch q hq => ⟨himp.enc _ (h ch q hq).1, fun s hs => himp.seg s ((h ch q hq).2 s hs)⟩

theorem Implies.log {book : Recorder α} (himp : law.Implies law') (h : law.Log book) :
    law'.Log book :=
  ⟨himp.plug _ h.1, fun row pcm hmem => himp.row row pcm (h.2 row pcm hmem)⟩

theorem Implies.holds {r : Rig dsp} (himp : law.Implies law') (h : law.Holds r) : law'.Holds r :=
  ⟨himp.pipes h.pipes, himp.log h.log⟩

namespace Pipes

theorem setPipe (h : law.Pipes p) {ch : Channel} {q : ChannelPipe dsp ch} (hq : law.Pipe q) :
    law.Pipes (p.setPipe (some q)) :=
  Pipeline.forall_setPipe (P := fun _ => law.Pipe) h hq

theorem congr (h : law.Pipes p) (hpipe : ∀ ch, p'.pipe ch = p.pipe ch) : law.Pipes p' :=
  fun ch q hq => h ch q (hpipe ch ▸ hq)

theorem boundPreroll (h : law.Pipes p) : law.Pipes p.boundPreroll := by
  intro ch q hq
  obtain ⟨q0, hq0, rfl⟩ := Pipeline.mem_pipe_boundPreroll hq
  obtain ⟨henc, hready⟩ := h ch q0 hq0
  unfold ChannelPipe.trim
  split
  · exact ⟨henc, forall_mem_nil _⟩
  · exact ⟨henc, fun s hs => hready s (mem_of_mem_drop hs)⟩

end Pipes

theorem Rules.record {w w' : Work dsp} {entry : Entry α} (h : law.Rules w)
    (hpipe : ∀ ch, w'.pipeline.pipe ch = w.pipeline.pipe ch)
    (hplug : w'.book.uplink.connected = w.book.uplink.connected)
    (hlog : w'.book.log = w.book.log ++ [entry])
    (hentry : ∀ row pcm, .spooled row pcm = entry → law.row row pcm) : law.Rules w' := by
  refine ⟨h.pipes.congr hpipe, hplug ▸ h.log.1, fun row pcm hmem => ?_⟩
  rw [hlog] at hmem
  exact (mem_append.mp hmem).elim (h.log.2 row pcm) fun hmem =>
    hentry row pcm (mem_singleton.mp hmem)

end Law

/-! ## What moves to the spool -/

namespace Work

structure Spools {ch : Channel} (callId : CallId) (segs : List (Segment α ch)) (w w' : Work dsp) :
    Prop where
  same : w.pipeline.SameButPipes w'.pipeline
  pipe : ∀ ch, w'.pipeline.pipe ch = w.pipeline.pipe ch
  log : w'.book.log = w.book.log ++ entriesOf callId w.pipeline.clockMs segs
  spool : w'.book.uplink.spool =
    (segs.map (toRow callId · w.pipeline.clockMs)).foldl Spool.pushed w.book.uplink.spool
  connected : w'.book.uplink.connected = w.book.uplink.connected

theorem Spools.nil {ch : Channel} (callId : CallId) {w w' : Work dsp}
    (hpipeline : w'.pipeline = w.pipeline) (hbook : w'.book = w.book) :
    Spools callId ([] : List (Segment α ch)) w w' := by
  constructor <;> simp [hpipeline, hbook, entriesOf, Pipeline.SameButPipes.refl]

theorem spoolAll_spools {ch : Channel} (callId : CallId) (segs : List (Segment α ch))
    (w : Work dsp) :
    let P := fun w' => ∃ done, done <+: segs ∧ Spools callId done w w'
    Upholds P P (w.spoolAll callId segs) := by
  induction segs generalizing w with
  | nil => exact ⟨[], prefix_refl _, .nil _ rfl rfl⟩
  | cons seg segs ih =>
    rw [spoolAll, spool]
    dsimp only
    split
    · exact ⟨[], nil_prefix, .nil _ rfl rfl⟩
    split
    · exact ⟨[], nil_prefix, .nil _ rfl rfl⟩
    rename_i u hpush
    obtain ⟨s, ev, hs, rfl⟩ := Uplink.pushSegment_ok hpush
    refine (ih _).mono ?_
    rintro w' ⟨done, hdone, h⟩
    refine ⟨seg :: done, by simpa using hdone, ⟨h.same.1, h.same.2, h.same.3, h.same.4⟩,
      fun ch => (h.pipe ch).trans (by cases ch <;> rfl), ?_, ?_, h.connected⟩
    · rw [h.log, append_assoc]
      rfl
    rw [h.spool, Spool.eq_pushed_of_push hs]
    rfl

variable [Inhabited α]

/-- A channel is emptied into the spool, or first `flushed`; what the spool refuses is lost. -/
inductive Moves (flushed : Prop) (callId : CallId) (ch : Channel) (w w' : Work dsp) : Prop
  | idle (h : w' = w)
  | moved (q q' : ChannelPipe dsp ch) (segs : List (Segment α ch)) (b : Budget)
      (hq : w.pipeline.pipe ch = some q) (hready : q'.ready = [])
      (hout : q'.encoder = q.encoder ∧ segs <+: q.ready ∨
        flushed ∧ q'.encoder = (q.encoder.flush w.budget).enc ∧ (segs = [] ∨
          ∃ tail, (q.encoder.flush w.budget).out = some tail ∧ segs <+: q.ready ++ tail))
      (h : Spools callId segs
        { w with pipeline := w.pipeline.setPipe (some q'), budget := b } w')

theorem drainChannel_moves (flushed : Prop) (w : Work dsp) (callId : CallId) (ch : Channel) :
    let P := Moves flushed callId ch w
    Upholds P P (w.drainChannel callId ch) := by
  unfold drainChannel
  split
  · exact .idle rfl
  rename_i q hq
  refine (spoolAll_spools callId q.ready _).mono ?_
  rintro w' ⟨segs, hsegs, h⟩
  exact .moved q { q with ready := [] } segs _ hq rfl (.inl ⟨rfl, hsegs⟩) h

theorem flushChannel_moves {flushed : Prop} (hf : flushed) (w : Work dsp) (callId : CallId)
    (ch : Channel) :
    let P := Moves flushed callId ch w
    Upholds P P (w.flushChannel callId ch) := by
  unfold flushChannel
  split
  · exact .idle rfl
  rename_i q hq
  dsimp only
  split
  · exact .moved q _ [] _ hq rfl (.inr ⟨hf, rfl, .inl rfl⟩) (.nil _ rfl rfl)
  rename_i tail htail
  refine (spoolAll_spools callId (q.ready ++ tail) _).mono ?_
  rintro w' ⟨segs, hsegs, h⟩
  exact .moved q _ segs _ hq rfl (.inr ⟨hf, rfl, .inr ⟨tail, htail, hsegs⟩⟩) h

theorem Moves.currentCall {flushed : Prop} {callId : CallId} {ch : Channel} {w w' : Work dsp}
    (h : Moves flushed callId ch w w') : w'.pipeline.currentCall = w.pipeline.currentCall := by
  cases h with
  | idle h => rw [h]
  | moved q q' segs b hq hready hout h =>
    exact h.same.currentCall.trans (Pipeline.SameButPipes.setPipe _ _).currentCall

/-- The states of an action: `I` until something is spooled, `F` once the far channel has been,
and `D` wherever it may end. -/
structure Handles (env : StepEnv α) (t : Transition) (I : Work dsp → Prop)
    (F : CallId → Work dsp → Prop) (D : Work dsp → Prop) : Prop where
  restart : t = .armed ∨ t = .armDiscarded → ∀ w {ch} (q : ChannelPipe dsp ch) b, I w →
    I { w with pipeline := w.pipeline.setPipe (some q.restart), budget := b }
  start : ∀ w, I w → Upholds I I (w.startCall env)
  close : ∀ w, I w → I { w with pipeline := { w.pipeline with currentCall := none } }
  far : ∀ c w w', I w → Moves (∃ reason, t = .callEnded reason) c .far w w' → F c w'
  near : ∀ c w w', F c w → Moves (∃ reason, t = .callEnded reason) c .near w w' → D w'
  idle : ∀ w, I w → D w
  half : ∀ c w, F c w → D w
  stop : ∀ w c reason, D w →
    Upholds D (fun w' => D w' ∧ w'.pipeline = w.pipeline) (w.recordEnd c env reason)
  bound : ∀ w res, D w → D { w with pipeline := w.pipeline.boundPreroll, result := res }

variable {w : Work dsp} {env : StepEnv α} {t : Transition} {I D : Work dsp → Prop}
  {F : CallId → Work dsp → Prop}

theorem finishCall_handles (h : Handles env t I F D) (hw : I w) {reason : EndReason}
    (ht : t = .callEnded reason) :
    Upholds D (fun w' => I w' ∨ D w' ∧ w'.pipeline.currentCall = none)
      (w.finishCall env reason) := by
  unfold finishCall
  split
  · exact .inl hw
  rename_i call hcall
  refine Upholds.bind (((flushChannel_moves ⟨reason, ht⟩ _ call.callId .far).imp
    (fun w₁ hm => h.half _ _ (h.far _ _ _ (h.close w hw) hm)) fun _ hm => hm)) fun w₁ hfar => ?_
  have hF := h.far _ _ _ (h.close w hw) hfar
  refine Upholds.bind ((flushChannel_moves ⟨reason, ht⟩ _ call.callId .near).imp
    (fun w₂ hm => h.near _ _ _ hF hm) fun _ hm => hm) fun w₂ hnear => ?_
  refine (h.stop w₂ call.callId reason (h.near _ _ _ hF hnear)).imp (fun _ hd => hd)
    fun w₃ hd => .inr ⟨hd.1, ?_⟩
  rw [hd.2, hnear.currentCall, hfar.currentCall]

theorem act_handles (h : Handles env t I F D) (hw : I w) : Upholds D D (w.act env t) := by
  have happly : Upholds D (fun w' => I w' ∨ D w' ∧ w'.pipeline.currentCall = none)
      (w.applyTransition env t) := by
    have hrestart : t = .armed ∨ t = .armDiscarded → ∀ w ch, I w →
        Upholds I I (w.restartChannel ch) := by
      intro ht w ch hw
      unfold restartChannel
      split
      · exact hw
      split
      · exact hw
      · exact h.restart ht w _ _ hw
    cases t with
    | armed | armDiscarded =>
      have hboth := (hrestart (by simp) w .far hw).bind fun w₁ h₁ => hrestart (by simp) w₁ .near h₁
      exact hboth.imp h.idle fun _ => .inl
    | callStarted => exact (h.start w hw).imp h.idle fun _ => .inl
    | callEnded reason => exact finishCall_handles h hw rfl
    | none | wrapStarted | blocked reason | unblocked => exact .inl hw
  refine happly.bind fun w₁ h₁ => Upholds.bind (Q := D) ?_ fun w₂ h₂ => h.bound w₂ _ h₂
  unfold drainEncoders
  split
  · exact h₁.elim (h.idle w₁) And.left
  rename_i call hcall
  have h₁ : I w₁ := h₁.resolve_right fun h₁ => by simp [hcall] at h₁
  refine Upholds.bind ((drainChannel_moves _ w₁ call.callId .far).imp
    (fun w₂ hm => h.half _ _ (h.far _ _ _ h₁ hm)) fun _ hm => hm) fun w₂ hm => ?_
  exact (drainChannel_moves _ w₂ call.callId .near).mono
    fun w₃ hm' => h.near _ _ _ (h.far _ _ _ h₁ hm) hm'

end Work

/-! ## What a step keeps -/

namespace Work

variable {law : Law dsp} {w : Work dsp} {read : Option (List α)} {ch : Channel}

theorem readChannel_rules {P : α → Prop}
    (hfeed : ∀ {ch : Channel} {e : SegmentEncoder dsp ch} {samples : List α} (budget : Budget),
      (∀ a ∈ samples, P a) → law.enc ch e → law.enc ch (e.pushSamples samples budget).enc ∧
        ∀ out, (e.pushSamples samples budget).out = some out → ∀ s ∈ out, law.seg ch s)
    (h : law.Rules w) (ch : Channel) (hread : ∀ xs ∈ read, ∀ a ∈ xs, P a) :
    Upholds law.Rules (fun r => law.Rules r.2) (w.readChannel ch read) := by
  unfold readChannel
  split
  · exact h
  rename_i q hq
  split
  · exact h
  rename_i available
  obtain ⟨henc, hready⟩ := h.pipes ch q hq
  obtain ⟨hpushed, hout⟩ := hfeed w.budget
    (fun a ha => hread available rfl a (mem_of_mem_take (i := readSamples) ha)) henc
  dsimp only
  split
  · exact h
  split
  · exact ⟨h.pipes.setPipe ⟨hpushed, hready⟩, h.log⟩
  rename_i finished hfinished
  refine ⟨h.pipes.setPipe ⟨hpushed, fun s hs => ?_⟩, h.log⟩
  exact (mem_append.mp hs).elim (hready s) (hout finished hfinished s)

theorem startCall_rules (h : law.Rules w) (env : StepEnv α) :
    Upholds law.Rules law.Rules (w.startCall env) := by
  unfold startCall
  split
  · exact h
  · exact h.record (fun ch => by cases ch <;> rfl) rfl rfl nofun

theorem recordEnd_rules (h : law.Rules w) (callId : CallId) (env : StepEnv α) (reason : EndReason) :
    Upholds law.Rules (fun w' => law.Rules w' ∧ w'.pipeline = w.pipeline)
      (w.recordEnd callId env reason) := by
  unfold recordEnd
  split
  · exact h
  · exact ⟨h.record (fun ch => by cases ch <;> rfl) rfl rfl nofun, rfl⟩

variable [Inhabited α]

theorem Moves.rules {flushed : Prop} {callId : CallId} {w' : Work dsp} (h : law.Rules w)
    (hflush : flushed → law.Flushes) (hm : Moves flushed callId ch w w') : law.Rules w' := by
  cases hm with
  | idle hw => exact hw ▸ h
  | moved q q' segs b hq hready hout hs =>
    obtain ⟨henc, hseg⟩ := h.pipes ch q hq
    have hpipe : law.enc ch q'.encoder ∧ ∀ s ∈ segs, law.seg ch s := by
      rcases hout with ⟨he, hsegs⟩ | ⟨hf, he, hsegs⟩ <;> rw [he]
      · exact ⟨henc, fun s hs => hseg s (hsegs.subset hs)⟩
      obtain ⟨hflushed, hout⟩ := hflush hf w.budget henc
      refine ⟨hflushed, fun s hs => ?_⟩
      rcases hsegs with rfl | ⟨tail, htail, hsegs⟩
      · cases hs
      · exact (mem_append.mp (hsegs.subset hs)).elim (hseg s) (hout tail htail s)
    refine ⟨(h.pipes.setPipe ⟨hpipe.1, by simp [hready]⟩).congr hs.pipe, hs.connected ▸ h.log.1,
      fun row pcm hmem => ?_⟩
    rw [hs.log] at hmem
    rcases mem_append.mp hmem with hmem | hmem
    · exact h.log.2 row pcm hmem
    obtain ⟨s, hs, heq⟩ := mem_map.mp hmem
    obtain ⟨rfl, rfl⟩ := Entry.spooled.inj heq
    exact law.spooled callId _ (hpipe.2 s hs)

theorem act_rules (h : law.Rules w) (env : StepEnv α) {t : Transition} (ht : law.Allows t) :
    Upholds law.Rules law.Rules (w.act env t) := by
  have hmoves : ∀ {ch c w w'}, law.Rules w → Moves (∃ reason, t = .callEnded reason) c ch w w' →
      law.Rules w' := fun h hm => hm.rules h fun ⟨reason, hend⟩ => ht.flushes reason hend
  exact act_handles (F := fun _ => law.Rules) {
    restart := fun ht' w ch _ _ h =>
      ⟨h.pipes.setPipe ⟨ht.renews ht' ch, forall_mem_nil _⟩, h.log⟩
    start := fun w h => startCall_rules h env
    close := fun w h => ⟨h.pipes.congr fun ch => by cases ch <;> rfl, h.log⟩
    far := fun _ _ _ => hmoves
    near := fun _ _ _ => hmoves
    idle := fun _ h => h
    half := fun _ _ h => h
    stop := fun w c reason h => recordEnd_rules h c env reason
    bound := fun w _ h => ⟨h.pipes.boundPreroll, h.log⟩ } h

end Work

namespace Law.Holds

variable {law : Law dsp} {r : Rig dsp}

theorem init (policy : Policy) (tier : CaptureTier) (deviceId userUid : String) {u : Uplink}
    (hplug : law.plug u.connected) : law.Holds (Rig.init policy tier deviceId userUid u) where
  pipes ch _ hq := by cases ch <;> cases hq
  log := ⟨hplug, fun _ _ hmem => absurd hmem not_mem_nil⟩

theorem capture [Inhabited α] {env : StepEnv α}
    (h : Upholds law.Rules law.Rules (Work.step ⟨r.pipeline, r.book, env.budget, {}⟩ env)) :
    law.Holds (r.capture env) := by
  unfold Rig.capture
  generalize Work.step ⟨r.pipeline, r.book, env.budget, {}⟩ env = result at h ⊢
  cases result with
  | error | ok => exact ⟨h.pipes, h.log⟩

theorem step [Inhabited α] (h : law.Holds r) {e : PipeEvent α}
    (hnew : ∀ env, e = .openPinned env → law.Renews) (hplug : ∀ b, law.plug b)
    (hcapture : ∀ env, e = .step env → law.Holds (r.capture env)) : law.Holds (r.step e) := by
  have hsame : ∀ {p : Pipeline dsp}, (∀ ch, p.pipe ch = r.pipeline.pipe ch) →
      law.Holds { r with pipeline := p } := fun hpipe => ⟨h.pipes.congr hpipe, h.log⟩
  cases e with
  | openPinned env =>
    exact ⟨forall_opened (P := fun _ => law.Pipe) h.pipes
      (fun ch => ⟨hnew env rfl ch, forall_mem_nil _⟩) (openPinned_opened r.pipeline env), h.log⟩
  | deviceLost => exact ⟨fun ch q hq => (by cases ch <;> cases hq), h.log⟩
  | step env => exact hcapture env rfl
  | uplink u => exact ⟨h.pipes, hplug _, h.log.2⟩
  | _ => exact hsame fun ch => by cases ch <;> rfl

end Law.Holds

/-! ## Relabelling -/

section Relabelling

variable {β : Type}

def StepEnv.map (f : α → β) (env : StepEnv α) : StepEnv β where
  far := env.far.map (List.map f)
  near := env.near.map (List.map f)
  callId := env.callId
  startedAt := env.startedAt
  endedAt := env.endedAt
  budget := env.budget

def PipeEvent.map (f : α → β) : PipeEvent α → PipeEvent β
  | .openPinned env => .openPinned env
  | .sessionState active => .sessionState active
  | .userChanged uid => .userChanged uid
  | .block reason => .block reason
  | .unblock => .unblock
  | .deviceLost => .deviceLost
  | .step env => .step (env.map f)
  | .takeEvents => .takeEvents
  | .setAccountRef a => .setAccountRef a
  | .uplink u => .uplink u

end Relabelling

end Sentinel.Capture
