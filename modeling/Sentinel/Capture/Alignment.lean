import Sentinel.Capture.Attribution
import Sentinel.Capture.Waiting

/-!
# The two channels of a call

The source says that both channels stamp segments from the one shared clock.
-/

open List Nat

namespace Sentinel.Capture

open Runs (run Along)
open Faults (Budget Upholds)

inductive Stamped (α : Type) where
  | captured (a : α) (clockMs : Nat)
  | silence

namespace Stamped

variable {α : Type}

instance : Inhabited (Stamped α) := ⟨silence⟩

def stamp : Stamped α → Option Nat
  | captured _ clockMs => some clockMs
  | silence => none

def stamps (pcm : List (Stamped α)) : List Nat := pcm.filterMap stamp

def interval (pcm : List (Stamped α)) : Option Nat × Option Nat :=
  ((stamps pcm).head?, (stamps pcm).getLast?)

theorem stamps_of_map {pcm : List (Stamped α)} {clocks : List Nat}
    (h : pcm.map stamp = clocks.map some) : stamps pcm = clocks := by
  have hids := congrArg (filterMap id) h
  simpa [stamps, filterMap_map] using hids

end Stamped

open Stamped (stamp stamps interval)

def WithinFrame : Option Nat → Option Nat → Prop
  | some a, some b => a ≤ b + 20 ∧ b ≤ a + 20
  | none, none => True
  | _, _ => False

instance : DecidableRel WithinFrame
  | some _, some _ => inferInstanceAs (Decidable (_ ∧ _))
  | none, none => isTrue trivial
  | some _, none => isFalse id
  | none, some _ => isFalse id

theorem WithinFrame.refl (a : Option Nat) : WithinFrame a a := by
  cases a with
  | none => trivial
  | some a => exact ⟨le_add_right _ _, le_add_right _ _⟩

variable {α : Type} {dsp : Dsp (Stamped α)} {ch : Channel}

def callsOf (log : List (Entry (Stamped α))) : List CallId :=
  (spooledOf log).map (·.1.1.callId)

def AlignedSince (before log : List (Entry (Stamped α))) : Prop :=
  ∀ s ∈ spooledOf log, ∀ t ∈ spooledOf log, s.1.1.channel = .far → t.1.1.channel = .near →
    s.1.1.callId = t.1.1.callId → s.1.1.callId ∉ callsOf before →
    s.1.2.timestampMs = t.1.2.timestampMs →
    WithinFrame (interval s.2).1 (interval t.2).1 ∧ WithinFrame (interval s.2).2 (interval t.2).2

instance (before log : List (Entry (Stamped α))) : Decidable (AlignedSince before log) :=
  inferInstanceAs (Decidable (∀ _ ∈ _, ∀ _ ∈ _, _ → _ → _ → _ → _ → _))

/-! ## The machine -/

def PipeEvent.replacesPipes : PipeEvent α → Bool
  | .openPinned _ | .deviceLost => true
  | _ => false

def Transition.endsCall : Transition → Bool
  | .callEnded _ => true
  | _ => false

namespace Rig

def stampEvent (r : Rig dsp) (e : PipeEvent α) : PipeEvent (Stamped α) :=
  e.map (.captured · r.pipeline.clockMs)

def clockStep (r : Rig dsp) (e : PipeEvent α) : Rig dsp := r.step (r.stampEvent e)

def heard (r : Rig dsp) (e : PipeEvent α) : Transition :=
  match r.stampEvent e with
  | .step env =>
    ((Work.sampled ⟨r.pipeline, r.book, env.budget, {}⟩ env).map fun heard =>
      (heard.1.pipeline.listen heard.2).2).getD .none
  | _ => .none

def WithinCall (r : Rig dsp) (e : PipeEvent α) : Prop :=
  e.replacesPipes = false ∧ r.heard e ≠ .armed ∧ r.heard e ≠ .armDiscarded

def GoesOn (r : Rig dsp) (e : PipeEvent α) : Prop := (r.heard e).endsCall = false

instance (r : Rig dsp) (e : PipeEvent α) : Decidable (r.WithinCall e) :=
  inferInstanceAs (Decidable (_ ∧ _ ∧ _))

instance (r : Rig dsp) (e : PipeEvent α) : Decidable (r.GoesOn e) :=
  inferInstanceAs (Decidable (_ = _))

end Rig

def Even : PipeEvent α → Prop
  | .step env => env.budget = none ∧
      (env.far = none ∨ ((env.samples .far).take readSamples).length =
        ((env.samples .near).take readSamples).length)
  | _ => True

instance : DecidablePred (Even : PipeEvent α → Prop)
  | .step _ => inferInstanceAs (Decidable (_ ∧ (_ ∨ _)))
  | .openPinned _ | .sessionState _ | .userChanged _ | .block _ | .unblock | .deviceLost
  | .takeEvents | .setAccountRef _ | .uplink _ => isTrue trivial

def Rig.Fresh (r : Rig dsp) : Prop :=
  ∀ ch, ∀ q ∈ r.pipeline.pipe ch, q.encoder.held = [] ∧ q.encoder.nextSeq = 0 ∧
    q.encoder.segmentStartMs = 0 ∧ q.ready = []

/-! ## What an encoder has of the stream -/

namespace SegmentEncoder

def Timed (e : SegmentEncoder dsp ch) : Prop := e.segmentStartMs = segmentMs * e.nextSeq

end SegmentEncoder

def portion (S : List Nat) (k : Nat) : List Nat := (S.drop (segmentSamples * k)).take segmentSamples

def Segment.Timed (s : Segment (Stamped α) ch) : Prop := s.timestampMs = segmentMs * s.seq

structure Whole (S : List Nat) (e : SegmentEncoder dsp ch) : Prop where
  timed : e.Timed
  held : e.held.map stamp = (S.drop (segmentSamples * e.nextSeq)).map some
  le : segmentSamples * e.nextSeq ≤ S.length

structure Rest (S : List Nat) (e : SegmentEncoder dsp ch) : Prop where
  timed : e.Timed
  held : stamps e.held = S.drop (segmentSamples * e.nextSeq)

structure Segment.Whole (S : List Nat) (s : Segment (Stamped α) ch) : Prop where
  timed : s.Timed
  pcm : s.pcm.map stamp = (portion S s.seq).map some
  le : segmentSamples * s.seq + segmentSamples ≤ S.length

structure Segment.Part (S : List Nat) (s : Segment (Stamped α) ch) : Prop where
  timed : s.Timed
  pcm : stamps s.pcm = portion S s.seq

theorem portion_append {S T : List Nat} {k : Nat}
    (h : segmentSamples * k + segmentSamples ≤ S.length) : portion (S ++ T) k = portion S k := by
  unfold portion
  rw [drop_append_of_le_length (by omega), take_append_of_le_length]
  rw [length_drop]
  omega

theorem Segment.Whole.append {S : List Nat} {s : Segment (Stamped α) ch} (h : s.Whole S)
    (T : List Nat) : s.Whole (S ++ T) where
  timed := h.timed
  pcm := by rw [portion_append h.le, h.pcm]
  le := by
    have hle := h.le
    rw [length_append]
    omega

def wholeLaw (before : List CallId) (S : List Nat) : Law dsp where
  enc _ e := Whole S e
  seg _ s := s.Whole S
  row row pcm := row.1.callId ∉ before → row.2.timestampMs = segmentMs * row.1.seq ∧
    pcm.map stamp = (portion S row.1.seq).map some ∧
    segmentSamples * row.1.seq + segmentSamples ≤ S.length
  spooled _ _ h _ := ⟨h.timed, h.pcm, h.le⟩

def streamLaw (before : List CallId) (S : List Nat) : Law dsp where
  enc _ e := Rest S e
  seg _ s := s.Part S
  row row pcm := row.1.callId ∉ before → row.2.timestampMs = segmentMs * row.1.seq ∧
    stamps pcm = portion S row.1.seq
  spooled _ _ h _ := ⟨h.timed, h.pcm⟩

theorem wholeLaw_implies (before : List CallId) (S : List Nat) :
    (wholeLaw before S : Law dsp).Implies (streamLaw before S) where
  enc _ h := ⟨h.timed, Stamped.stamps_of_map h.held⟩
  seg _ h := ⟨h.timed, Stamped.stamps_of_map h.pcm⟩
  row _ _ h hnew := ⟨(h hnew).1, Stamped.stamps_of_map (h hnew).2.1⟩
  plug _ h := h

theorem alignedSince_of_streamLaw {before : List (Entry (Stamped α))} {book : Recorder (Stamped α)}
    {S : List Nat} (h : (streamLaw (callsOf before) S : Law dsp).Log book) :
    AlignedSince before book.log := by
  intro s hs t ht _ _ hcall hnew htime
  obtain ⟨hstime, hspcm⟩ := h.2 s.1 s.2 (spooled_of_mem hs) hnew
  obtain ⟨httime, htpcm⟩ := h.2 t.1 t.2 (spooled_of_mem ht) (hcall ▸ hnew)
  have hseq : s.1.1.seq = t.1.1.seq := by
    rw [hstime, httime] at htime
    exact Nat.eq_of_mul_eq_mul_left (by decide) htime
  have hpcm : stamps s.2 = stamps t.2 := by rw [hspcm, htpcm, hseq]
  unfold interval
  rw [hpcm]
  exact ⟨.refl _, .refl _⟩

/-! ## Pushing and flushing -/

namespace SegmentEncoder

theorem Timed.pushSamples {e : SegmentEncoder dsp ch} (h : e.Timed)
    (samples : List (Stamped α)) (budget : Budget) :
    (e.pushSamples samples budget).enc.Timed ∧
      ∀ out, (e.pushSamples samples budget).out = some out → ∀ s ∈ out, s.Timed := by
  refine pushSamples_keeps (P := fun _ => True) (fun _ _ _ he => he) (fun e hp he => ?_) budget h
    fun _ _ => trivial
  unfold closeFrame
  dsimp only
  split
  · refine ⟨?_, fun s hs => ?_⟩
    · change e.segmentStartMs + segmentMs = segmentMs * (e.nextSeq + 1)
      rw [he, mul_succ]
    · rwa [mem_singleton.mp hs]
  · exact ⟨he, forall_mem_nil _⟩

end SegmentEncoder

theorem Whole.pushSamples {S T : List Nat} {e : SegmentEncoder dsp ch} (h : Whole S e)
    {samples : List (Stamped α)} (hsamples : samples.map stamp = T.map some)
    (hread : samples.length ≤ frameSamples) {budget : Budget}
    {out : List (Segment (Stamped α) ch)} (hout : (e.pushSamples samples budget).out = some out) :
    Whole (S ++ T) (e.pushSamples samples budget).enc ∧ ∀ s ∈ out, s.Whole (S ++ T) := by
  obtain ⟨htimed, hsegs⟩ := h.timed.pushSamples samples budget
  obtain ⟨henc, hfull⟩ := SegmentEncoder.pushSamples_spec hout
  have hsegs := hsegs out hout
  set e' := (e.pushSamples samples budget).enc
  have hnext := henc.nextSeq
  have hle := h.le
  have hheld := congrArg length h.held
  have hT := congrArg length hsamples
  simp only [length_map, length_drop] at hheld hT
  match out, SegmentEncoder.length_out_le_one henc hfull hread with
  | [], _ =>
    have hpcm := henc.pcm
    rw [flatMap_nil, nil_append] at hpcm
    rw [length_nil, add_zero] at hnext
    refine ⟨⟨htimed, ?_, ?_⟩, forall_mem_nil _⟩
    · rw [hpcm, map_append, h.held, hsamples, hnext, drop_append_of_le_length hle, map_append]
    rw [hnext, length_append]
    omega
  | [seg], _ =>
    have hlength := hfull seg mem_cons_self
    obtain ⟨mid, hmid, hrest⟩ := henc.split_of_full hlength
    have hseq : seg.seq = e.nextSeq := by simpa using henc.seqs
    rw [length_singleton] at hnext
    -- The segment takes the rest of the old stream and the start of the new part.
    have hcount := congrArg length hmid
    rw [length_append, hlength, hheld] at hcount
    have hshort := congrArg length hrest
    rw [length_append] at hshort
    rw [hrest, map_append, ← take_append_drop mid.length T, map_append] at hsamples
    obtain ⟨hstart, hend⟩ := append_inj hsamples (by
      rw [length_map, length_map, length_take]
      omega)
    have hindex : segmentSamples * e'.nextSeq = S.length + mid.length := by
      rw [hnext, mul_succ]
      omega
    refine ⟨⟨htimed, ?_, ?_⟩, fun s hs => ?_⟩
    · rw [hend, hindex, drop_length_add_append]
    · rw [hindex, length_append]
      omega
    obtain rfl := mem_singleton.mp hs
    refine ⟨hsegs s hs, ?_, ?_⟩
    · have hportion : portion (S ++ T) e.nextSeq =
          S.drop (segmentSamples * e.nextSeq) ++ T.take mid.length := by
        unfold portion
        rw [drop_append_of_le_length hle, take_append, length_drop,
          take_of_length_le (by rw [length_drop]; omega)]
        congr 2
        omega
      rw [hmid, hseq, hportion, map_append, map_append, h.held, hstart]
    rw [hseq, length_append]
    omega

theorem Rest.emit {S : List Nat} {e : SegmentEncoder dsp ch} (h : Rest S e)
    (frames : List (List UInt8)) {pcm : List (Stamped α)} (hpcm : stamps pcm = stamps e.held) :
    Rest S (e.emit frames pcm).1 ∧ (e.emit frames pcm).2.Part S := by
  have hle : (S.drop (segmentSamples * e.nextSeq)).length ≤ segmentSamples := by
    rw [← h.held]
    exact le_trans (length_filterMap_le _ _) e.held_length_le
  refine ⟨⟨?_, ?_⟩, h.timed, ?_⟩
  · change e.segmentStartMs + segmentMs = segmentMs * (e.nextSeq + 1)
    rw [h.timed, mul_succ]
  · change [] = S.drop (segmentSamples * (e.nextSeq + 1))
    rw [length_drop] at hle
    rw [drop_eq_nil_of_le]
    rw [mul_succ]
    omega
  change stamps pcm = portion S e.nextSeq
  rw [hpcm, h.held, portion, take_of_length_le hle]

theorem streamLaw_flushes (before : List CallId) (S : List Nat) :
    (streamLaw before S : Law dsp).Flushes := by
  intro ch e budget h
  have h : Rest S e := h
  have hpadded : ∀ k, stamps (e.held ++ replicate k default) = stamps e.held := by
    intro k
    unfold stamps
    rw [filterMap_append]
    simp [filterMap_replicate, stamp, default]
  have hf := e.flush_flushed budget
  generalize e.flush budget = c at hf
  cases hf with
  | empty =>
    refine ⟨h, fun out hout => ?_⟩
    obtain rfl := Option.some.inj hout
    exact forall_mem_nil _
  | refused =>
    have hheld := hpadded (frameSamples - e.pending.length)
    rw [SegmentEncoder.held, append_assoc] at hheld
    exact ⟨⟨h.timed, hheld.trans h.held⟩, fun out hout => by cases hout⟩
  | closed encoder frames silence left hheld hcase =>
    have hsilence : stamps (e.held ++ silence) = stamps e.held := by
      rcases hcase with ⟨-, rfl⟩ | ⟨-, rfl⟩
      · exact hpadded 0
      · exact hpadded _
    obtain ⟨hrest, hpart⟩ := Rest.emit (e := { e with encoder, silenceInserted := true })
      ⟨h.timed, h.held⟩ (SegmentEncoder.padFrames frames) hsilence
    refine ⟨hrest, fun out hout => ?_⟩
    obtain rfl := Option.some.inj hout
    exact forall_mem_singleton.mpr hpart

/-! ## A step -/

namespace Rig

variable {r : Rig dsp} {before : List CallId} {S : List Nat}

def work (r : Rig dsp) (env : StepEnv α) : Work dsp :=
  ⟨r.pipeline, r.book, (env.map (Stamped.captured · r.pipeline.clockMs)).budget, {}⟩

theorem map_stamp (r : Rig dsp) (read : Option (List α)) :
    (((read.map (List.map (Stamped.captured · r.pipeline.clockMs))).getD []).take
      readSamples).map stamp =
      (replicate ((read.getD []).take readSamples).length r.pipeline.clockMs).map some := by
  cases read with
  | none => simp
  | some xs =>
    rw [Option.map_some, Option.getD_some, Option.getD_some, ← map_take, map_map]
    rw [map_replicate]
    exact map_const' ..

def count (env : StepEnv α) (ch : Channel) : Nat := ((env.samples ch).take readSamples).length

theorem pipe_whole {T : List Nat} {q q' : ChannelPipe dsp ch} {samples : List (Stamped α)}
    {budget : Budget} {out : List (Segment (Stamped α) ch)} (h : (wholeLaw before S).Pipe q)
    (hsamples : samples.map stamp = T.map some) (hread : samples.length ≤ frameSamples)
    (hout : (q.encoder.pushSamples samples budget).out = some out)
    (henc : q'.encoder = (q.encoder.pushSamples samples budget).enc)
    (hready : q'.ready = q.ready ++ out) : (wholeLaw before (S ++ T)).Pipe q' := by
  obtain ⟨hpushed, hsegs⟩ := Whole.pushSamples h.1 hsamples hread hout
  refine ⟨henc ▸ hpushed, fun s hs => ?_⟩
  rw [hready] at hs
  rcases mem_append.mp hs with hs | hs
  · exact (h.2 s hs).append T
  · exact hsegs s hs

variable {n : Nat} {w w1 : Work dsp} {env : StepEnv α}

theorem read_whole {w' : Work dsp} (read : Option (List α))
    (h : ∀ q ∈ w.pipeline.pipe ch, (wholeLaw before S).Pipe q)
    (hread : w.readChannel ch (read.map (List.map (Stamped.captured · r.pipeline.clockMs))) =
      .ok (n, w')) :
    ∀ q' ∈ w'.pipeline.pipe ch, (wholeLaw before (S ++
      replicate ((read.getD []).take readSamples).length r.pipeline.clockMs)).Pipe q' := by
  intro q' hq'
  obtain ⟨q, hq, out, hout, henc, hready⟩ := (Work.readChannel_pushed hread).pipe q' hq'
  exact pipe_whole (h q hq) (r.map_stamp read) (length_take_le _ _) hout henc hready

theorem log_whole {book : Recorder (Stamped α)} (h : (wholeLaw before S : Law dsp).Log book)
    (T : List Nat) : (wholeLaw before (S ++ T) : Law dsp).Log book := by
  refine ⟨h.1, fun row pcm hmem hnew => ?_⟩
  obtain ⟨htime, hpcm, hle⟩ := h.2 row pcm hmem hnew
  refine ⟨htime, by rw [hpcm, portion_append hle], ?_⟩
  rw [length_append]
  omega

theorem even_count (heven : Even (.step env)) {q : ChannelPipe dsp .far}
    (hq : r.pipeline.far = some q) (hfar : (r.work env).readChannel .far
      (env.map (Stamped.captured · r.pipeline.clockMs)).far = .ok (n, w1)) :
    count env .far = count env .near := by
  rcases heven.2 with hnone | hcount
  · unfold Work.readChannel at hfar
    simp [work, Pipeline.pipe, hq, StepEnv.map, hnone] at hfar
  · exact hcount

theorem sampled_whole (h : (wholeLaw before S).Holds r) (heven : Even (.step env)) {m : Nat}
    {w2 : Work dsp} (hfar : (r.work env).readChannel .far
      (env.map (Stamped.captured · r.pipeline.clockMs)).far = .ok (n, w1))
    (hnear : w1.readChannel .near
      (env.map (Stamped.captured · r.pipeline.clockMs)).near = .ok (m, w2)) :
    ∃ T, (wholeLaw before (S ++ T)).Rules w2 := by
  have hpush1 := Work.readChannel_pushed hfar
  have hpush2 := Work.readChannel_pushed hnear
  have hother1 : w1.pipeline.pipe .near = r.pipeline.pipe .near := hpush1.other .near (by decide)
  have hother2 : w2.pipeline.pipe .far = w1.pipeline.pipe .far := hpush2.other .far (by decide)
  have hfars := read_whole env.far (h.pipes .far) hfar
  have hnears := read_whole env.near (fun q hq => h.pipes .near q (hother1 ▸ hq)) hnear
  refine ⟨replicate (count env .near) r.pipeline.clockMs, fun ch q' hq' => ?_, ?_⟩
  · cases ch with
    | near => exact hnears q' hq'
    | far =>
      rw [hother2] at hq'
      obtain ⟨q, hq, -⟩ := hpush1.pipe q' hq'
      rw [← even_count heven hq hfar]
      exact hfars q' hq'
  rw [hpush2.book, hpush1.book]
  exact log_whole h.log _

theorem nearFailed_whole (h : (wholeLaw before S).Holds r) (heven : Even (.step env))
    {w2 : Work dsp} (hfar : (r.work env).readChannel .far
      (env.map (Stamped.captured · r.pipeline.clockMs)).far = .ok (n, w1))
    (hnear : w1.readChannel .near
      (env.map (Stamped.captured · r.pipeline.clockMs)).near = .error w2) :
    (wholeLaw before S).Rules w2 := by
  have hpush := Work.readChannel_pushed hfar
  have hother : w1.pipeline.pipe .near = r.pipeline.pipe .near := hpush.other .near (by decide)
  obtain ⟨rfl, hnone⟩ := Work.readChannel_failed (hpush.budget heven.1) hnear
  have hzero : count env .near = 0 := by
    have henv : env.near = none := Option.map_eq_none_iff.mp hnone
    simp [count, StepEnv.samples, henv]
  refine ⟨fun ch q' hq' => ?_, ?_⟩
  · cases ch with
    | near => exact h.pipes .near q' (hother ▸ hq')
    | far =>
      obtain ⟨q, hq, -⟩ := hpush.pipe q' hq'
      have hwhole := read_whole env.far (h.pipes .far) hfar q' hq'
      have hcount : count env .far = 0 := (even_count heven hq hfar).trans hzero
      rwa [show ((env.far.getD []).take readSamples).length = 0 from hcount, replicate_zero,
        append_nil] at hwhole
  rw [hpush.book]
  exact h.log

theorem listen_whole (h : (wholeLaw before S).Rules w) (n : Nat) :
    (wholeLaw before S).Rules { w with pipeline := (w.pipeline.listen n).1 } :=
  ⟨forall_listen (P := fun _ => (wholeLaw before S).Pipe) h.pipes
    (fun _ ⟨he, hready⟩ => ⟨⟨he.timed, he.held, he.le⟩, hready⟩) n, h.log⟩

theorem heard_of_sampled
    (h : (r.work env).sampled (env.map (Stamped.captured · r.pipeline.clockMs)) = some (w, n)) :
    r.heard (.step env) = (w.pipeline.listen n).2 := by
  change ((Option.map _ ((r.work env).sampled _)).getD _) = _
  rw [h]
  rfl

theorem capture_whole (h : (wholeLaw before S).Holds r) (heven : Even (.step env))
    (hwithin : r.WithinCall (.step env)) :
    ∃ S', (streamLaw before S').Holds (r.clockStep (.step env)) ∧
      (r.GoesOn (.step env) → (wholeLaw before S').Holds (r.clockStep (.step env))) := by
  set env' := env.map (Stamped.captured · r.pipeline.clockMs) with henv
  have hboth : ∀ S' : List Nat,
      Upholds (wholeLaw before S').Rules (wholeLaw before S').Rules ((r.work env).step env') →
      ∃ S', (streamLaw before S').Holds (r.clockStep (.step env)) ∧
        (r.GoesOn (.step env) → (wholeLaw before S').Holds (r.clockStep (.step env))) := by
    intro S' hS'
    have hholds : (wholeLaw before S').Holds (r.clockStep (.step env)) := Law.Holds.capture hS'
    exact ⟨S', (wholeLaw_implies ..).holds hholds, fun _ => hholds⟩
  have hshape := (r.work env).step_proceeds env'
  generalize hresult : (r.work env).step env' = result at hshape
  generalize hsampled : (r.work env).sampled env' = sampled at hshape
  cases hshape with
  | farFailed hfar =>
    obtain ⟨rfl, -⟩ := Work.readChannel_failed heven.1 hfar
    refine hboth S ?_
    rw [hresult]
    exact ⟨h.pipes, h.log⟩
  | nearFailed hfar hnear =>
    refine hboth S ?_
    rw [hresult]
    exact nearFailed_whole h heven hfar hnear
  | idle hfar hnear =>
    obtain ⟨T, hT⟩ := sampled_whole h heven hfar hnear
    refine hboth (S ++ T) ?_
    rwa [hresult]
  | @listened n m w1 w2 hfar hnear =>
    obtain ⟨T, hT⟩ := sampled_whole h heven hfar hnear
    have hlistened := listen_whole hT (max n m)
    have hheard := heard_of_sampled hsampled
    have hrestart : ∀ {P : Prop}, (w2.pipeline.listen (max n m)).2 = .armed ∨
        (w2.pipeline.listen (max n m)).2 = .armDiscarded → P := by
      rw [← hheard]
      rintro P (harmed | hdiscarded)
      · exact absurd harmed hwithin.2.1
      · exact absurd hdiscarded hwithin.2.2
    by_cases hends : ∃ reason, (w2.pipeline.listen (max n m)).2 = .callEnded reason
    · obtain ⟨reason, hreason⟩ := hends
      refine ⟨S ++ T, Law.Holds.capture ?_, fun hgoes => ?_⟩
      swap
      · rw [Rig.GoesOn, hheard, hreason] at hgoes
        cases hgoes
      change Upholds _ _ ((r.work env).step env')
      rw [hresult]
      refine Work.act_rules ?_ env' ⟨hrestart, fun _ _ => streamLaw_flushes before _⟩
      exact ⟨(wholeLaw_implies ..).pipes hlistened.pipes, (wholeLaw_implies ..).log hlistened.log⟩
    refine hboth (S ++ T) ?_
    rw [hresult]
    refine Work.act_rules hlistened env' ⟨hrestart, fun reason hreason => ?_⟩
    exact absurd ⟨reason, hreason⟩ hends

theorem clockStep_whole (h : (wholeLaw before S).Holds r) {e : PipeEvent α} (heven : Even e)
    (hwithin : r.WithinCall e) :
    ∃ S', (streamLaw before S').Holds (r.clockStep e) ∧
      (r.GoesOn e → (wholeLaw before S').Holds (r.clockStep e)) := by
  have hbetween : (∀ env, r.stampEvent e ≠ .step env) → (∀ env, r.stampEvent e ≠ .openPinned env) →
      ∃ S', (streamLaw before S').Holds (r.clockStep e) ∧
        (r.GoesOn e → (wholeLaw before S').Holds (r.clockStep e)) := by
    intro hstep hopen
    have hholds : (wholeLaw before S).Holds (r.clockStep e) :=
      h.step (fun env henv => absurd henv (hopen env)) (fun _ => trivial)
        fun env henv => absurd henv (hstep env)
    exact ⟨S, (wholeLaw_implies ..).holds hholds, fun _ => hholds⟩
  cases e with
  | step env => exact capture_whole h heven hwithin
  | openPinned | deviceLost => cases hwithin.1
  | _ => exact hbetween (by simp [stampEvent, PipeEvent.map]) (by simp [stampEvent, PipeEvent.map])

theorem Fresh.whole (h : r.Fresh) : (wholeLaw (callsOf r.book.log) []).Holds r where
  pipes ch q hq := by
    obtain ⟨hheld, hseq, hstart, hready⟩ := h ch q hq
    refine ⟨⟨?_, by rw [hheld]; simp, by rw [hseq]; simp⟩, fun s hs => ?_⟩
    · rw [SegmentEncoder.Timed, hstart, hseq]
      rfl
    rw [hready] at hs
    exact absurd hs not_mem_nil
  log := by
    refine ⟨trivial, fun row pcm hmem hnew => absurd (mem_map.mpr ⟨(row, pcm), ?_, rfl⟩) hnew⟩
    exact mem_filterMap.mpr ⟨_, hmem, rfl⟩

end Rig

def stampedDsp : Dsp (Stamped Int) :=
  thresholdDsp fun
    | .captured a _ => a ≠ 0
    | .silence => false

def armedRig : Rig stampedDsp :=
  run Rig.clockStep (.init briskPolicy .A "device-1" "alice" { spool := {} })
    ([.openPinned headset, .sessionState true] : List (PipeEvent Int))

theorem armedRig_fresh : armedRig.Fresh := by
  intro ch q hq
  cases ch with
  | far | near =>
    obtain rfl : {} = q := Option.some.inj hq
    exact ⟨rfl, rfl, rfl, rfl⟩

def twoReads (a : Int) (far near : Nat) : PipeEvent Int :=
  .step { far := some (List.replicate far a), near := some (List.replicate near 0)
          callId := "call-1" }

def twoFrameCall (near : Nat) : List (PipeEvent Int) :=
  [twoReads 1 320 near, twoReads 1 320 near, .sessionState false, twoReads 0 320 320]

end Sentinel.Capture
