import Mathlib.Tactic.Ring
import Sentinel.Lib.Faults
import Sentinel.Protocol

/-!
# The segment encoder

One encoder per channel (`encode.rs`) turns samples into sequenced segments: 320 samples make a
frame, fifty frames a segment, and a partial segment is padded when a call ends.
-/

open List Option

namespace Sentinel.Capture

open Faults (Budget)

structure Dsp (α : Type) where
  Vad : Type
  vad : Vad
  pushFrame : Vad → List α → Vad
  isVoiced : Vad → Bool
  Opus : Type
  opus : Opus
  encode : Opus → List α → Opus × List UInt8

def sampleRate : Nat := 16000

def frameSamples : Nat := 320

def framesPerSegment : Nat := 50

def segmentMs : Nat := framesPerSegment * 20

def segmentSamples : Nat := framesPerSegment * frameSamples

variable {α : Type}

structure Segment (α : Type) (ch : Channel) where
  seq : Nat
  timestampMs : Nat
  flags : MediaFlags
  payload : List UInt8
  pcm : List α

def packSegment (frames : List (List UInt8)) : List UInt8 :=
  frames.flatMap fun f => UInt8.ofNat f.length :: UInt8.ofNat (f.length / 256) :: f

structure SegmentEncoder (dsp : Dsp α) (ch : Channel) where
  encoder : dsp.Opus := dsp.opus
  pending : List α := []
  frames : List (List UInt8) := []
  nextSeq : Nat := 0
  segmentStartMs : Nat := 0
  silenceInserted : Bool := false
  foreign : Bool := false
  taken : List α := []
  pending_le : pending.length ≤ frameSamples := by exact Nat.zero_le _
  frames_lt : frames.length < framesPerSegment := by decide
  taken_length : taken.length = frames.length * frameSamples := by rfl

namespace SegmentEncoder

variable {dsp : Dsp α} {ch : Channel}

def new : SegmentEncoder dsp ch := {}

def held (e : SegmentEncoder dsp ch) : List α := e.taken ++ e.pending

def markForeign (e : SegmentEncoder dsp ch) : SegmentEncoder dsp ch :=
  { e with foreign := true }

def emit (e : SegmentEncoder dsp ch) (frames : List (List UInt8)) (pcm : List α) :
    SegmentEncoder dsp ch × Segment α ch :=
  ({ e with
      pending := []
      frames := []
      nextSeq := e.nextSeq + 1
      segmentStartMs := e.segmentStartMs + segmentMs
      silenceInserted := false
      foreign := false
      taken := []
      pending_le := Nat.zero_le _
      frames_lt := by decide
      taken_length := rfl },
    { seq := e.nextSeq
      timestampMs := e.segmentStartMs
      flags := { foreign := e.foreign, silenceInserted := e.silenceInserted }
      payload := packSegment frames
      pcm })

def fill (e : SegmentEncoder dsp ch) (samples : List α) : SegmentEncoder dsp ch :=
  { e with
    pending := e.pending ++ samples.take (frameSamples - e.pending.length)
    pending_le := by
      have h := e.pending_le
      simp only [length_append, length_take]
      omega }

def closeFrame (e : SegmentEncoder dsp ch) (hp : e.pending.length = frameSamples) :
    SegmentEncoder dsp ch × List (Segment α ch) :=
  let coded := dsp.encode e.encoder e.pending
  if h : (e.frames ++ [coded.2]).length = framesPerSegment then
    let r := { e with encoder := coded.1 }.emit (e.frames ++ [coded.2]) (e.taken ++ e.pending)
    (r.1, [r.2])
  else
    ({ e with
        encoder := coded.1
        pending := []
        frames := e.frames ++ [coded.2]
        taken := e.taken ++ e.pending
        pending_le := Nat.zero_le _
        frames_lt := by
          have hlt := e.frames_lt
          rw [length_append, length_singleton] at h ⊢
          omega
        taken_length := by
          rw [length_append, length_append, e.taken_length, hp, length_singleton]
          ring }, [])

structure Coded (dsp : Dsp α) (ch : Channel) where
  enc : SegmentEncoder dsp ch
  budget : Budget
  out : Option (List (Segment α ch))

def pushLoop : Nat → SegmentEncoder dsp ch → List α → Budget → List (Segment α ch) →
    Coded dsp ch
  | 0, e, _, budget, out => ⟨e, budget, some out⟩
  | n + 1, e, samples, budget, out =>
    if samples.isEmpty then ⟨e, budget, some out⟩
    else
      let rest := samples.drop (frameSamples - e.pending.length)
      if hp : (e.fill samples).pending.length = frameSamples then
        match budget.spend with
        -- The frame stays pending, and the segments completed so far are dropped.
        | none => ⟨e.fill samples, budget, none⟩
        | some left =>
          pushLoop n ((e.fill samples).closeFrame hp).1 rest left
            (out ++ ((e.fill samples).closeFrame hp).2)
      else pushLoop n (e.fill samples) rest budget out

def pushSamples (e : SegmentEncoder dsp ch) (samples : List α) (budget : Budget) :
    Coded dsp ch :=
  pushLoop (samples.length + 1) e samples budget []

def insertSilence [Inhabited α] (e : SegmentEncoder dsp ch) (gapMs : Nat) (budget : Budget) :
    Coded dsp ch :=
  if gapMs = 0 then ⟨e, budget, some []⟩
  else
    { e with silenceInserted := true }.pushSamples
      (List.replicate (gapMs * sampleRate / 1000) default) budget

def padFrames (frames : List (List UInt8)) : List (List UInt8) :=
  frames ++ List.replicate (framesPerSegment - frames.length) []

def padPending [Inhabited α] (e : SegmentEncoder dsp ch) : SegmentEncoder dsp ch :=
  { e with
    pending := e.pending ++ List.replicate (frameSamples - e.pending.length) default
    pending_le := by
      have h := e.pending_le
      simp only [length_append, length_replicate]
      omega }

def flush [Inhabited α] (e : SegmentEncoder dsp ch) (budget : Budget) : Coded dsp ch :=
  if e.pending.isEmpty && e.frames.isEmpty then ⟨e, budget, some []⟩
  else if e.pending.isEmpty then
    let r := { e with silenceInserted := true }.emit (padFrames e.frames) e.taken
    ⟨r.1, budget, some [r.2]⟩
  else
    match budget.spend with
    | none => ⟨e.padPending, budget, none⟩
    | some left =>
      let coded := dsp.encode e.encoder e.padPending.pending
      let r := { e with encoder := coded.1, silenceInserted := true }.emit
        (padFrames (e.frames ++ [coded.2])) e.padPending.held
      ⟨r.1, left, some [r.2]⟩

end SegmentEncoder

/-! ## Conservation -/

structure Encodes {dsp : Dsp α} {ch : Channel} (e e' : SegmentEncoder dsp ch)
    (samples : List α) (out : List (Segment α ch)) : Prop where
  nextSeq : e'.nextSeq = e.nextSeq + out.length
  seqs : out.map (·.seq) = List.range' e.nextSeq out.length
  pcm : out.flatMap (·.pcm) ++ e'.held = e.held ++ samples

namespace Encodes

variable {dsp : Dsp α} {ch : Channel} {e e' e'' : SegmentEncoder dsp ch}
  {samples samples' : List α} {out out' : List (Segment α ch)}

theorem refl (e : SegmentEncoder dsp ch) : Encodes e e [] [] :=
  ⟨rfl, rfl, by simp⟩

theorem trans (h : Encodes e e' samples out) (h' : Encodes e' e'' samples' out') :
    Encodes e e'' (samples ++ samples') (out ++ out') where
  nextSeq := by rw [h'.nextSeq, h.nextSeq, length_append, Nat.add_assoc]
  seqs := by
    rw [map_append, h.seqs, h'.seqs, h.nextSeq, length_append, range'_append_1]
  pcm := by
    rw [flatMap_append, append_assoc, h'.pcm, ← append_assoc, h.pcm, append_assoc]

theorem forall_pcm {P : α → Prop} (h : Encodes e e' samples out) (he : ∀ a ∈ e.held, P a)
    (hs : ∀ a ∈ samples, P a) : (∀ seg ∈ out, ∀ a ∈ seg.pcm, P a) ∧ ∀ a ∈ e'.held, P a := by
  have hall : ∀ a ∈ out.flatMap (·.pcm) ++ e'.held, P a := by
    intro a ha
    rw [h.pcm, mem_append] at ha
    exact ha.elim (he a) (hs a)
  refine ⟨fun seg hseg a ha => hall a (mem_append_left _ ?_),
    fun a ha => hall a (mem_append_right _ ha)⟩
  exact mem_flatMap.2 ⟨seg, hseg, ha⟩

end Encodes

theorem length_flatMap_pcm {ch : Channel} {out : List (Segment α ch)}
    (h : ∀ seg ∈ out, seg.pcm.length = segmentSamples) :
    (out.flatMap (·.pcm)).length = out.length * segmentSamples := by
  rw [length_flatMap, map_congr_left h, map_const', sum_replicate]
  rfl

namespace SegmentEncoder

variable {dsp : Dsp α} {ch : Channel}

theorem held_length_le (e : SegmentEncoder dsp ch) : e.held.length ≤ segmentSamples := by
  have hp := e.pending_le
  have hf := e.frames_lt
  rw [held, length_append, e.taken_length]
  unfold segmentSamples frameSamples framesPerSegment at *
  omega

theorem fill_encodes (e : SegmentEncoder dsp ch) (samples : List α) :
    Encodes e (e.fill samples) (samples.take (frameSamples - e.pending.length)) [] :=
  ⟨rfl, rfl, by simp [held, fill]⟩

theorem closeFrame_encodes (e : SegmentEncoder dsp ch) (hp : e.pending.length = frameSamples) :
    Encodes e (e.closeFrame hp).1 [] (e.closeFrame hp).2 := by
  unfold closeFrame
  dsimp only
  split
  · exact ⟨rfl, rfl, by simp [emit, held]⟩
  · exact ⟨rfl, rfl, by simp [held]⟩

@[simp] theorem closeFrame_pending (e : SegmentEncoder dsp ch)
    (hp : e.pending.length = frameSamples) : (e.closeFrame hp).1.pending = [] := by
  unfold closeFrame
  dsimp only
  split <;> rfl

theorem closeFrame_full (e : SegmentEncoder dsp ch) (hp : e.pending.length = frameSamples) :
    ∀ seg ∈ (e.closeFrame hp).2, seg.pcm.length = segmentSamples := by
  unfold closeFrame
  dsimp only
  split
  · rename_i hlast
    intro seg hseg
    rw [mem_singleton] at hseg
    subst hseg
    rw [length_append, length_singleton] at hlast
    change (e.taken ++ e.pending).length = _
    rw [length_append, e.taken_length, hp, segmentSamples, ← hlast]
    ring
  · simp

def passes (e : SegmentEncoder dsp ch) (samples : List α) : Nat :=
  samples.length + if e.pending.length = frameSamples then 1 else 0

variable {e : SegmentEncoder dsp ch} {samples : List α} {budget : Budget}
  {out : List (Segment α ch)}

theorem drop_eq_nil_of_fill (h : (e.fill samples).pending.length ≠ frameSamples) :
    samples.drop (frameSamples - e.pending.length) = [] := by
  have hle := e.pending_le
  have hlen : (e.fill samples).pending.length =
      e.pending.length + min (frameSamples - e.pending.length) samples.length := by
    simp [fill]
  rw [drop_eq_nil_iff]
  omega

theorem passes_closeFrame_lt (hne : samples ≠ [])
    (hp : (e.fill samples).pending.length = frameSamples) :
    ((e.fill samples).closeFrame hp).1.passes
      (samples.drop (frameSamples - e.pending.length)) < e.passes samples := by
  have hle := e.pending_le
  have hpos : 0 < samples.length := length_pos_iff.2 hne
  unfold passes
  rw [closeFrame_pending, length_drop, length_nil, if_neg (by decide)]
  split <;> omega

theorem pushLoop_spec {n : Nat} {acc segs : List (Segment α ch)} (hn : e.passes samples ≤ n)
    (h : (pushLoop n e samples budget acc).out = some segs) :
    ∃ out, segs = acc ++ out ∧ Encodes e (pushLoop n e samples budget acc).enc samples out ∧
      ∀ seg ∈ out, seg.pcm.length = segmentSamples := by
  induction n generalizing e samples budget acc with
  | zero =>
    obtain rfl : samples = [] := length_eq_zero_iff.1 (by unfold passes at hn; omega)
    exact ⟨[], by simpa [pushLoop, eq_comm] using h, .refl e, nofun⟩
  | succ n ih =>
    unfold pushLoop at h ⊢
    by_cases hne : samples = []
    · subst hne
      exact ⟨[], by simpa [eq_comm] using h, .refl e, nofun⟩
    rw [if_neg (by simpa using hne)] at h ⊢
    have htake := fill_encodes e samples
    by_cases hp : (e.fill samples).pending.length = frameSamples
    · simp only [dif_pos hp] at h ⊢
      cases hb : budget.spend with
      | none => simp [hb] at h
      | some left =>
        simp only [hb] at h ⊢
        have hlt := passes_closeFrame_lt hne hp
        obtain ⟨out, hsegs, henc, hfull⟩ := ih (by omega) h
        refine ⟨((e.fill samples).closeFrame hp).2 ++ out, by rw [hsegs, append_assoc], ?_, ?_⟩
        · have hall := (htake.trans (closeFrame_encodes _ hp)).trans henc
          rwa [append_nil, nil_append, take_append_drop] at hall
        intro seg hseg
        rcases mem_append.1 hseg with hseg | hseg
        · exact closeFrame_full _ hp seg hseg
        · exact hfull seg hseg
    simp only [dif_neg hp] at h ⊢
    have hrest := drop_eq_nil_of_fill hp
    rw [hrest] at h ⊢
    obtain ⟨out, hsegs, henc, hfull⟩ := ih (by simp [passes, hp]) h
    refine ⟨out, hsegs, ?_, hfull⟩
    have hsplit := take_append_drop (frameSamples - e.pending.length) samples
    rw [hrest] at hsplit
    have hall := htake.trans henc
    rwa [hsplit, nil_append] at hall

theorem pushLoop_none {n : Nat} {acc : List (Segment α ch)} :
    (pushLoop n e samples none acc).budget = none ∧
      ∃ segs, (pushLoop n e samples none acc).out = some segs := by
  induction n generalizing e samples acc with
  | zero => exact ⟨rfl, acc, rfl⟩
  | succ n ih =>
    unfold pushLoop
    split
    · exact ⟨rfl, acc, rfl⟩
    split
    · exact ih
    · exact ih

theorem pushSamples_none (e : SegmentEncoder dsp ch) (samples : List α) :
    (e.pushSamples samples none).budget = none ∧
      ∃ out, (e.pushSamples samples none).out = some out :=
  pushLoop_none

section Rule

variable {I : SegmentEncoder dsp ch → Prop} {S : Segment α ch → Prop} {P : α → Prop}

theorem pushLoop_keeps (hfill : ∀ e xs, (∀ a ∈ xs, P a) → I e → I (e.fill xs))
    (hclose : ∀ e hp, I e → I (e.closeFrame hp).1 ∧ ∀ seg ∈ (e.closeFrame hp).2, S seg)
    {n : Nat} {e : SegmentEncoder dsp ch} {samples : List α} {budget : Budget}
    {acc : List (Segment α ch)} (he : I e) (hsamples : ∀ a ∈ samples, P a)
    (hacc : ∀ seg ∈ acc, S seg) :
    I (pushLoop n e samples budget acc).enc ∧
      ∀ out, (pushLoop n e samples budget acc).out = some out → ∀ seg ∈ out, S seg := by
  induction n generalizing e samples budget acc with
  | zero => exact ⟨he, fun out hout => some.inj hout ▸ hacc⟩
  | succ n ih =>
    have hfilled := hfill e samples hsamples he
    have hrest : ∀ a ∈ samples.drop (frameSamples - e.pending.length), P a :=
      fun a ha => hsamples a (mem_of_mem_drop ha)
    unfold pushLoop
    split
    · exact ⟨he, fun out hout => some.inj hout ▸ hacc⟩
    split
    · rename_i hp
      obtain ⟨hclosed, hsegs⟩ := hclose (e.fill samples) hp hfilled
      split
      · exact ⟨hfilled, fun out hout => by cases hout⟩
      refine ih hclosed hrest fun seg hseg => ?_
      exact (mem_append.mp hseg).elim (hacc seg) (hsegs seg)
    · exact ih hfilled hrest hacc

theorem pushSamples_keeps (hfill : ∀ e xs, (∀ a ∈ xs, P a) → I e → I (e.fill xs))
    (hclose : ∀ e hp, I e → I (e.closeFrame hp).1 ∧ ∀ seg ∈ (e.closeFrame hp).2, S seg)
    {e : SegmentEncoder dsp ch} {samples : List α} (budget : Budget) (he : I e)
    (hsamples : ∀ a ∈ samples, P a) :
    I (e.pushSamples samples budget).enc ∧
      ∀ out, (e.pushSamples samples budget).out = some out → ∀ seg ∈ out, S seg :=
  pushLoop_keeps hfill hclose he hsamples (forall_mem_nil _)

end Rule

theorem nextSeq_le_pushSamples (e : SegmentEncoder dsp ch) (samples : List α) (budget : Budget) :
    e.nextSeq ≤ (e.pushSamples samples budget).enc.nextSeq := by
  refine (pushSamples_keeps (I := fun e' => e.nextSeq ≤ e'.nextSeq) (S := fun _ => True)
    (P := fun _ => True) (fun _ _ _ h => h) (fun e' hp h => ⟨?_, fun _ _ => trivial⟩) budget
    le_rfl fun _ _ => trivial).1
  rw [(closeFrame_encodes e' hp).nextSeq]
  exact Nat.le_add_right_of_le h

theorem pushSamples_spec (h : (e.pushSamples samples budget).out = some out) :
    Encodes e (e.pushSamples samples budget).enc samples out ∧
      ∀ seg ∈ out, seg.pcm.length = segmentSamples := by
  have hfuel : e.passes samples ≤ samples.length + 1 := by
    unfold passes
    split <;> omega
  obtain ⟨out', rfl, henc, hfull⟩ := pushLoop_spec hfuel h
  exact ⟨henc, hfull⟩

theorem length_out_le_one {e' : SegmentEncoder dsp ch} (henc : Encodes e e' samples out)
    (hfull : ∀ seg ∈ out, seg.pcm.length = segmentSamples) (hread : samples.length ≤ frameSamples) :
    out.length ≤ 1 := by
  have hlen := congrArg length henc.pcm
  have hheld := e.held_length_le
  rw [length_append, length_append, length_flatMap_pcm hfull] at hlen
  unfold segmentSamples frameSamples framesPerSegment at *
  omega

inductive Flushed [Inhabited α] (e : SegmentEncoder dsp ch) (budget : Budget) :
    Coded dsp ch → Prop where
  | empty (hheld : e.held = []) : Flushed e budget ⟨e, budget, some []⟩
  | refused (h : budget.spend = none) : Flushed e budget ⟨e.padPending, budget, none⟩
  | closed (encoder : dsp.Opus) (frames : List (List UInt8)) (silence : List α) (left : Budget)
      (hheld : e.held ≠ []) (hcase : frames = e.frames ∧ silence = [] ∨
        (∃ frame, frames = e.frames ++ [(dsp.encode e.encoder frame).2]) ∧
          silence = List.replicate (frameSamples - e.pending.length) default)
      (hleft : budget = none → left = none) :
      Flushed e budget
        ⟨({ e with encoder, silenceInserted := true }.emit (padFrames frames)
            (e.held ++ silence)).1,
          left, some [({ e with encoder, silenceInserted := true }.emit (padFrames frames)
            (e.held ++ silence)).2]⟩

theorem flush_flushed [Inhabited α] (e : SegmentEncoder dsp ch) (budget : Budget) :
    Flushed e budget (e.flush budget) := by
  have hframe : 0 < frameSamples := by decide
  have hheld : e.held.length = e.frames.length * frameSamples + e.pending.length := by
    rw [held, length_append, e.taken_length]
  unfold flush
  split
  · rename_i hempty
    simp only [Bool.and_eq_true, List.isEmpty_iff] at hempty
    exact .empty (length_eq_zero_iff.mp (by simp [hheld, hempty]))
  rename_i hempty
  have hne : e.held ≠ [] := by
    intro hnil
    rw [hnil, length_nil] at hheld
    simp only [Bool.and_eq_true, List.isEmpty_iff, ← length_eq_zero_iff, not_and] at hempty
    exact hempty (by omega) ((Nat.mul_eq_zero.mp (by omega)).resolve_right hframe.ne')
  split
  · rename_i hpending
    have htaken : e.taken = e.held ++ [] := by simp [held, isEmpty_iff.mp hpending]
    have hclosed := Flushed.closed e.encoder e.frames [] budget hne (.inl ⟨rfl, rfl⟩) id
    rwa [← htaken] at hclosed
  split
  · rename_i hb
    exact .refused hb
  rename_i left hb
  have hpcm : e.padPending.held = e.held ++
      List.replicate (frameSamples - e.pending.length) default := by simp [held, padPending]
  rw [hpcm]
  refine .closed _ _ _ left hne (.inr ⟨⟨_, rfl⟩, rfl⟩) ?_
  rintro rfl
  exact (some.inj hb).symm

theorem flush_spec [Inhabited α] (h : (e.flush budget).out = some out) :
    ∃ silence, (∀ a ∈ silence, a = default) ∧
      Encodes e (e.flush budget).enc silence out := by
  have hf := e.flush_flushed budget
  generalize e.flush budget = c at hf h
  cases hf with
  | empty =>
    obtain rfl := some.inj h
    exact ⟨[], nofun, .refl e⟩
  | refused => cases h
  | closed encoder frames silence left hheld hcase =>
    obtain rfl := some.inj h
    refine ⟨silence, fun a ha => ?_, rfl, rfl, by simp [emit, held]⟩
    rcases hcase with ⟨-, rfl⟩ | ⟨-, rfl⟩
    · cases ha
    · exact eq_of_mem_replicate ha

theorem flush_none [Inhabited α] (e : SegmentEncoder dsp ch) :
    (e.flush none).budget = none ∧ ∃ out, (e.flush none).out = some out := by
  have hf := e.flush_flushed none
  generalize e.flush none = c at hf
  cases hf with
  | empty => exact ⟨rfl, _, rfl⟩
  | refused h => cases h
  | closed _ _ _ _ _ _ hleft => exact ⟨hleft rfl, _, rfl⟩

end SegmentEncoder

theorem Encodes.split_of_full {dsp : Dsp α} {ch : Channel} {e e' : SegmentEncoder dsp ch}
    {samples : List α} {seg : Segment α ch} (henc : Encodes e e' samples [seg])
    (hfull : seg.pcm.length = segmentSamples) :
    ∃ mid, seg.pcm = e.held ++ mid ∧ samples = mid ++ e'.held := by
  have hpcm := henc.pcm
  have hheld := e.held_length_le
  rw [flatMap_singleton] at hpcm
  rcases append_eq_append_iff.mp hpcm with ⟨mid, hmid, htaken⟩ | ⟨mid, hmid, htaken⟩
  · have hlength := congrArg length hmid
    rw [length_append] at hlength
    obtain rfl : mid = [] := length_eq_zero_iff.mp (by omega)
    exact ⟨[], by simpa using hmid.symm, by simpa using htaken.symm⟩
  · exact ⟨mid, hmid, htaken⟩

end Sentinel.Capture
