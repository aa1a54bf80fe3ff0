import Sentinel.Capture.Pipeline
import Sentinel.Client.Codec

/-!
# However the samples are cut

`push_samples` tops up a frame, encodes it when it is full, closes the segment when it has fifty,
and goes round again with what is left.
-/

open List Nat Option

namespace Sentinel.Capture

open Faults (Budget)

variable {α : Type} {dsp : Dsp α} {ch : Channel}

namespace SegmentEncoder

/-! ## One sample at a time -/

def HasRoom (e : SegmentEncoder dsp ch) : Prop := e.pending.length < frameSamples

variable {e : SegmentEncoder dsp ch}

theorem hasRoom_of_nil (h : e.pending = []) : e.HasRoom := by
  rw [HasRoom, h]
  change 0 < 320
  decide

theorem hasRoom_new : (new : SegmentEncoder dsp ch).HasRoom := hasRoom_of_nil rfl

theorem closeFrame_hasRoom (e : SegmentEncoder dsp ch) (hp : e.pending.length = frameSamples) :
    (e.closeFrame hp).1.HasRoom :=
  hasRoom_of_nil (e.closeFrame_pending hp)

def takeSample (e : SegmentEncoder dsp ch) (a : α) :
    SegmentEncoder dsp ch × List (Segment α ch) :=
  if hp : (e.fill [a]).pending.length = frameSamples then (e.fill [a]).closeFrame hp
  else (e.fill [a], [])

def takeAll : SegmentEncoder dsp ch → List α → SegmentEncoder dsp ch × List (Segment α ch)
  | e, [] => (e, [])
  | e, a :: as =>
    ((takeAll (e.takeSample a).1 as).1, (e.takeSample a).2 ++ (takeAll (e.takeSample a).1 as).2)

theorem takeAll_append (e : SegmentEncoder dsp ch) (xs ys : List α) : e.takeAll (xs ++ ys) =
      (((e.takeAll xs).1.takeAll ys).1, (e.takeAll xs).2 ++ ((e.takeAll xs).1.takeAll ys).2) := by
  induction xs generalizing e with
  | nil => rfl
  | cons a xs ih => rw [cons_append, takeAll, ih, takeAll, append_assoc]

theorem fill_fill {xs : List α} (h : e.pending.length + xs.length ≤ frameSamples) (ys : List α) :
    (e.fill xs).fill ys = e.fill (xs ++ ys) := by
  have hxs : xs.take (frameSamples - e.pending.length) = xs := take_of_length_le (by omega)
  have hrest : frameSamples - (e.pending.length + xs.length) =
      frameSamples - e.pending.length - xs.length := by omega
  simp only [fill, hxs, length_append, take_append, append_assoc, hrest]

theorem fill_take (e : SegmentEncoder dsp ch) (xs : List α) :
    e.fill (xs.take (frameSamples - e.pending.length)) = e.fill xs := by
  simp only [fill, take_take, min_self]

theorem length_pending_fill (e : SegmentEncoder dsp ch) (xs : List α)
    (h : e.pending.length + xs.length ≤ frameSamples) :
    (e.fill xs).pending.length = e.pending.length + xs.length := by
  simp only [fill, length_append, length_take]
  omega

theorem takeAll_of_le {xs : List α} (hne : xs ≠ [])
    (h : e.pending.length + xs.length ≤ frameSamples) :
    e.takeAll xs = if hp : (e.fill xs).pending.length = frameSamples
      then (e.fill xs).closeFrame hp else (e.fill xs, []) := by
  induction xs generalizing e with
  | nil => exact absurd rfl hne
  | cons a xs ih =>
    rw [takeAll]
    cases xs with
    | nil => simp only [takeAll, append_nil, takeSample, Prod.mk.eta]
    | cons b xs =>
      simp only [length_cons] at h
      have hfits : e.pending.length + [a].length ≤ frameSamples := by
        rw [length_singleton]
        omega
      have hone := length_pending_fill e [a] hfits
      rw [length_singleton] at hone
      have hnot : (e.fill [a]).pending.length ≠ frameSamples := by omega
      have hfill := fill_fill hfits (b :: xs)
      rw [takeSample, dif_neg hnot, nil_append, Prod.mk.eta,
        ih (cons_ne_nil b xs) (by simp only [length_cons]; omega)]
      simp only [hfill, singleton_append]

theorem pushLoop_eq_takeAll {n : Nat} {samples : List α} (acc : List (Segment α ch))
    (hroom : e.HasRoom) (hn : samples.length ≤ n) :
    pushLoop n e samples none acc =
      ⟨(e.takeAll samples).1, none, some (acc ++ (e.takeAll samples).2)⟩ := by
  induction n generalizing e samples acc with
  | zero =>
    obtain rfl : samples = [] := length_eq_zero_iff.mp (le_zero.mp hn)
    simp [pushLoop, takeAll]
  | succ n ih =>
    unfold pushLoop
    by_cases hne : samples = []
    · subst hne
      simp [takeAll]
    rw [if_neg (by simpa using hne)]
    have hpos : 0 < samples.length := length_pos_iff.mpr hne
    have hroom' : e.pending.length < frameSamples := hroom
    set k := frameSamples - e.pending.length with hk
    have hhead : samples.take k ≠ [] := by
      rw [← length_pos_iff, length_take]
      omega
    -- The samples that go into this frame, and the others.
    have hsplit := takeAll_append e (samples.take k) (samples.drop k)
    rw [take_append_drop, takeAll_of_le hhead (by rw [length_take]; omega), fill_take] at hsplit
    by_cases hp : (e.fill samples).pending.length = frameSamples
    · have hclosed := (e.fill samples).closeFrame_hasRoom hp
      simp only [dif_pos hp, Faults.Budget.spend] at hsplit ⊢
      rw [ih _ hclosed (by rw [length_drop]; omega), hsplit, append_assoc]
    have hrest := drop_eq_nil_of_fill hp
    rw [← hk] at hrest
    simp only [dif_neg hp, hrest] at hsplit ⊢
    have hopen : (e.fill samples).HasRoom := lt_of_le_of_ne (e.fill samples).pending_le hp
    rw [ih acc hopen (zero_le _), hsplit]
    simp [takeAll]

theorem pushSamples_eq_takeAll (hroom : e.HasRoom) (samples : List α) :
    e.pushSamples samples none = ⟨(e.takeAll samples).1, none, some (e.takeAll samples).2⟩ :=
  pushLoop_eq_takeAll [] hroom (le_succ _)

theorem takeSample_hasRoom (e : SegmentEncoder dsp ch) (a : α) : (e.takeSample a).1.HasRoom := by
  unfold takeSample
  split
  · exact closeFrame_hasRoom _ _
  rename_i hp
  exact lt_of_le_of_ne (e.fill [a]).pending_le hp

theorem takeAll_hasRoom (hroom : e.HasRoom) (samples : List α) : (e.takeAll samples).1.HasRoom := by
  induction samples generalizing e with
  | nil => exact hroom
  | cons a samples ih => exact ih (e.takeSample_hasRoom a)

theorem held_length_lt (hroom : e.HasRoom) : e.held.length < segmentSamples := by
  have hp : e.pending.length < frameSamples := hroom
  have hf := e.frames_lt
  rw [held, length_append, e.taken_length]
  unfold segmentSamples frameSamples framesPerSegment at *
  omega

theorem takeAll_encodes (hroom : e.HasRoom) (samples : List α) :
    Encodes e (e.takeAll samples).1 samples (e.takeAll samples).2 ∧
      ∀ seg ∈ (e.takeAll samples).2, seg.pcm.length = segmentSamples := by
  have hpush := pushSamples_eq_takeAll hroom samples
  have hspec := pushSamples_spec (congrArg Coded.out hpush)
  rwa [hpush] at hspec

/-! ## Streams -/

def encodeChunks [Inhabited α] : SegmentEncoder dsp ch → List (List α) →
    Option (List (Segment α ch))
  | e, [] => (e.flush none).out
  | e, chunk :: chunks => do
    let coded := e.pushSamples chunk none
    let out ← coded.out
    let rest ← encodeChunks coded.enc chunks
    pure (out ++ rest)

theorem encodeChunks_eq_flatten [Inhabited α] (hroom : e.HasRoom) (chunks : List (List α)) :
    e.encodeChunks chunks =
      ((e.takeAll chunks.flatten).1.flush none).out.map ((e.takeAll chunks.flatten).2 ++ ·) := by
  induction chunks generalizing e with
  | nil =>
    rw [encodeChunks, flatten_nil, takeAll]
    cases (e.flush none).out <;> rfl
  | cons chunk chunks ih =>
    rw [encodeChunks, pushSamples_eq_takeAll hroom, flatten_cons, takeAll_append]
    simp only [ih (takeAll_hasRoom hroom chunk)]
    cases ((e.takeAll chunk).1.takeAll chunks.flatten).1.flush none |>.out with
    | none => rfl
    | some tail => simp

end SegmentEncoder

/-! ## What a segment is made of -/

def maxPacket : Nat := 400

def Dsp.Fits (dsp : Dsp α) : Prop := ∀ state frame, (dsp.encode state frame).2.length ≤ maxPacket

def Packed (payload : List UInt8) : Prop :=
  ∃ packets, payload = packSegment packets ∧ packets.length = framesPerSegment ∧
    ∀ f ∈ packets, f.length ≤ maxPacket

theorem Packed.unpacks {payload : List UInt8} (h : Packed payload) :
    ∃ packets, Protocol.unpackSegment payload = .ok packets ∧
      packets.length = framesPerSegment := by
  obtain ⟨packets, rfl, hlength, hfits⟩ := h
  refine ⟨packets, Protocol.unpackSegment_flatMap fun f hf => ?_, hlength⟩
  have := hfits f hf
  unfold maxPacket at this
  omega

theorem length_packSegment_le {packets : List (List UInt8)} {n : Nat}
    (h : ∀ f ∈ packets, f.length ≤ n) :
    (packSegment packets).length ≤ packets.length * (n + 2) := by
  induction packets with
  | nil => exact zero_le _
  | cons f packets ih =>
    have hf := h f mem_cons_self
    have hrest := ih fun g hg => h g (mem_cons_of_mem f hg)
    have hcons : (packSegment (f :: packets)).length =
        f.length + 2 + (packSegment packets).length := by
      simp only [packSegment, flatMap_cons, length_append, length_cons]
    rw [hcons, length_cons, succ_mul]
    omega

theorem Packed.length_le {payload : List UInt8} (h : Packed payload) :
    payload.length ≤ framesPerSegment * (maxPacket + 2) := by
  obtain ⟨packets, rfl, hlength, hfits⟩ := h
  exact hlength ▸ length_packSegment_le hfits

theorem packed_padFrames {frames : List (List UInt8)} (hlength : frames.length ≤ framesPerSegment)
    (hfits : ∀ f ∈ frames, f.length ≤ maxPacket) :
    Packed (packSegment (SegmentEncoder.padFrames frames)) := by
  refine ⟨_, rfl, ?_, fun f hf => ?_⟩
  · rw [SegmentEncoder.padFrames, length_append, length_replicate]
    omega
  rcases mem_append.mp hf with hf | hf
  · exact hfits f hf
  rw [eq_of_mem_replicate hf]
  exact zero_le _

structure Segment.Regular (seg : Segment α ch) : Prop where
  timestamp : seg.timestampMs = segmentMs * seg.seq
  packed : Packed seg.payload

namespace SegmentEncoder

structure Regular (e : SegmentEncoder dsp ch) : Prop where
  start : e.segmentStartMs = segmentMs * e.nextSeq
  fits : ∀ f ∈ e.frames, f.length ≤ maxPacket

theorem regular_new : (new : SegmentEncoder dsp ch).Regular :=
  ⟨rfl, forall_mem_nil _⟩

variable {e : SegmentEncoder dsp ch}

theorem Regular.emit (h : e.Regular) {frames : List (List UInt8)}
    (hframes : Packed (packSegment frames)) (pcm : List α) :
    (e.emit frames pcm).1.Regular ∧ (e.emit frames pcm).2.Regular := by
  refine ⟨⟨?_, forall_mem_nil _⟩, h.start, hframes⟩
  change e.segmentStartMs + segmentMs = segmentMs * (e.nextSeq + 1)
  rw [h.start, mul_succ]

theorem Regular.closeFrame (hdsp : dsp.Fits) (h : e.Regular)
    (hp : e.pending.length = frameSamples) :
    (e.closeFrame hp).1.Regular ∧ ∀ seg ∈ (e.closeFrame hp).2, seg.Regular := by
  have hfits : ∀ f ∈ e.frames ++ [(dsp.encode e.encoder e.pending).2], f.length ≤ maxPacket :=
    forall_mem_append.mpr ⟨h.fits, forall_mem_singleton.mpr (hdsp _ _)⟩
  unfold SegmentEncoder.closeFrame
  dsimp only
  split
  · rename_i hlast
    have hstate : ({ e with
        encoder := (dsp.encode e.encoder e.pending).1 } : SegmentEncoder dsp ch).Regular :=
      ⟨h.start, h.fits⟩
    obtain ⟨hemit, hseg⟩ := hstate.emit ⟨_, rfl, hlast, hfits⟩ (e.taken ++ e.pending)
    exact ⟨hemit, forall_mem_singleton.mpr hseg⟩
  · exact ⟨⟨h.start, hfits⟩, forall_mem_nil _⟩

theorem Regular.pushSamples (hdsp : dsp.Fits) (h : e.Regular) (samples : List α) (budget : Budget) :
    (e.pushSamples samples budget).enc.Regular ∧
      ∀ out, (e.pushSamples samples budget).out = some out → ∀ seg ∈ out, seg.Regular :=
  pushSamples_keeps (P := fun _ => True) (fun _ _ _ he => ⟨he.start, he.fits⟩)
    (fun _ hp he => he.closeFrame hdsp hp) budget h fun _ _ => trivial

theorem Regular.takeAll (hdsp : dsp.Fits) (h : e.Regular) (hroom : e.HasRoom) (samples : List α) :
    (e.takeAll samples).1.Regular ∧ ∀ seg ∈ (e.takeAll samples).2, seg.Regular := by
  have hpush := h.pushSamples hdsp samples none
  rw [pushSamples_eq_takeAll hroom] at hpush
  exact ⟨hpush.1, hpush.2 _ rfl⟩

theorem Regular.flush [Inhabited α] (hdsp : dsp.Fits) (h : e.Regular) {budget : Budget}
    {out : List (Segment α ch)} (hout : (e.flush budget).out = some out) :
    ∀ seg ∈ out, seg.Regular := by
  have hlt := e.frames_lt
  have hf := e.flush_flushed budget
  generalize e.flush budget = c at hf hout
  cases hf with
  | empty =>
    obtain rfl := some.inj hout
    exact forall_mem_nil _
  | refused => cases hout
  | closed encoder frames silence left hheld hcase =>
    obtain rfl := some.inj hout
    have hstate : ({ e with encoder, silenceInserted := true } : SegmentEncoder dsp ch).Regular :=
      ⟨h.start, h.fits⟩
    refine forall_mem_singleton.mpr (hstate.emit ?_ _).2
    rcases hcase with ⟨rfl, -⟩ | ⟨⟨frame, rfl⟩, -⟩
    · exact packed_padFrames hlt.le h.fits
    exact packed_padFrames (by rw [length_append]; exact hlt)
      (forall_mem_append.mpr ⟨h.fits, forall_mem_singleton.mpr (hdsp _ _)⟩)

theorem length_flush_out [Inhabited α] {budget : Budget} {out : List (Segment α ch)}
    (hout : (e.flush budget).out = some out) : out.length = if e.held.length = 0 then 0 else 1 := by
  have hf := e.flush_flushed budget
  generalize e.flush budget = c at hf hout
  cases hf with
  | empty hheld | closed _ _ _ _ hheld =>
    obtain rfl := some.inj hout
    simp [hheld]
  | refused => cases hout

end SegmentEncoder

/-! ## The stream as a whole -/

theorem Encodes.seq_getElem? {e e' : SegmentEncoder dsp ch} {samples : List α}
    {out : List (Segment α ch)} (h : Encodes e e' samples out) {k : Nat} {seg : Segment α ch}
    (hk : out[k]? = some seg) : seg.seq = e.nextSeq + k := by
  have hseqs := congrArg (·[k]?) h.seqs
  simp only [getElem?_map, hk, map_some] at hseqs
  rw [List.getElem?_range' (List.getElem?_eq_some_iff.mp hk).1, one_mul] at hseqs
  exact some.inj hseqs

/-- **However a stream is cut into chunks, its segments are the same.** -/
theorem encodeChunks_spec [Inhabited α] (hdsp : dsp.Fits) (chunks : List (List α)) :
    ∃ segs, (SegmentEncoder.new : SegmentEncoder dsp ch).encodeChunks chunks = some segs ∧
      (∀ chunks' : List (List α), chunks'.flatten = chunks.flatten →
        (SegmentEncoder.new : SegmentEncoder dsp ch).encodeChunks chunks' = some segs) ∧
      segs.length = (chunks.flatten.length + 15999) / 16000 ∧
      ∀ k seg, segs[k]? = some seg → seg.seq = k ∧ seg.timestampMs = 1000 * k ∧
        (∃ packets, Protocol.unpackSegment seg.payload = .ok packets ∧ packets.length = 50) ∧
        seg.payload.length ≤ 20100 := by
  set e : SegmentEncoder dsp ch := .new
  have hroom : e.HasRoom := SegmentEncoder.hasRoom_new
  set samples := chunks.flatten
  obtain ⟨hencodes, hfull⟩ := SegmentEncoder.takeAll_encodes hroom samples
  obtain ⟨-, tail, htail⟩ := (e.takeAll samples).1.flush_none
  have hstream : ∀ chunks' : List (List α), chunks'.flatten = samples →
      e.encodeChunks chunks' = some ((e.takeAll samples).2 ++ tail) := by
    intro chunks' hchunks
    rw [SegmentEncoder.encodeChunks_eq_flatten hroom, hchunks, htail]
    rfl
  refine ⟨_, hstream chunks rfl, hstream, ?_, fun k seg hk => ?_⟩
  · have hlen := congrArg List.length hencodes.pcm
    have hheld := SegmentEncoder.held_length_lt (SegmentEncoder.takeAll_hasRoom hroom samples)
    have htail := SegmentEncoder.length_flush_out htail
    have hsegment : segmentSamples = 16000 := rfl
    have hempty : e.held = [] := rfl
    rw [length_append, length_flatMap_pcm hfull, hempty, nil_append, hsegment] at hlen
    rw [length_append, htail]
    split <;> omega
  · obtain ⟨silence, -, hflushed⟩ := SegmentEncoder.flush_spec htail
    have hseq : seg.seq = k := ((hencodes.trans hflushed).seq_getElem? hk).trans (Nat.zero_add k)
    obtain ⟨hrest, hregular⟩ := SegmentEncoder.regular_new.takeAll hdsp hroom samples
    have hseg : seg.Regular := by
      rcases mem_append.mp (mem_of_getElem? hk) with hmem | hmem
      · exact hregular seg hmem
      · exact hrest.flush hdsp htail seg hmem
    refine ⟨hseq, ?_, hseg.packed.unpacks, hseg.packed.length_le⟩
    rw [hseg.timestamp, hseq]
    rfl

/-- Three samples in two chunks make one segment, as they do in three. -/
theorem encodeChunks_three : ∃ segs,
    (SegmentEncoder.new : SegmentEncoder (thresholdDsp fun a : Int => a ≠ 0) .far).encodeChunks
        [[1, 2], [3]] = some segs ∧
      (SegmentEncoder.new : SegmentEncoder (thresholdDsp fun a : Int => a ≠ 0) .far).encodeChunks
        [[1], [2], [3]] = some segs ∧
      segs.length = 1 := by
  have hdsp : (thresholdDsp fun a : Int => a ≠ 0).Fits := fun _ _ => Nat.le_of_ble_eq_true rfl
  obtain ⟨segs, hsegs, hsame, hlength, -⟩ :=
    @encodeChunks_spec Int _ .far _ hdsp [[1, 2], [3]]
  exact ⟨segs, hsegs, hsame [[1], [2], [3]] rfl, hlength⟩

end Sentinel.Capture
