import Sentinel.Lib.Runs
import Sentinel.Capture.Chunking

/-!
# Which segments say that they contain silence

`insert_silence` sets the flag of the encoder, then pushes the silence like any other samples, and
closing a segment clears it.
-/

open List

namespace Sentinel.Capture

open Runs

variable {α : Type} {ch : Channel}

/-! ## Flags -/

namespace SegmentEncoder

variable {dsp : Dsp α}

def flags (e : SegmentEncoder dsp ch) : MediaFlags where
  foreign := e.foreign
  silenceInserted := e.silenceInserted

def HandsOver (e e' : SegmentEncoder dsp ch) : List (Segment α ch) → Prop
  | [] => e'.flags = e.flags
  | seg :: rest => seg.flags = e.flags ∧ e'.flags = {} ∧ ∀ s ∈ rest, s.flags = {}

theorem takeSample_flags (e : SegmentEncoder dsp ch) (a : α) :
    HandsOver e (e.takeSample a).1 (e.takeSample a).2 := by
  unfold takeSample
  split
  · unfold closeFrame
    dsimp only
    split
    · exact ⟨rfl, rfl, forall_mem_nil _⟩
    · exact rfl
  · exact rfl

theorem HandsOver.trans {e e' e'' : SegmentEncoder dsp ch} {out out' : List (Segment α ch)}
    (h : HandsOver e e' out) (h' : HandsOver e' e'' out') : HandsOver e e'' (out ++ out') := by
  cases out with
  | nil =>
    have hsame : e'.flags = e.flags := h
    rw [nil_append]
    cases out' with
    | nil => exact Eq.trans h' hsame
    | cons seg rest => exact ⟨h'.1.trans hsame, h'.2⟩
  | cons seg rest =>
    obtain ⟨hseg, hclear, hrest⟩ := h
    cases out' with
    | nil =>
      rw [append_nil]
      exact ⟨hseg, Eq.trans h' hclear, hrest⟩
    | cons seg' rest' =>
      refine ⟨hseg, h'.2.1, fun s hs => ?_⟩
      rcases mem_append.mp hs with hs | hs
      · exact hrest s hs
      rcases mem_cons.mp hs with rfl | hs
      · exact h'.1.trans hclear
      · exact h'.2.2 s hs

theorem takeAll_flags (e : SegmentEncoder dsp ch) (samples : List α) :
    HandsOver e (e.takeAll samples).1 (e.takeAll samples).2 := by
  induction samples generalizing e with
  | nil => exact rfl
  | cons a samples ih => exact (e.takeSample_flags a).trans (ih (e.takeSample a).1)

end SegmentEncoder

/-! ## Samples that remember -/

inductive Sound (α : Type) where
  | recorded (a : α)
  | synthesised
  deriving DecidableEq, Repr

instance : Inhabited (Sound α) := ⟨.synthesised⟩

def Segment.Exact (seg : Segment (Sound α) ch) : Prop :=
  seg.flags.silenceInserted = true ↔
    .synthesised ∈ seg.pcm ∨
      ∃ packets, Protocol.unpackSegment seg.payload = .ok packets ∧ [] ∈ packets

inductive EncoderOp (α : Type) where
  | push (samples : List α)
  | insertSilence (gapMs : Nat)
  | flush

structure Encoding (dsp : Dsp (Sound α)) (ch : Channel) where
  enc : SegmentEncoder dsp ch := .new
  out : List (Segment (Sound α) ch) := []

namespace Encoding

variable {dsp : Dsp (Sound α)}

def after (r : Encoding dsp ch) (coded : SegmentEncoder.Coded dsp ch) : Encoding dsp ch :=
  ⟨coded.enc, r.out ++ coded.out.getD []⟩

def step (r : Encoding dsp ch) : EncoderOp α → Encoding dsp ch
  | .push samples => r.after (r.enc.pushSamples (samples.map .recorded) none)
  | .insertSilence gapMs => r.after (r.enc.insertSilence gapMs none)
  | .flush => r.after (r.enc.flush none)

def gapSamples (gapMs : Nat) : Nat := gapMs * sampleRate / 1000

def GapFits (r : Encoding dsp ch) : EncoderOp α → Prop
  | .insertSilence gapMs => r.enc.held.length + gapSamples gapMs ≤ segmentSamples
  | _ => True

instance (r : Encoding dsp ch) : ∀ op : EncoderOp α, Decidable (r.GapFits op)
  | .insertSilence _ => inferInstanceAs (Decidable (_ ≤ _))
  | .push _ | .flush => .isTrue trivial

end Encoding

/-! ## Packets -/

def Solid (frames : List (List UInt8)) : Prop := ∀ f ∈ frames, f.length ≤ maxPacket ∧ f ≠ []

theorem unpack_of_fits {frames : List (List UInt8)} (h : ∀ f ∈ frames, f.length ≤ maxPacket) :
    Protocol.unpackSegment (packSegment frames) = .ok frames := by
  refine Protocol.unpackSegment_flatMap fun f hf => ?_
  have := h f hf
  unfold maxPacket at this
  omega

def Segment.Solid (seg : Segment (Sound α) ch) : Prop :=
  ∃ frames, seg.payload = packSegment frames ∧ Capture.Solid frames

theorem Segment.Solid.exact_iff {seg : Segment (Sound α) ch} (h : seg.Solid) :
    seg.Exact ↔ (seg.flags.silenceInserted = true ↔ .synthesised ∈ seg.pcm) := by
  obtain ⟨frames, hpayload, hframes⟩ := h
  have hnone : ¬ ∃ packets, Protocol.unpackSegment seg.payload = .ok packets ∧ [] ∈ packets := by
    rintro ⟨packets, hpackets, hempty⟩
    rw [hpayload, unpack_of_fits fun f hf => (hframes f hf).1] at hpackets
    obtain rfl := Except.ok.inj hpackets
    exact (hframes [] hempty).2 rfl
  rw [Exact, or_iff_left hnone]

namespace SegmentEncoder

variable {dsp : Dsp (Sound α)} {e : SegmentEncoder dsp ch}

structure Marked (e : SegmentEncoder dsp ch) : Prop where
  flag : e.silenceInserted = true ↔ .synthesised ∈ e.held
  solid : Solid e.frames

def Codes (dsp : Dsp (Sound α)) : Prop :=
  dsp.Fits ∧ ∀ state frame, (dsp.encode state frame).2 ≠ []

theorem solid_concat (hdsp : Codes dsp) (h : Solid e.frames) :
    Solid (e.frames ++ [(dsp.encode e.encoder e.pending).2]) := by
  intro f hf
  rcases mem_append.mp hf with hf | hf
  · exact h f hf
  rw [mem_singleton.mp hf]
  exact ⟨hdsp.1 _ _, hdsp.2 _ _⟩

theorem closeFrame_solid (hdsp : Codes dsp) (h : Solid e.frames)
    (hp : e.pending.length = frameSamples) :
    Solid (e.closeFrame hp).1.frames ∧ ∀ seg ∈ (e.closeFrame hp).2, seg.Solid := by
  have hframes := solid_concat hdsp h
  unfold closeFrame
  dsimp only
  split
  · refine ⟨forall_mem_nil _, fun seg hseg => ?_⟩
    rw [mem_singleton.mp hseg]
    exact ⟨_, rfl, hframes⟩
  · exact ⟨hframes, forall_mem_nil _⟩

theorem takeAll_solid (hdsp : Codes dsp) (hroom : e.HasRoom) (h : Solid e.frames)
    (samples : List (Sound α)) :
    Solid (e.takeAll samples).1.frames ∧ ∀ seg ∈ (e.takeAll samples).2, seg.Solid := by
  have hpush := pushSamples_keeps (I := fun e : SegmentEncoder dsp ch => Solid e.frames)
    (S := Segment.Solid) (P := fun _ => True) (fun _ _ _ he => he)
    (fun _ hp he => closeFrame_solid hdsp he hp) none h fun a (_ : a ∈ samples) => trivial
  rw [pushSamples_eq_takeAll hroom] at hpush
  exact ⟨hpush.1, hpush.2 _ rfl⟩

/-! ## What each call does -/

theorem Marked.fill (h : e.Marked) {xs : List (Sound α)} (hxs : ∀ a ∈ xs, a ≠ .synthesised) :
    (e.fill xs).Marked := by
  refine ⟨h.flag.trans ?_, h.solid⟩
  have hheld : (e.fill xs).held = e.held ++ xs.take (frameSamples - e.pending.length) := by
    simp [held, SegmentEncoder.fill]
  have hnot : .synthesised ∉ xs.take (frameSamples - e.pending.length) :=
    fun hmem => hxs _ (mem_of_mem_take hmem) rfl
  rw [hheld, mem_append, or_iff_left hnot]

theorem Marked.closeFrame (hdsp : Codes dsp) (h : e.Marked) (hp : e.pending.length = frameSamples) :
    (e.closeFrame hp).1.Marked ∧ ∀ seg ∈ (e.closeFrame hp).2, seg.Exact := by
  obtain ⟨hframes, hsegs⟩ := closeFrame_solid hdsp h.solid hp
  refine ⟨⟨?_, hframes⟩, fun seg hseg => (hsegs seg hseg).exact_iff.mpr ?_⟩
  · unfold SegmentEncoder.closeFrame
    dsimp only
    split
    · simp [emit, held]
    rw [h.flag]
    simp [held]
  unfold SegmentEncoder.closeFrame at hseg
  dsimp only at hseg
  split at hseg
  · rw [mem_singleton.mp hseg]
    exact h.flag
  · exact absurd hseg not_mem_nil

theorem Marked.pushRecorded (hdsp : Codes dsp) (h : e.Marked) (hroom : e.HasRoom)
    (samples : List α) :
    (e.takeAll (samples.map .recorded)).1.Marked ∧
      ∀ seg ∈ (e.takeAll (samples.map .recorded)).2, seg.Exact := by
  have hrecorded : ∀ a ∈ samples.map Sound.recorded, a ≠ .synthesised := by simp
  have hpush := pushSamples_keeps (fun _ _ hxs he => he.fill hxs)
    (fun _ hp he => he.closeFrame hdsp hp) none h hrecorded
  rw [pushSamples_eq_takeAll hroom] at hpush
  exact ⟨hpush.1, hpush.2 _ rfl⟩

theorem Marked.flush (h : e.Marked) (hroom : e.HasRoom)
    {out : List (Segment (Sound α) ch)} (hout : (e.flush none).out = some out) :
    (e.flush none).enc.Marked ∧ (e.flush none).enc.HasRoom ∧ ∀ seg ∈ out, seg.Exact := by
  have hlt := e.frames_lt
  have hempty : ∀ e' : SegmentEncoder dsp ch, e'.silenceInserted = false → e'.held = [] →
      e'.frames = [] → e'.Marked := by
    intro e' hflag hheld hframes
    exact ⟨by simp [hflag, hheld], by simp [hframes, Solid]⟩
  have hf := e.flush_flushed none
  generalize e.flush none = c at hf hout
  cases hf with
  | empty =>
    obtain rfl := Option.some.inj hout
    exact ⟨h, hroom, forall_mem_nil _⟩
  | refused => cases hout
  | closed encoder frames silence left hheld hcase =>
    obtain rfl := Option.some.inj hout
    refine ⟨hempty _ rfl rfl rfl, hasRoom_of_nil rfl, forall_mem_singleton.mpr (iff_of_true rfl ?_)⟩
    rcases hcase with ⟨rfl, -⟩ | ⟨-, rfl⟩
    · -- The last frame is whole: the silence is in the empty packets.
      refine .inr ⟨_, unpack_of_fits fun f hf => ?_, ?_⟩
      · rcases mem_append.mp hf with hf | hf
        · exact (h.solid f hf).1
        rw [eq_of_mem_replicate hf]
        exact Nat.zero_le _
      · exact mem_append_right _ (mem_replicate.mpr ⟨by omega, rfl⟩)
    -- The last frame is filled up, with one sample at least.
    have hlast : e.pending.length < frameSamples := hroom
    exact .inl (mem_append_right _ (mem_replicate.mpr ⟨by omega, rfl⟩))

def flagged (e : SegmentEncoder dsp ch) : SegmentEncoder dsp ch :=
  { e with silenceInserted := true }

theorem insertSilence_eq (hroom : e.HasRoom) {gapMs : Nat} (hgap : gapMs ≠ 0) :
    e.insertSilence gapMs none =
      ⟨(e.flagged.takeAll (replicate (Encoding.gapSamples gapMs) .synthesised)).1, none,
        some (e.flagged.takeAll (replicate (Encoding.gapSamples gapMs) .synthesised)).2⟩ := by
  rw [insertSilence, if_neg hgap]
  exact pushSamples_eq_takeAll (e := e.flagged) hroom _

theorem Marked.gap (hdsp : Codes dsp) (h : e.Marked) (hroom : e.HasRoom) {n : Nat} (hn : 0 < n)
    (hfits : e.held.length + n ≤ segmentSamples) :
    (e.flagged.takeAll (replicate n .synthesised)).1.Marked ∧
      ∀ seg ∈ (e.flagged.takeAll (replicate n .synthesised)).2, seg.Exact := by
  have hroom' : e.flagged.HasRoom := hroom
  obtain ⟨hencodes, hfull⟩ := takeAll_encodes hroom' (replicate n .synthesised)
  obtain ⟨hsolid, hsegs⟩ := takeAll_solid hdsp hroom' h.solid (replicate n .synthesised)
  have hflags := takeAll_flags e.flagged (replicate n .synthesised)
  have hpcm := hencodes.pcm
  have hlength := congrArg length hpcm
  rw [length_append, length_flatMap_pcm hfull, length_append, length_replicate] at hlength
  have hmem : .synthesised ∈ e.flagged.held ++ replicate n .synthesised :=
    mem_append_right _ (mem_replicate.mpr ⟨hn.ne', rfl⟩)
  have hheld : e.flagged.held = e.held := rfl
  generalize (e.flagged.takeAll (replicate n .synthesised)).1 = e' at *
  generalize (e.flagged.takeAll (replicate n .synthesised)).2 = out at *
  cases out with
  | nil =>
    refine ⟨⟨iff_of_true ?_ ?_, hsolid⟩, forall_mem_nil _⟩
    · exact congrArg MediaFlags.silenceInserted hflags
    · rwa [← hpcm] at hmem
  | cons seg rest =>
    obtain ⟨hseg, hclear, -⟩ := hflags
    -- There is no more than one segment's worth, and so nothing after it.
    have hrest : rest = [] := by
      by_contra hne
      have := length_pos_iff.mpr hne
      rw [length_cons, Nat.succ_mul, hheld] at hlength
      have := Nat.le_mul_of_pos_left segmentSamples this
      omega
    subst hrest
    have hnil : e'.held = [] := by
      rw [← length_eq_zero_iff]
      rw [length_singleton, hheld] at hlength
      omega
    rw [hnil, append_nil, flatMap_singleton] at hpcm
    refine ⟨⟨?_, hsolid⟩, fun s hs => (hsegs s hs).exact_iff.mpr ?_⟩
    · rw [hnil, show e'.silenceInserted = false from congrArg MediaFlags.silenceInserted hclear]
      simp
    rw [mem_singleton.mp hs, hpcm]
    exact iff_of_true (congrArg MediaFlags.silenceInserted hseg) hmem

end SegmentEncoder

/-! ## Sequences of calls -/

namespace Encoding

variable {dsp : Dsp (Sound α)} {r : Encoding dsp ch}

structure Faithful (r : Encoding dsp ch) : Prop where
  room : r.enc.HasRoom
  marked : r.enc.Marked
  exact : ∀ seg ∈ r.out, seg.Exact

theorem Faithful.after {coded : SegmentEncoder.Coded dsp ch} {out : List (Segment (Sound α) ch)}
    (h : r.Faithful) (hroom : coded.enc.HasRoom) (hmarked : coded.enc.Marked)
    (hcoded : coded.out = some out) (hout : ∀ seg ∈ out, seg.Exact) : (r.after coded).Faithful where
  room := hroom
  marked := hmarked
  exact seg hseg := by
    rw [Encoding.after, hcoded] at hseg
    exact (mem_append.mp hseg).elim (h.exact seg) (hout seg)

theorem faithful_new : ({} : Encoding dsp ch).Faithful where
  room := SegmentEncoder.hasRoom_new
  marked := ⟨by simp [SegmentEncoder.new, SegmentEncoder.held], forall_mem_nil _⟩
  exact _ hseg := absurd hseg not_mem_nil

theorem gapSamples_pos {gapMs : Nat} (h : gapMs ≠ 0) : 0 < gapSamples gapMs := by
  unfold gapSamples sampleRate
  omega

theorem Faithful.step (hdsp : SegmentEncoder.Codes dsp) (h : r.Faithful) {op : EncoderOp α}
    (hop : GapFits r op) : (r.step op).Faithful := by
  cases op with
  | push samples =>
    rw [Encoding.step, SegmentEncoder.pushSamples_eq_takeAll h.room]
    obtain ⟨hmarked, hout⟩ := h.marked.pushRecorded hdsp h.room samples
    exact h.after (SegmentEncoder.takeAll_hasRoom h.room _) hmarked rfl hout
  | insertSilence gapMs =>
    rw [Encoding.step]
    by_cases hgap : gapMs = 0
    · rw [SegmentEncoder.insertSilence, if_pos hgap]
      exact h.after h.room h.marked rfl (forall_mem_nil _)
    rw [SegmentEncoder.insertSilence_eq h.room hgap]
    obtain ⟨hmarked, hout⟩ := h.marked.gap hdsp h.room (gapSamples_pos hgap) hop
    exact h.after (SegmentEncoder.takeAll_hasRoom (e := r.enc.flagged) h.room _) hmarked rfl hout
  | flush =>
    obtain ⟨-, out, hout⟩ := r.enc.flush_none
    obtain ⟨hmarked, hroom, hexact⟩ := h.marked.flush h.room hout
    exact h.after hroom hmarked hout hexact

end Encoding

/-- **Which sequences of calls leave the flag exact.** -/
theorem silence_exact {dsp : Dsp (Sound α)} (hdsp : SegmentEncoder.Codes dsp)
    (ops : List (EncoderOp α))
    (h : Along Encoding.step Encoding.GapFits ({} : Encoding dsp ch) ops) :
    ∀ seg ∈ (run Encoding.step ({} : Encoding dsp ch) ops).out, seg.Exact := by
  have hfaithful : (run Encoding.step ({} : Encoding dsp ch) ops).Faithful :=
    h.invariant Encoding.faithful_new fun _ _ hr hop => hr.step hdsp hop
  exact hfaithful.exact

def soundDsp : Dsp (Sound Int) := thresholdDsp fun a => a ≠ .synthesised

theorem soundDsp_codes : SegmentEncoder.Codes soundDsp :=
  ⟨fun _ _ => Nat.le_of_ble_eq_true rfl, fun _ _ => cons_ne_nil _ _⟩

/-- A sample, a gap of a millisecond, and the end of the call. -/
theorem silence_exact_shortGap :
    (run Encoding.step ({} : Encoding soundDsp .far)
      [.push [1], .insertSilence 1, .flush]).out.length = 1 ∧
      ∀ seg ∈ (run Encoding.step ({} : Encoding soundDsp .far)
        [.push [1], .insertSilence 1, .flush]).out, seg.Exact :=
  ⟨by decide +kernel, silence_exact soundDsp_codes [.push [1], .insertSilence 1, .flush]
    ⟨trivial, by decide +kernel, trivial, trivial⟩⟩

/-- A gap of a millisecond more than a segment, and samples to the end of the second: the second
segment begins with silence and has no flag. -/
theorem longGap_unmarked :
    ∃ seg ∈ (run Encoding.step ({} : Encoding soundDsp .far)
      [.insertSilence 1001, .push (List.replicate 15984 0)]).out, ¬ seg.Exact := by
  have hsecond : ∃ seg ∈ (run Encoding.step ({} : Encoding soundDsp .far)
      [.insertSilence 1001, .push (List.replicate 15984 0)]).out,
      seg.flags.silenceInserted = false ∧ seg.pcm.head? = some .synthesised := by
    decide +kernel
  obtain ⟨seg, hseg, hflag, hhead⟩ := hsecond
  refine ⟨seg, hseg, fun hexact => ?_⟩
  have hset := hexact.mpr (.inl (mem_of_mem_head? hhead))
  cases hflag.symm.trans hset

end Sentinel.Capture
