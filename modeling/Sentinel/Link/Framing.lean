import Sentinel.Capture.Encoder
import Sentinel.Client.Codec
import Sentinel.Gateway.Wire
import Sentinel.Workers.Segments

/-!
# One framing, three languages

A segment's payload is its packets end to end, each behind its length in two bytes.
-/

open List

namespace Sentinel

open Bytes Workers Protocol

theorem Capture.packSegment_eq (frames : List (List UInt8)) :
    Capture.packSegment frames = frames.flatMap (writeFrame 2) := rfl

theorem Wire.packSegment_eq (frames : List (List UInt8)) :
    Wire.packSegment frames = frames.flatMap (writeFrame 2) := by
  have h : ∀ out : List UInt8, frames.foldl (fun out f => out ++ leBytes 2 f.length ++ f) out =
      out ++ frames.flatMap (writeFrame 2) := by
    induction frames with
    | nil => simp
    | cons f fs ih =>
      intro out
      rw [foldl_cons, ih, flatMap_cons, writeFrame]
      simp only [append_assoc]
  exact h []

theorem orDropped_injective : Function.Injective orDropped := by
  intro f g h
  unfold orDropped at h
  split at h <;> split at h
  case isTrue.isTrue hf hg =>
    rw [length_eq_zero_iff.mp hf, length_eq_zero_iff.mp hg]
  case isTrue.isFalse => cases h
  case isFalse.isTrue => cases h
  case isFalse.isFalse => exact Option.some.inj h

variable (payload : List UInt8)

theorem unpackSegment_agree :
    Agree (Forall₂ fun f g => g = id f) (fun _ _ => True) (unpackSegment payload)
      (Wire.unpackSegment payload) := by
  refine readAll_agree (C := fun _ _ => True) (fun buf => ?_) (fun _ _ _ _ _ => trivial) payload
  cases readFrame 2 buf with
  | ok p => exact .ok ⟨rfl, rfl⟩
  | error e => exact .error trivial

theorem unpackFrames_agree : Agree (Forall₂ fun f o => o = orDropped f) (fun _ _ => True)
      (unpackSegment payload) (unpackFrames payload) := by
  refine readAll_agree (C := fun _ _ => True) (fun buf => ?_) (fun _ _ _ _ _ => trivial) payload
  cases readFrame 2 buf with
  | ok p => exact .ok ⟨rfl, rfl⟩
  | error e => exact .error trivial

theorem unpackers_agree : (∃ frames, unpackSegment payload = .ok frames ∧
      Wire.unpackSegment payload = .ok frames ∧
      unpackFrames payload = .ok (frames.map orDropped)) ∨
    ∃ e g m, unpackSegment payload = .error e ∧ Wire.unpackSegment payload = .error g ∧
      unpackFrames payload = .error m := by
  have hgo := unpackSegment_agree payload
  have hpy := unpackFrames_agree payload
  generalize unpackSegment payload = rust at hgo hpy ⊢
  generalize Wire.unpackSegment payload = go at hgo ⊢
  generalize unpackFrames payload = py at hpy ⊢
  cases hgo with
  | ok hsame =>
    cases hpy with
    | ok hdropped =>
      refine .inl ⟨_, rfl, ?_, ?_⟩
      · rw [eq_map_of_forall₂ hsame, map_id]
      · rw [eq_map_of_forall₂ hdropped]
  | error =>
    cases hpy with
    | error => exact .inr ⟨_, _, _, rfl, rfl, rfl⟩

/-- **Packing and unpacking are inverse to each other, in every language.** -/
theorem segment_framing :
    (∀ frames : List (List UInt8), (∀ f ∈ frames, f.length < 65536) →
      ∀ payload ∈ [Capture.packSegment frames, Wire.packSegment frames],
        Protocol.unpackSegment payload = .ok frames ∧ Wire.unpackSegment payload = .ok frames ∧
          unpackFrames payload = .ok (frames.map orDropped)) ∧
    (∀ payload : List UInt8, (∃ frames, Protocol.unpackSegment payload = .ok frames ∧
        Wire.unpackSegment payload = .ok frames ∧
        unpackFrames payload = .ok (frames.map orDropped)) ∨
      ∃ e g m, Protocol.unpackSegment payload = .error e ∧
        Wire.unpackSegment payload = .error g ∧ unpackFrames payload = .error m) ∧
    ∀ (payload : List UInt8) (frames : List (List UInt8)),
      Protocol.unpackSegment payload = .ok frames ∨ Wire.unpackSegment payload = .ok frames ∨
        unpackFrames payload = .ok (frames.map orDropped) →
      Capture.packSegment frames = payload ∧ Wire.packSegment frames = payload := by
  refine ⟨fun frames hfits payload hpayload => ?_, unpackers_agree, fun payload frames h => ?_⟩
  · have hpacked : payload = frames.flatMap (writeFrame 2) := by
      rcases List.mem_pair.mp hpayload with rfl | rfl
      · exact Capture.packSegment_eq frames
      · exact Wire.packSegment_eq frames
    have hrust := Protocol.unpackSegment_flatMap hfits
    rw [← hpacked] at hrust
    rcases unpackers_agree payload with ⟨same, hsame, hgo, hpy⟩ | ⟨e, -, -, he, -⟩
    · rw [hsame] at hrust
      cases hrust
      exact ⟨hsame, hgo, hpy⟩
    · cases he.symm.trans hrust
  · have hrust : Protocol.unpackSegment payload = .ok frames := by
      rcases unpackers_agree payload with ⟨same, hsame, hgo, hpy⟩ | ⟨e, g, m, he, hg, hm⟩
      · rw [hsame, hgo, hpy] at h
        rw [hsame]
        rcases h with h | h | h
        · exact h
        · exact congrArg _ (Except.ok.inj h)
        · exact congrArg _ (List.map_injective_iff.mpr orDropped_injective (Except.ok.inj h))
      · rw [he, hg, hm] at h
        simp at h
    obtain ⟨-, hflat⟩ := flatMap_of_readAll (readFrame_canonical Nat.two_pos) hrust
    rw [Capture.packSegment_eq, Wire.packSegment_eq]
    exact ⟨hflat, hflat⟩

/-- Three packets, the second one dropped at capture. -/
theorem segment_framing_dropped :
    unpackFrames (Capture.packSegment [[7, 8], [], [9]]) =
      .ok ([[7, 8], [], [9]].map orDropped) :=
  (segment_framing.1 [[7, 8], [], [9]] (by decide) _ List.mem_cons_self).2.2

end Sentinel
