import Sentinel.Lib.Bytes
import Sentinel.Lib.Runs

/-!
# Frames on the pipe

`ipc/codec.rs`: a message is a length of four bytes and a body, and `FrameReader` puts messages
together again from whatever pieces the pipe hands over.
-/

open List

namespace Sentinel.Service

open Bytes Runs

inductive IpcError where
  | frameTooLarge (bytes : Nat)
  | emptyFrame
  deriving DecidableEq, Repr

def maxFrameBytes : Nat := 256 * 1024

def lengthPrefixBytes : Nat := 4

def encode (json : List UInt8) : Except IpcError (List UInt8) :=
  if maxFrameBytes < json.length then .error (.frameTooLarge json.length)
  else .ok (writeFrame lengthPrefixBytes json)

structure FrameReader where
  buf : List UInt8 := []
  deriving DecidableEq, Repr

namespace FrameReader

def feed (r : FrameReader) (chunk : List UInt8) : FrameReader := ⟨r.buf ++ chunk⟩

def nextFrame (r : FrameReader) : Except IpcError (Option (List UInt8)) × FrameReader :=
  if r.buf.length < lengthPrefixBytes then (.ok none, r)
  else
    let len := leNat (r.buf.take lengthPrefixBytes)
    if len = 0 then (.error .emptyFrame, r)
    else if maxFrameBytes < len then (.error (.frameTooLarge len), r)
    else
      let total := lengthPrefixBytes + len
      if r.buf.length < total then (.ok none, r)
      else (.ok (some (slice r.buf lengthPrefixBytes total)), ⟨r.buf.drop total⟩)

variable {r : FrameReader} {body rest : List UInt8}

theorem nextFrame_error_iff (r : FrameReader) : (∃ e, r.nextFrame.1 = .error e) ↔
    lengthPrefixBytes ≤ r.buf.length ∧ (leNat (r.buf.take lengthPrefixBytes) = 0 ∨
      maxFrameBytes < leNat (r.buf.take lengthPrefixBytes)) := by
  unfold nextFrame
  split
  case isTrue hlen => simp [hlen]
  case isFalse hlen =>
    dsimp only
    split
    · simp_all
    split
    · simp_all
    split <;> simp_all

theorem leNat_of_isPrefix (hmax : body.length ≤ maxFrameBytes)
    (h : r.buf <+: writeFrame lengthPrefixBytes body ++ rest)
    (hlen : lengthPrefixBytes ≤ r.buf.length) :
    leNat (r.buf.take lengthPrefixBytes) = body.length := by
  obtain ⟨more, hmore⟩ := h
  have htake : (r.buf ++ more).take lengthPrefixBytes = r.buf.take lengthPrefixBytes :=
    take_append_of_le_length hlen
  rw [← htake, hmore, writeFrame, append_assoc, take_left' (length_leBytes _ _),
    leNat_leBytes (hmax.trans_lt (by decide))]

theorem nextFrame_of_short (hpos : 0 < body.length) (hmax : body.length ≤ maxFrameBytes)
    (h : r.buf <+: writeFrame lengthPrefixBytes body ++ rest)
    (hshort : r.buf.length < lengthPrefixBytes + body.length) : r.nextFrame = (.ok none, r) := by
  unfold nextFrame
  split
  case isTrue => rfl
  case isFalse hlen =>
    rw [leNat_of_isPrefix hmax h (Nat.le_of_not_lt hlen), if_neg hpos.ne',
      if_neg (Nat.not_lt.mpr hmax), if_pos hshort]

theorem nextFrame_of_frame (hpos : 0 < body.length) (hmax : body.length ≤ maxFrameBytes) :
    nextFrame ⟨writeFrame lengthPrefixBytes body ++ rest⟩ = (.ok (some body), ⟨rest⟩) := by
  have hlen : (writeFrame lengthPrefixBytes body ++ rest).length =
      lengthPrefixBytes + body.length + rest.length := by
    rw [length_append, length_writeFrame]
  have hbody : slice (writeFrame lengthPrefixBytes body ++ rest) lengthPrefixBytes
      (lengthPrefixBytes + body.length) = body := by
    rw [writeFrame, append_assoc]
    exact slice_append (length_leBytes _ _) (Nat.add_sub_cancel_left ..).symm
  unfold nextFrame
  rw [if_neg (by dsimp only; omega)]
  dsimp only
  rw [leNat_of_isPrefix hmax (prefix_refl _) (by dsimp only; omega), if_neg hpos.ne',
    if_neg (Nat.not_lt.mpr hmax), if_neg (by omega), hbody,
    drop_left' (length_writeFrame _)]

end FrameReader

/-! ## Feeding and popping in any order -/

inductive PipeCall where
  | feed (chunk : List UInt8)
  | nextFrame

structure PipeEnd where
  reader : FrameReader := {}
  returned : List (Except IpcError (Option (List UInt8))) := []

namespace PipeEnd

def call (p : PipeEnd) : PipeCall → PipeEnd
  | .feed chunk => { p with reader := p.reader.feed chunk }
  | .nextFrame =>
    let (result, reader) := p.reader.nextFrame
    ⟨reader, p.returned ++ [result]⟩

def popped (p : PipeEnd) : List (List UInt8) :=
  p.returned.filterMap fun
    | .ok frame => frame
    | .error _ => none

def fed (calls : List PipeCall) : List UInt8 :=
  calls.flatMap fun
    | .feed chunk => chunk
    | .nextFrame => []

variable {bodies : List (List UInt8)} {bytes : List UInt8} {p : PipeEnd}

structure Within (bodies : List (List UInt8)) (bytes : List UInt8) (p : PipeEnd) : Prop where
  popped : p.popped <+: bodies
  bytes : bytes = p.popped.flatMap (writeFrame lengthPrefixBytes) ++ p.reader.buf
  returned : ∀ result ∈ p.returned, ∃ frame, result = .ok frame

variable {reader : FrameReader} {frame : Option (List UInt8)}

theorem popped_concat : popped ⟨reader, p.returned ++ [.ok frame]⟩ = p.popped ++ frame.toList := by
  cases frame <;> simp [popped]

theorem Within.feed (h : p.Within bodies bytes) (chunk : List UInt8) :
    (p.call (.feed chunk)).Within bodies (bytes ++ chunk) := by
  refine ⟨h.popped, ?_, h.returned⟩
  rw [h.bytes, append_assoc]
  rfl

theorem Within.result (h : p.Within bodies bytes) (hnext : p.reader.nextFrame = (.ok frame, reader))
    (hpopped : p.popped ++ frame.toList <+: bodies)
    (hbuf : p.reader.buf = frame.toList.flatMap (writeFrame lengthPrefixBytes) ++ reader.buf) :
    (p.call .nextFrame).Within bodies bytes := by
  rw [call, hnext]
  refine ⟨?_, ?_, fun result hresult => ?_⟩
  · rwa [popped_concat]
  · rw [popped_concat, flatMap_append, append_assoc, ← hbuf, ← h.bytes]
  rcases mem_append.mp hresult with hresult | hresult
  · exact h.returned result hresult
  · exact ⟨frame, mem_singleton.mp hresult⟩

variable (hbodies : ∀ body ∈ bodies, 1 ≤ body.length ∧ body.length ≤ maxFrameBytes)
include hbodies

theorem Within.nextFrame (h : p.Within bodies bytes)
    (hbytes : bytes <+: bodies.flatMap (writeFrame lengthPrefixBytes)) :
    (p.call .nextFrame).Within bodies bytes ∧
      (bytes = bodies.flatMap (writeFrame lengthPrefixBytes) → p.popped ≠ bodies →
        ∃ body reader, p.reader.nextFrame = (.ok (some body), reader)) := by
  obtain ⟨rest, hrest⟩ := h.popped
  have hbuf : p.reader.buf <+: rest.flatMap (writeFrame lengthPrefixBytes) := by
    rw [h.bytes, ← hrest, flatMap_append] at hbytes
    exact (prefix_append_right_inj _).mp hbytes
  cases rest with
  | nil =>
    have hnext : p.reader.nextFrame = (.ok none, p.reader) := by
      rw [FrameReader.nextFrame, prefix_nil.mp hbuf]
      rfl
    refine ⟨h.result hnext (by simpa using h.popped) rfl, fun _ hne => absurd ?_ hne⟩
    rw [← hrest, append_nil]
  | cons body rest =>
    obtain ⟨hpos, hmax⟩ := hbodies body (by simp [← hrest])
    rw [flatMap_cons] at hbuf
    by_cases hshort : p.reader.buf.length < lengthPrefixBytes + body.length
    · have hnext := FrameReader.nextFrame_of_short hpos hmax hbuf hshort
      refine ⟨h.result hnext (by simpa using h.popped) rfl, fun hall _ => absurd hshort ?_⟩
      have hlen := congrArg length (h.bytes.symm.trans hall)
      rw [← hrest, flatMap_append, flatMap_cons] at hlen
      simp only [length_append, length_writeFrame] at hlen
      omega
    obtain ⟨tail, htail⟩ : writeFrame lengthPrefixBytes body <+: p.reader.buf :=
      prefix_of_prefix_length_le (prefix_append _ _) hbuf
        (by rw [length_writeFrame]; exact Nat.le_of_not_lt hshort)
    have hnext : p.reader.nextFrame = (.ok (some body), ⟨tail⟩) := by
      rw [← FrameReader.nextFrame_of_frame hpos hmax, htail]
    refine ⟨h.result hnext ⟨rest, ?_⟩ (by simp [htail]), fun _ _ => ⟨body, _, hnext⟩⟩
    rw [← hrest, append_assoc]
    rfl

theorem Within.run (h : p.Within bodies bytes) {calls : List PipeCall}
    (hbytes : bytes ++ fed calls <+: bodies.flatMap (writeFrame lengthPrefixBytes)) :
    (run call p calls).Within bodies (bytes ++ fed calls) := by
  induction calls generalizing p bytes with
  | nil => simpa [fed] using h
  | cons c calls ih =>
    cases c with
    | feed chunk =>
      have happend : bytes ++ fed (.feed chunk :: calls) = bytes ++ chunk ++ fed calls := by
        simp [fed]
      rw [happend] at hbytes ⊢
      exact ih (h.feed chunk) hbytes
    | nextFrame =>
      have hall : bytes <+: bodies.flatMap (writeFrame lengthPrefixBytes) :=
        (prefix_append _ _).trans hbytes
      exact ih (h.nextFrame hbodies hall).1 hbytes

theorem Within.drain (h : p.Within bodies (bodies.flatMap (writeFrame lengthPrefixBytes)))
    {n : Nat} (hn : bodies.length ≤ p.popped.length + n) :
    (Runs.run call p (replicate n .nextFrame)).popped = bodies := by
  induction n generalizing p with
  | zero => exact h.popped.eq_of_length_le hn
  | succ n ih =>
    obtain ⟨hnext, hmore⟩ := h.nextFrame hbodies prefix_rfl
    rw [replicate_succ, run_cons]
    refine ih hnext ?_
    by_cases hdone : p.popped = bodies
    · have hlen : p.popped.length ≤ (p.call .nextFrame).popped.length := by
        simp [call, PipeEnd.popped]
      rw [hdone] at hlen
      omega
    obtain ⟨body, reader, hbody⟩ := hmore rfl hdone
    have hlen : (p.call .nextFrame).popped.length = p.popped.length + 1 := by
      rw [call, hbody, popped_concat]
      simp
    omega

end PipeEnd

def encodeAll (bodies : List (List UInt8)) : Except IpcError (List UInt8) :=
  bodies.foldlM (fun out body => do return out ++ (← encode body)) []

open PipeEnd in
/-- **Frames come out of the pipe as they went in.** -/
theorem frames_reassembled {bodies : List (List UInt8)}
    (h : ∀ body ∈ bodies, 1 ≤ body.length ∧ body.length ≤ maxFrameBytes) :
    (∃ stream, encodeAll bodies = .ok stream ∧ ∀ calls, fed calls <+: stream →
      let p := run call {} calls
      p.popped <+: bodies ∧ (∀ result ∈ p.returned, ∃ frame, result = .ok frame) ∧
      (fed calls = stream → (p.reader.nextFrame.1 = .ok none → p.popped = bodies) ∧
        (run call p (replicate bodies.length .nextFrame)).popped = bodies)) ∧
    ∀ r : FrameReader, (∃ e, r.nextFrame.1 = .error e) ↔
      lengthPrefixBytes ≤ r.buf.length ∧ (leNat (r.buf.take lengthPrefixBytes) = 0 ∨
        maxFrameBytes < leNat (r.buf.take lengthPrefixBytes)) := by
  refine ⟨⟨bodies.flatMap (writeFrame lengthPrefixBytes), ?_, fun calls hcalls => ?_⟩,
    FrameReader.nextFrame_error_iff⟩
  · refine foldlM_append (fun body hbody out => ?_) []
    rw [encode, if_neg (Nat.not_lt.mpr (h body hbody).2)]
    rfl
  · have hempty : Within bodies [] {} := ⟨ nil_prefix, rfl, by simp⟩
    have hrun := hempty.run h hcalls
    refine ⟨hrun.popped, hrun.returned, fun hall => ⟨fun hnone => ?_, ?_⟩⟩
    · by_contra hne
      obtain ⟨body, reader, hbody⟩ := (hrun.nextFrame h hcalls).2 hall hne
      rw [hbody] at hnone
      cases hnone
    · rw [nil_append, hall] at hrun
      exact hrun.drain h (Nat.le_add_left ..)

/-- The body `{}`, cut within its length. -/
theorem cut_length_reassembled :
    (run PipeEnd.call {} [.feed [2, 0], .nextFrame, .feed [0, 0, 123, 125], .nextFrame]).popped =
      [[123, 125]] := by
  have h : ∀ body ∈ [([123, 125] : List UInt8)],
      1 ≤ body.length ∧ body.length ≤ maxFrameBytes := by decide
  obtain ⟨stream, hstream, hcalls⟩ := (frames_reassembled h).1
  obtain rfl : [2, 0, 0, 0, 123, 125] = stream := Except.ok.inj hstream
  exact ((hcalls _ prefix_rfl).2.2 rfl).1 (by decide)

end Sentinel.Service
