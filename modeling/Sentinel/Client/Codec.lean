import Sentinel.Lib.Bytes
import Sentinel.Protocol

/-!
# Media records as bytes: the client's side

The codec of `protocol.rs`.
-/

open List (append_assoc length_append take_prefix)

open UInt8

namespace Sentinel.Protocol

open Bytes

def version : UInt8 := 1

def headerLen : Nat := 34

def maxMessageBytes : Nat := 1024 * 1024

inductive ProtocolError where
  | truncated (need have' : Nat)
  | version (v : UInt8)
  | channel (v : UInt8)
  | reservedFlags (bits : UInt8)
  | reservedByte (v : UInt8)
  | payloadTooLarge (n : Nat)
  | messageTooLarge (n : Nat)
  deriving DecidableEq, Repr

def channelByte : Channel → UInt8
  | .far => 0
  | .near => 1

def channelFromU8 (v : UInt8) : Except ProtocolError Channel :=
  if v = 0 then .ok .far else if v = 1 then .ok .near else .error (.channel v)

def foreignBit : UInt8 := 0b00000001
def silenceBit : UInt8 := 0b00000010
def reservedBits : UInt8 := 0b11111100

def toBits (f : MediaFlags) : UInt8 :=
  (if f.foreign then foreignBit else 0) ||| (if f.silenceInserted then silenceBit else 0)

def fromBits (bits : UInt8) : Except ProtocolError MediaFlags :=
  if bits &&& reservedBits ≠ 0 then .error (.reservedFlags bits)
  else .ok { foreign := bits &&& foreignBit ≠ 0, silenceInserted := bits &&& silenceBit ≠ 0 }

structure MediaRecord where
  channel : Channel
  flags : MediaFlags
  seq : UInt32
  timestampMs : UInt64
  callId : Vector UInt8 16
  payload : List UInt8
  deriving DecidableEq

namespace MediaRecord

def header (r : MediaRecord) : List UInt8 :=
  [version, channelByte r.channel, toBits r.flags, 0] ++ (leBytes 4 r.seq.toNat ++
    (leBytes 8 r.timestampMs.toNat ++ (r.callId.toList ++ leBytes 2 r.payload.length)))

def encodeInto (r : MediaRecord) (out : List UInt8) : Except ProtocolError (List UInt8) :=
  if r.payload.length < 2 ^ 16 then .ok (out ++ (r.header ++ r.payload))
  else .error (.payloadTooLarge r.payload.length)

def encode (r : MediaRecord) : Except ProtocolError (List UInt8) := r.encodeInto []

end MediaRecord

def decode (buf : List UInt8) : Except ProtocolError (MediaRecord × Nat) :=
  if buf.length < headerLen then .error (.truncated headerLen buf.length)
  else if buf.getD 0 0 ≠ version then .error (.version (buf.getD 0 0))
  else
    match channelFromU8 (buf.getD 1 0) with
    | .error e => .error e
    | .ok channel =>
      match fromBits (buf.getD 2 0) with
      | .error e => .error e
      | .ok flags =>
        if buf.getD 3 0 ≠ 0 then .error (.reservedByte (buf.getD 3 0))
        else
          let payloadLen := leNat (slice buf 32 34)
          let total := headerLen + payloadLen
          if buf.length < total then .error (.truncated total buf.length)
          else
            .ok
              ({ channel, flags
                 seq := UInt32.ofNat (leNat (slice buf 4 8))
                 timestampMs := UInt64.ofNat (leNat (slice buf 8 16))
                 callId := Vector.ofFn fun i => buf.getD (16 + i) 0
                 payload := slice buf headerLen total }, total)

def decodeAll (buf : List UInt8) : Except ProtocolError (List MediaRecord) :=
  if maxMessageBytes < buf.length then .error (.messageTooLarge buf.length)
  else readAll decode (fun _ _ e => e) buf

def unpackSegment (payload : List UInt8) : Except ProtocolError (List (List UInt8)) :=
  readAll (readFrame 2) (fun _ off cut =>
    match cut with
    | .inLength _ => .truncated (off + 2) payload.length
    | .inFrame len _ => .truncated (off + 2 + len) payload.length) payload

/-! ## The reader undoes the writer -/

theorem channelFromU8_channelByte (ch : Channel) : channelFromU8 (channelByte ch) = .ok ch := by
  cases ch <;> rfl

theorem fromBits_toBits (f : MediaFlags) : fromBits (toBits f) = .ok f := by
  obtain ⟨foreign, silence⟩ := f
  cases foreign <;> cases silence <;> decide

namespace MediaRecord

def bytes (r : MediaRecord) : List UInt8 := r.header ++ r.payload

def Fits (r : MediaRecord) : Prop := r.payload.length < 2 ^ 16

instance (r : MediaRecord) : Decidable r.Fits := inferInstanceAs (Decidable (_ < _))

theorem encodeInto_of_fits {r : MediaRecord} (h : r.Fits) (out : List UInt8) :
    r.encodeInto out = .ok (out ++ r.bytes) :=
  if_pos h

@[simp] theorem length_header (r : MediaRecord) : r.header.length = headerLen := by
  simp [header, headerLen]

theorem length_bytes (r : MediaRecord) : r.bytes.length = headerLen + r.payload.length := by
  rw [bytes, length_append, length_header]

end MediaRecord

theorem decode_reads : Reads decode MediaRecord.bytes MediaRecord.Fits := by
  intro r hfits
  refine ⟨by rw [r.length_bytes, headerLen]; omega, fun rest => ?_⟩
  set buf := r.bytes ++ rest with hbuf
  have hlen : buf.length = headerLen + r.payload.length + rest.length := by
    rw [hbuf, length_append, r.length_bytes]
  have hshort : ¬ buf.length < headerLen := by omega
  have hseq : slice buf 4 8 = leBytes 4 r.seq.toNat := by
    rw [hbuf, MediaRecord.bytes, MediaRecord.header]
    simp only [append_assoc]
    exact slice_append rfl (length_leBytes _ _)
  have htime : slice buf 8 16 = leBytes 8 r.timestampMs.toNat := by
    rw [hbuf, MediaRecord.bytes, MediaRecord.header]
    simp only [append_assoc]
    rw [← append_assoc]
    exact slice_append (by simp) (length_leBytes _ _)
  have hcall : slice buf 16 32 = r.callId.toList := by
    rw [hbuf, MediaRecord.bytes, MediaRecord.header]
    simp only [append_assoc]
    rw [← append_assoc, ← append_assoc]
    exact slice_append (by simp) (by simp)
  have hsize : slice buf 32 34 = leBytes 2 r.payload.length := by
    rw [hbuf, MediaRecord.bytes, MediaRecord.header]
    simp only [append_assoc]
    rw [← append_assoc, ← append_assoc, ← append_assoc]
    exact slice_append (by simp) (length_leBytes _ _)
  have hpayload : slice buf headerLen (headerLen + r.payload.length) = r.payload := by
    rw [hbuf, MediaRecord.bytes, append_assoc]
    exact slice_append r.length_header (by omega)
  have hcallId : (Vector.ofFn fun i : Fin 16 => buf.getD (16 + i) 0) = r.callId := by
    apply Vector.toList_inj.mp
    rwa [toList_ofFn_getD _ (by rw [hlen, headerLen]; omega)]
  have hnum : leNat (slice buf 32 34) = r.payload.length := by
    rw [hsize, leNat_leBytes hfits]
  have htotal : ¬ buf.length < headerLen + r.payload.length := by omega
  unfold decode
  rw [if_neg hshort, show buf.getD 0 0 = version from rfl, if_neg (not_not.mpr rfl),
    show buf.getD 1 0 = channelByte r.channel from rfl, channelFromU8_channelByte,
    show buf.getD 2 0 = toBits r.flags from rfl, fromBits_toBits,
    show buf.getD 3 0 = 0 from rfl]
  dsimp only
  rw [if_neg (not_not.mpr rfl), hnum, if_neg htotal, hseq, htime, hcallId, hpayload,
    leNat_leBytes r.seq.toNat_lt, leNat_leBytes r.timestampMs.toNat_lt, UInt32.ofNat_toNat,
    UInt64.ofNat_toNat, r.length_bytes]

/-! ## The reader accepts nothing else -/

theorem channelByte_of_channelFromU8 {v : UInt8} {ch : Channel} (h : channelFromU8 v = .ok ch) :
    channelByte ch = v := by
  unfold channelFromU8 at h
  split at h
  case isTrue hv =>
    cases h
    exact hv.symm
  case isFalse =>
    split at h
    case isTrue hv =>
      cases h
      exact hv.symm
    case isFalse => cases h

theorem toBits_of_fromBits {b : UInt8} {f : MediaFlags} (h : fromBits b = .ok f) :
    toBits f = b := by
  have hall : ∀ n : Fin 256, ofFin n &&& reservedBits = 0 →
      toBits { foreign := ofFin n &&& foreignBit ≠ 0
               silenceInserted := ofFin n &&& silenceBit ≠ 0 } = ofFin n := by
    decide +kernel
  unfold fromBits at h
  split at h
  case isTrue => cases h
  case isFalse hres =>
    cases h
    exact hall b.toFin (not_not.mp hres)

theorem decode_ok {buf : List UInt8} {r : MediaRecord} {used : Nat}
    (h : decode buf = .ok (r, used)) :
    headerLen ≤ buf.length ∧ buf.getD 0 0 = version ∧
      channelFromU8 (buf.getD 1 0) = .ok r.channel ∧ fromBits (buf.getD 2 0) = .ok r.flags ∧
      buf.getD 3 0 = 0 ∧ r.seq = UInt32.ofNat (leNat (slice buf 4 8)) ∧
      r.timestampMs = UInt64.ofNat (leNat (slice buf 8 16)) ∧
      r.callId = (Vector.ofFn fun i : Fin 16 => buf.getD (16 + i) 0) ∧
      used = headerLen + leNat (slice buf 32 34) ∧ used ≤ buf.length ∧
      r.payload = slice buf headerLen used := by
  unfold decode at h
  split at h
  · cases h
  rename_i hlen
  split at h
  · cases h
  rename_i hver
  cases hch : channelFromU8 (buf.getD 1 0) with
  | error e =>
    rw [hch] at h
    cases h
  | ok channel =>
    cases hfl : fromBits (buf.getD 2 0) with
    | error e =>
      rw [hch, hfl] at h
      cases h
    | ok flags =>
      simp only [hch, hfl] at h
      split at h
      · cases h
      rename_i hres
      split at h
      · cases h
      rename_i htotal
      cases h
      exact ⟨Nat.le_of_not_lt hlen, not_not.mp hver, rfl, rfl, not_not.mp hres, rfl, rfl, rfl, rfl,
        Nat.le_of_not_lt htotal, rfl⟩

theorem take_four {buf : List UInt8} (h : 4 ≤ buf.length) :
    slice buf 0 4 = [buf.getD 0 0, buf.getD 1 0, buf.getD 2 0, buf.getD 3 0] := by
  match buf, h with
  | a :: b :: c :: d :: rest, _ => rfl

theorem decode_canonical : Canonical decode MediaRecord.bytes MediaRecord.Fits := by
  intro buf r used h
  obtain ⟨hlen, hver, hch, hfl, hres, hseq, htime, hcall, hused, hle, hpay⟩ := decode_ok h
  have hlen' : 34 ≤ buf.length := hlen
  have hsize : leNat (slice buf 32 34) < 2 ^ 16 := by
    have hlt := leNat_lt (slice buf 32 34)
    rwa [length_slice hlen'] at hlt
  have hseqNat : r.seq.toNat = leNat (slice buf 4 8) := by
    have hlt := leNat_lt (slice buf 4 8)
    rw [length_slice (by omega)] at hlt
    rw [hseq, UInt32.toNat_ofNat_of_lt' hlt]
  have htimeNat : r.timestampMs.toNat = leNat (slice buf 8 16) := by
    have hlt := leNat_lt (slice buf 8 16)
    rw [length_slice (by omega)] at hlt
    rw [htime, UInt64.toNat_ofNat_of_lt' hlt]
  have hpayLen : r.payload.length = leNat (slice buf 32 34) := by
    rw [hpay, length_slice hle, hused]
    omega
  have hhead : [version, channelByte r.channel, toBits r.flags, 0] = slice buf 0 4 := by
    rw [take_four (by omega), hver, hres, channelByte_of_channelFromU8 hch, toBits_of_fromBits hfl]
  have hle4 : leBytes 4 (leNat (slice buf 4 8)) = slice buf 4 8 :=
    leBytes_leNat_of_length (length_slice (by omega))
  have hle8 : leBytes 8 (leNat (slice buf 8 16)) = slice buf 8 16 :=
    leBytes_leNat_of_length (length_slice (by omega))
  have hle2 : leBytes 2 (leNat (slice buf 32 34)) = slice buf 32 34 :=
    leBytes_leNat_of_length (length_slice hlen')
  have hbytes : r.bytes = slice buf 0 used := by
    rw [MediaRecord.bytes, MediaRecord.header, hhead, hseqNat, htimeNat, hpayLen, hcall, hpay,
      hle4, hle8, hle2, toList_ofFn_getD _ (by omega)]
    rw [slice_append_slice (by omega) (by omega), slice_append_slice (by omega) (by omega),
      slice_append_slice (by omega) (by omega), slice_append_slice (by omega) (by omega)]
    exact slice_append_slice (Nat.zero_le _) (hused ▸ Nat.le_add_right _ _)
  refine ⟨?_, by rw [hused, headerLen]; omega, ?_, ?_⟩
  · rwa [MediaRecord.Fits, hpayLen]
  · rw [r.length_bytes, hpayLen, hused]
  rw [hbytes, slice_zero]
  exact take_prefix _ _

theorem unpackSegment_flatMap {frames : List (List UInt8)}
    (h : ∀ f ∈ frames, f.length < 65536) :
    unpackSegment (frames.flatMap (writeFrame 2)) = .ok frames :=
  readAll_flatMap (readFrame_reads Nat.two_pos) h

end Sentinel.Protocol
