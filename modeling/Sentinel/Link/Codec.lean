import Sentinel.Client.Codec
import Sentinel.Gateway.Wire

/-!
# One format, two codecs

The client writes media records (`protocol.rs`) and the gateway reads them (`wire.go`); each side
has the whole codec.
-/

namespace Sentinel

open Bytes Protocol

def Protocol.MediaRecord.toWire (r : Protocol.MediaRecord) : Wire.MediaRecord where
  channel := Protocol.channelByte r.channel
  flags := r.flags
  seq := r.seq
  timestampMs := r.timestampMs
  callId := r.callId
  payload := r.payload

def Protocol.ProtocolError.sentinel : Protocol.ProtocolError → Wire.WireError
  | .truncated _ _ => .errTruncated
  | .version _ => .errVersion
  | .channel _ => .errChannel
  | .reservedFlags _ => .errReservedFlags
  | .reservedByte _ => .errReservedByte
  | .payloadTooLarge _ => .errPayloadSize
  | .messageTooLarge _ => .errMessageSize

def SameRecord (r : Protocol.MediaRecord) (g : Wire.MediaRecord) : Prop := g = r.toWire

def SameClass (e : Protocol.ProtocolError) (g : Wire.GoError) : Prop := g.sentinel = e.sentinel

/-! ## The two readers -/

theorem channelFromU8_cases (v : UInt8) : (v ≠ Wire.channelFar ∧ v ≠ Wire.channelNear ∧
        channelFromU8 v = .error (.channel v)) ∨
      ∃ ch, channelFromU8 v = .ok ch ∧ v = channelByte ch ∧
        ¬ (v ≠ Wire.channelFar ∧ v ≠ Wire.channelNear) := by
  unfold channelFromU8 Wire.channelFar Wire.channelNear
  by_cases hfar : v = 0
  · exact .inr ⟨.far, by simp [hfar], hfar, by simp [hfar]⟩
  by_cases hnear : v = 1
  · exact .inr ⟨.near, by simp [hnear], hnear, by simp [hnear]⟩
  · exact .inl ⟨hfar, hnear, by simp [hfar, hnear]⟩

theorem fromBits_cases (b : UInt8) :
    (b &&& reservedBits ≠ 0 ∧ fromBits b = .error (.reservedFlags b) ∧
        Wire.flagsFromBits b = .error (Wire.WireError.errReservedFlags.wrap (Wire.binaryText b))) ∨
      ∃ f, b &&& reservedBits = 0 ∧ fromBits b = .ok f ∧
        Wire.flagsFromBits b = .ok f := by
  unfold fromBits Wire.flagsFromBits
  by_cases hres : b &&& reservedBits = 0
  · have hres' : b &&& Wire.flagReserved = 0 := hres
    refine .inr ⟨_, hres, by rw [if_neg (not_not.mpr hres)], ?_⟩
    rw [if_neg (not_not.mpr hres')]
    rfl
  have hres' : b &&& Wire.flagReserved ≠ 0 := hres
  exact .inl ⟨hres, by rw [if_pos hres], by rw [if_pos hres']⟩

theorem decode_agree (buf : List UInt8) :
    Agree (fun p q => SameRecord p.1 q.1 ∧ p.2 = q.2) SameClass (decode buf)
      (Wire.decode buf) := by
  unfold decode Wire.decode
  by_cases hlen : buf.length < headerLen
  · have hlen' : buf.length < Wire.headerLen := hlen
    rw [if_pos hlen, if_pos hlen']
    exact .error rfl
  have hlen' : ¬ buf.length < Wire.headerLen := hlen
  rw [if_neg hlen, if_neg hlen']
  by_cases hver : buf.getD 0 0 ≠ version
  · have hver' : buf.getD 0 0 ≠ Wire.version := hver
    rw [if_pos hver, if_pos hver']
    exact .error rfl
  have hver' : ¬ buf.getD 0 0 ≠ Wire.version := hver
  rw [if_neg hver, if_neg hver']
  obtain ⟨hfar, hnear, hch⟩ | ⟨ch, hch, hbyte, hok⟩ := channelFromU8_cases (buf.getD 1 0)
  · rw [if_pos ⟨hfar, hnear⟩, hch]
    exact .error rfl
  rw [if_neg hok, hch]
  obtain ⟨-, hrust, hgo⟩ | ⟨flags, -, hrust, hgo⟩ := fromBits_cases (buf.getD 2 0)
  · rw [hrust, hgo]
    exact .error rfl
  rw [hrust, hgo]
  dsimp only
  by_cases hres : buf.getD 3 0 ≠ 0
  · rw [if_pos hres, if_pos hres]
    exact .error rfl
  rw [if_neg hres, if_neg hres]
  by_cases htotal : buf.length < headerLen + leNat (slice buf 32 34)
  · have htotal' : buf.length < Wire.headerLen + leNat (slice buf 32 34) := htotal
    rw [if_pos htotal, if_pos htotal']
    exact .error rfl
  have htotal' : ¬ buf.length < Wire.headerLen + leNat (slice buf 32 34) := htotal
  rw [if_neg htotal, if_neg htotal']
  refine .ok ⟨?_, rfl⟩
  simp only [SameRecord, MediaRecord.toWire, hbyte]
  rfl

theorem decodeAll_agree (buf : List UInt8) :
    Agree (List.Forall₂ SameRecord) SameClass (decodeAll buf) (Wire.decodeAll buf) := by
  unfold decodeAll Wire.decodeAll
  by_cases hmax : maxMessageBytes < buf.length
  · have hmax' : Wire.maxMessageBytes < buf.length := hmax
    rw [if_pos hmax, if_pos hmax']
    exact .error rfl
  have hmax' : ¬ Wire.maxMessageBytes < buf.length := hmax
  have hwrap : ∀ n off e g, SameClass e g → SameClass e (Wire.atRecord n off g) :=
    fun _ _ _ _ h => h
  rw [if_neg hmax, if_neg hmax']
  exact readAll_agree decode_agree hwrap buf

/-- **The two codecs read alike.** -/
theorem decoders_agree (buf : List UInt8) :
    Agree (fun p q => SameRecord p.1 q.1 ∧ p.2 = q.2) SameClass (Protocol.decode buf)
        (Wire.decode buf) ∧
      Agree (List.Forall₂ SameRecord) SameClass (Protocol.decodeAll buf) (Wire.decodeAll buf) :=
  ⟨decode_agree buf, decodeAll_agree buf⟩

/-! ## What is written and what is read -/

def Protocol.encodeAll (rs : List Protocol.MediaRecord) :
    Except Protocol.ProtocolError (List UInt8) :=
  rs.foldlM (fun out r => r.encodeInto out) []

def Wire.encodeAll (gs : List Wire.MediaRecord) : Except Wire.GoError (List UInt8) :=
  gs.foldlM (fun out g => g.encode out) []

variable {rs : List Protocol.MediaRecord}

theorem Protocol.encodeAll_of_fits (h : ∀ r ∈ rs, r.Fits) :
    encodeAll rs = .ok (rs.flatMap MediaRecord.bytes) :=
  foldlM_append (fun r hr => MediaRecord.encodeInto_of_fits (h r hr)) []

theorem Wire.encode_toWire {r : Protocol.MediaRecord} (h : r.Fits) (out : List UInt8) :
    r.toWire.encode out = .ok (out ++ r.bytes) := by
  have hbits : Wire.bits r.flags = toBits r.flags := by
    obtain ⟨foreign, silence⟩ := r.flags
    cases foreign <;> cases silence <;> rfl
  have hsize : ¬ 0xFFFF < r.toWire.payload.length := by
    have hlt : r.payload.length < 2 ^ 16 := h
    exact fun hgt => absurd hgt (by change ¬ 0xFFFF < r.payload.length; omega)
  rw [Wire.MediaRecord.encode, if_neg hsize]
  simp only [Protocol.MediaRecord.toWire, hbits, Protocol.MediaRecord.bytes,
    Protocol.MediaRecord.header, List.append_assoc]
  rfl

theorem Wire.encodeAll_toWire (h : ∀ r ∈ rs, r.Fits) :
    Wire.encodeAll (rs.map Protocol.MediaRecord.toWire) =
      .ok (rs.flatMap Protocol.MediaRecord.bytes) := by
  rw [Wire.encodeAll, List.foldlM_map]
  exact foldlM_append (fun r hr => Wire.encode_toWire (h r hr)) []

theorem Wire.decodeAll_of_protocol {buf : List UInt8} (h : Protocol.decodeAll buf = .ok rs) :
    Wire.decodeAll buf = .ok (rs.map Protocol.MediaRecord.toWire) := by
  have hagree := decodeAll_agree buf
  rw [h] at hagree
  generalize Wire.decodeAll buf = q at hagree
  cases hagree with
  | ok hsame => rw [eq_map_of_forall₂ hsame]

theorem Protocol.decodeAll_of_wire {buf : List UInt8} {gs : List Wire.MediaRecord}
    (h : Wire.decodeAll buf = .ok gs) :
    ∃ rs, decodeAll buf = .ok rs ∧ gs = rs.map MediaRecord.toWire := by
  have hagree := decodeAll_agree buf
  rw [h] at hagree
  generalize decodeAll buf = p at hagree
  cases hagree with
  | ok hsame => exact ⟨_, rfl, eq_map_of_forall₂ hsame⟩

theorem Wire.decodeAll_bytes (h : ∀ r ∈ rs, r.Fits)
    (hlen : (rs.flatMap Protocol.MediaRecord.bytes).length ≤ Protocol.maxMessageBytes) :
    Wire.decodeAll (rs.flatMap Protocol.MediaRecord.bytes) =
      .ok (rs.map Protocol.MediaRecord.toWire) := by
  apply Wire.decodeAll_of_protocol
  rw [Protocol.decodeAll, if_neg (Nat.not_lt.mpr hlen)]
  exact readAll_flatMap Protocol.decode_reads h

/-- **What is written is read, and only what is written.** -/
theorem codec_round_trip :
    (∀ rs : List Protocol.MediaRecord, (∀ r ∈ rs, r.payload.length < 65536) →
      ∃ bytes, Protocol.encodeAll rs = .ok bytes ∧ (bytes.length ≤ 1024 * 1024 →
        Wire.decodeAll bytes = .ok (rs.map Protocol.MediaRecord.toWire))) ∧
    ∀ (buf : List UInt8) (gs : List Wire.MediaRecord), Wire.decodeAll buf = .ok gs →
      ∃ rs, gs = rs.map Protocol.MediaRecord.toWire ∧ Protocol.encodeAll rs = .ok buf ∧
        Wire.encodeAll gs = .ok buf := by
  refine ⟨fun rs hfits => ?_, fun buf gs hgs => ?_⟩
  · exact ⟨_, Protocol.encodeAll_of_fits hfits, Wire.decodeAll_bytes hfits⟩
  · obtain ⟨rs, hrs, rfl⟩ := Protocol.decodeAll_of_wire hgs
    have hread : readAll Protocol.decode (fun _ _ e => e) buf = .ok rs := by
      rw [Protocol.decodeAll] at hrs
      split at hrs
      · cases hrs
      · exact hrs
    obtain ⟨hfits, rfl⟩ := flatMap_of_readAll Protocol.decode_canonical hread
    exact ⟨rs, rfl, Protocol.encodeAll_of_fits hfits, Wire.encodeAll_toWire hfits⟩

def twoRecords : List Protocol.MediaRecord :=
  [⟨.far, {}, 0, 0, Vector.replicate 16 7, [1, 2, 3]⟩,
    ⟨.near, { silenceInserted := true }, 258, 65536, Vector.replicate 16 7, []⟩]

theorem twoRecords_round_trip :
    ∃ bytes, Protocol.encodeAll twoRecords = .ok bytes ∧ (bytes.length ≤ 1024 * 1024 →
      Wire.decodeAll bytes = .ok (twoRecords.map Protocol.MediaRecord.toWire)) :=
  codec_round_trip.1 twoRecords (by decide)

end Sentinel
