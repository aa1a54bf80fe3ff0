import Sentinel.Lib.Bytes
import Sentinel.Protocol

/-!
# Media records as bytes: the gateway's side

The codec of `wire.go`. It reads the same 34-byte header as the client's `protocol.rs` and keeps the
channel as the byte it came in.
-/

namespace Sentinel.Wire

open Bytes

def version : UInt8 := 1

def headerLen : Nat := 34

def maxMessageBytes : Nat := 1 <<< 20

def channelFar : UInt8 := 0
def channelNear : UInt8 := 1

inductive WireError where
  | errTruncated
  | errVersion
  | errChannel
  | errReservedFlags
  | errReservedByte
  | errPayloadSize
  | errMessageSize
  deriving DecidableEq, Repr

def WireError.text : WireError → String
  | .errTruncated => "wire: record truncated"
  | .errVersion => "wire: unsupported protocol version"
  | .errChannel => "wire: invalid channel"
  | .errReservedFlags => "wire: reserved flag bits set"
  | .errReservedByte => "wire: reserved byte is not zero"
  | .errPayloadSize => "wire: payload exceeds the u16 length field"
  | .errMessageSize => "wire: message exceeds the size limit"

structure GoError where
  sentinel : WireError
  text : String
  deriving DecidableEq, Repr

def WireError.wrap (e : WireError) (detail : String) : GoError := ⟨e, e.text ++ ": " ++ detail⟩

def atRecord (n off : Nat) (e : GoError) : GoError :=
  ⟨e.sentinel, "record " ++ toString n ++ " at offset " ++ toString off ++ ": " ++ e.text⟩

def needBytes (need len : Nat) : String :=
  "need " ++ toString need ++ " bytes, have " ++ toString len

def binaryText (b : UInt8) : String :=
  "0b" ++ String.ofList ((List.range 8).reverse.map fun i => if b.toNat.testBit i then '1' else '0')

def flagForeign : UInt8 := (1 : UInt8) <<< (0 : UInt8)
def flagSilenceInserted : UInt8 := (1 : UInt8) <<< (1 : UInt8)
def flagReserved : UInt8 := 0xFC

def bits (f : MediaFlags) : UInt8 :=
  let b : UInt8 := 0
  let b := if f.foreign then b ||| flagForeign else b
  if f.silenceInserted then b ||| flagSilenceInserted else b

def flagsFromBits (b : UInt8) : Except GoError MediaFlags :=
  if b &&& flagReserved ≠ 0 then .error (WireError.errReservedFlags.wrap (binaryText b))
  else .ok { foreign := b &&& flagForeign ≠ 0, silenceInserted := b &&& flagSilenceInserted ≠ 0 }

structure MediaRecord where
  channel : UInt8
  flags : MediaFlags
  seq : UInt32
  timestampMs : UInt64
  callId : Vector UInt8 16
  payload : List UInt8
  deriving DecidableEq

def MediaRecord.encode (r : MediaRecord) (dst : List UInt8) : Except GoError (List UInt8) :=
  if 0xFFFF < r.payload.length then
    .error (WireError.errPayloadSize.wrap (toString r.payload.length ++ " bytes"))
  else
    let hdr := [version, r.channel, bits r.flags, 0] ++ (leBytes 4 r.seq.toNat ++
      (leBytes 8 r.timestampMs.toNat ++ (r.callId.toList ++ leBytes 2 r.payload.length)))
    .ok (dst ++ hdr ++ r.payload)

def decode (buf : List UInt8) : Except GoError (MediaRecord × Nat) :=
  if buf.length < headerLen then
    .error (WireError.errTruncated.wrap (needBytes headerLen buf.length))
  else if buf.getD 0 0 ≠ version then
    .error (WireError.errVersion.wrap (toString (buf.getD 0 0).toNat))
  else if buf.getD 1 0 ≠ channelFar ∧ buf.getD 1 0 ≠ channelNear then
    .error (WireError.errChannel.wrap (toString (buf.getD 1 0).toNat))
  else
    match flagsFromBits (buf.getD 2 0) with
    | .error e => .error e
    | .ok flags =>
      if buf.getD 3 0 ≠ 0 then
        .error (WireError.errReservedByte.wrap (toString (buf.getD 3 0).toNat))
      else
        let payloadLen := leNat (slice buf 32 34)
        let total := headerLen + payloadLen
        if buf.length < total then .error (WireError.errTruncated.wrap (needBytes total buf.length))
        else
          .ok
            ({ channel := buf.getD 1 0, flags
               seq := UInt32.ofNat (leNat (slice buf 4 8))
               timestampMs := UInt64.ofNat (leNat (slice buf 8 16))
               callId := Vector.ofFn fun i => buf.getD (16 + i) 0
               payload := slice buf headerLen total }, total)

def decodeAll (buf : List UInt8) : Except GoError (List MediaRecord) :=
  if maxMessageBytes < buf.length then
    .error (WireError.errMessageSize.wrap (toString buf.length ++ " bytes"))
  else readAll decode atRecord buf

def packSegment (frames : List (List UInt8)) : List UInt8 :=
  frames.foldl (fun out f => out ++ leBytes 2 f.length ++ f) []

def unpackSegment (payload : List UInt8) : Except GoError (List (List UInt8)) :=
  readAll (readFrame 2) (fun _ _ _ => ⟨.errTruncated, WireError.errTruncated.text⟩) payload

end Sentinel.Wire
