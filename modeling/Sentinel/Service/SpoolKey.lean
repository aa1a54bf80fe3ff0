import Sentinel.Lib.Faults

/-!
# The device credential directory and the spool key

The service keeps the certificate, the chain, the identity record (`device.rs`) and the wrapped key
of the spool (`spoolkey.rs`) in one directory.
-/

namespace Sentinel.Service

open Faults

structure DeviceIdentity where
  deviceId : String
  machineGuid : String
  hwFingerprint : String
  notAfter : String
  certPath : String
  caChainPath : String
  deriving DecidableEq, Repr

structure Dir where
  deviceCrt : Option String := none
  caChainCrt : Option String := none
  identityJson : Option DeviceIdentity := none
  spoolKey : Option (List UInt8) := none
  deriving DecidableEq, Repr

/-! ## The file system calls -/

section Files

variable {ε : Type}

def createDirAll (e : ε) : Fallible (Faulty Dir) ε Unit := call e id

def writeTmp (e : ε) : Fallible (Faulty Dir) ε Unit := call e id

def rename (e : ε) (put : Dir → Dir) : Fallible (Faulty Dir) ε Unit := call e put

def writeAtomic (e : ε) (put : Dir → Dir) : Fallible (Faulty Dir) ε Unit := do
  writeTmp e
  rename e put

theorem writeAtomic_performs (e : ε) (put : Dir → Dir) :
    Performs (writeAtomic e put) [id, put] () :=
  (Performs.call e id).bind (Performs.call e put)

end Files

/-! ## Wrapping -/

inductive SpoolKeyError where
  | notFound
  | io (error : String)
  | unwrap (error : String)
  | wrap (error : String)
  | malformed
  | plaintextNotPermitted
  deriving DecidableEq, Repr

def keyBytes : Nat := 32

def SpoolKeyError.message : SpoolKeyError → String
  | .notFound => "no wrapped spool key exists yet; the device has not been enrolled"
  | .io e => "spool key file error: " ++ e
  | .unwrap e => "the wrapped spool key could not be unwrapped: " ++ e
  | .wrap e => "the spool key could not be wrapped: " ++ e
  | .malformed => "the unwrapped spool key is not 32 bytes"
  | .plaintextNotPermitted =>
    "DPAPI is not available on this platform, and an unwrapped spool key is not " ++
    "permitted in this build: call audio would sit on disk under a key stored in " ++
    "the clear next to it. Build with --features dev-plaintext-spool-key if that " ++
    "is genuinely what you intend."

structure KeyWrapper where
  wrap : List UInt8 → Except SpoolKeyError (List UInt8)
  unwrapBlob : List UInt8 → Except SpoolKeyError (List UInt8)
  unwrapBlob_wrap : ∀ {plaintext blob}, wrap plaintext = .ok blob → unwrapBlob blob = .ok plaintext

def KeyWrapper.guarded (refusal : Option SpoolKeyError)
    (answer : Except SpoolKeyError (List UInt8)) : Except SpoolKeyError (List UInt8) :=
  match refusal with
  | some e => .error e
  | none => answer

def magic : List UInt8 := "SENTINEL-DEV-UNWRAPPED-SPOOL-KEY".toUTF8.toList ++ [0]

def plaintextWrapper : KeyWrapper where
  wrap plaintext := .ok (magic ++ plaintext)
  unwrapBlob blob :=
    if magic.isPrefixOf blob then .ok (blob.drop magic.length)
    else .error (.unwrap "not a development key blob")
  unwrapBlob_wrap := by
    intro plaintext blob h
    obtain rfl : magic ++ plaintext = blob := by simpa using h
    simp

/-! ## The key -/

def hexDigit (n : UInt8) : Char :=
  if n < 10 then Char.ofNat ('0'.toNat + n.toNat) else Char.ofNat ('a'.toNat + (n.toNat - 10))

def toHex (bytes : List UInt8) : String :=
  String.ofList (bytes.flatMap fun b => [hexDigit (b / 16), hexDigit (b % 16)])

structure KeyEnv where
  material : Vector UInt8 keyBytes
  refusal : Option SpoolKeyError := none
  ioError : String := ""

def KeyEnv.blob (env : KeyEnv) (w : KeyWrapper) : Except SpoolKeyError (List UInt8) :=
  KeyWrapper.guarded env.refusal (w.wrap env.material.toList)

def storeKey (blob : List UInt8) (d : Dir) : Dir := { d with spoolKey := some blob }

def generateAndStore (w : KeyWrapper) (env : KeyEnv) :
    Fallible (Faulty Dir) SpoolKeyError String := do
  let blob ← ofExcept (env.blob w)
  createDirAll (.io env.ioError)
  writeTmp (.io env.ioError)
  rename (.io env.ioError) (storeKey blob)
  return toHex env.material.toList

variable {w : KeyWrapper} {env : KeyEnv} {d : Dir}

theorem generateAndStore_refused {e : SpoolKeyError} (h : env.blob w = .error e) (s : Faulty Dir) :
    exec (generateAndStore w env) s = (.error e, s) := by
  rw [generateAndStore, exec_bind, exec_ofExcept, h]

theorem generateAndStore_performs {blob : List UInt8} (h : env.blob w = .ok blob) :
    Performs (generateAndStore w env) [id, id, storeKey blob] (toHex env.material.toList) :=
  (Performs.ofExcept h).bind <| (Performs.call _ id).bind <| (Performs.call _ id).bind <|
    (Performs.call _ (storeKey blob)).bind (Performs.pure _)

structure ResolveEnv where
  ioError : Option String := none
  refusal : Option SpoolKeyError := none

def resolve (w : KeyWrapper) (env : ResolveEnv) (d : Dir) : Except SpoolKeyError String :=
  match env.ioError, d.spoolKey with
  | some e, _ => .error (.io e)
  | none, none => .error .notFound
  | none, some blob =>
    match KeyWrapper.guarded env.refusal (w.unwrapBlob blob) with
    | .error e => .error e
    | .ok material =>
      if material.length ≠ keyBytes then .error .malformed else .ok (toHex material)

def keyIn (w : KeyWrapper) (d : Dir) : Option String := (resolve w {} d).toOption

theorem keyIn_of_resolve {env : ResolveEnv} {k : String} (h : resolve w env d = .ok k) :
    keyIn w d = some k := by
  obtain ⟨_ | e, refusal⟩ := env
  swap
  · cases h
  cases hblob : d.spoolKey with
  | none => simp [resolve, hblob] at h
  | some blob =>
    cases refusal with
    | some e => simp [resolve, hblob, KeyWrapper.guarded] at h
    | none => rw [keyIn, h]; rfl

theorem keyIn_congr {d' : Dir} (h : d'.spoolKey = d.spoolKey) : keyIn w d' = keyIn w d := by
  simp only [keyIn, resolve, h]

theorem resolve_stored {blob : List UInt8} (hblob : env.blob w = .ok blob)
    (hd : d.spoolKey = some blob) : resolve w {} d = .ok (toHex env.material.toList) := by
  obtain ⟨material, _ | e, ioError⟩ := env
  · have hwrap : w.wrap material.toList = .ok blob := hblob
    simp [resolve, hd, KeyWrapper.guarded, w.unwrapBlob_wrap hwrap]
  · cases hblob

end Sentinel.Service
