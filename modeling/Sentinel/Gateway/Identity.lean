import Sentinel.Lib.Numerals
import Sentinel.Gateway.Sink

/-!
# One call, two spellings

The client mints a call's identifier as a ULID, the database keys the call by the same 128 bits as a
UUID.
-/

open List Option

namespace Sentinel

def crockford : Alphabet 32 :=
  .ofLetters "0123456789ABCDEFGHJKMNPQRSTVWXYZ".toList Char.toUpper (by decide) (by decide)

def hexadecimal : Alphabet 16 :=
  .ofLetters "0123456789abcdef".toList Char.toLower (by decide) (by decide)

def formatUlid (id : BitVec 128) : String :=
  .ofList (crockford.write 26 id.toNat)

def parseUlid (s : String) : Option (BitVec 128) :=
  match s.toList with
  | [] => none
  | c :: cs =>
    if cs.length = 25 then
      (crockford.read (c :: cs)).bind fun n => if '7' < c then none else some (.ofNat 128 n)
    else none

def hyphenate : List Nat → List Char → List Char
  | [], cs => cs
  | k :: ks, cs => cs.take k ++ '-' :: hyphenate ks (cs.drop k)

def unhyphenate : List Nat → List Char → Option (List Char)
  | [], cs => some cs
  | k :: ks, cs =>
    if cs[k]? = some '-' then (unhyphenate ks (cs.drop (k + 1))).map (cs.take k ++ ·) else none

def uuidGroups : List Nat := [8, 4, 4, 4]

def uuidText (id : BitVec 128) : Uuid :=
  .ofList (hyphenate uuidGroups (hexadecimal.write 32 id.toNat))

def parseUuid (s : Uuid) : Option (BitVec 128) :=
  if s.toList.length = 36 then
    (unhyphenate uuidGroups s.toList).bind fun cs => (hexadecimal.read cs).map (.ofNat 128)
  else none

def callUuidFromUlid (s : CallId) : Option Uuid :=
  (parseUlid s).map uuidText

def ulidFromUuid (s : Uuid) : Option CallId :=
  (parseUuid s).map formatUlid

def gatewayEnv (parseTime : String → Option Time) (hasUser : String → String → Bool) : SinkEnv where
  callUuid := callUuidFromUlid
  parseTime := parseTime
  hasUser := hasUser

/-! ## Printing and parsing -/

theorem unhyphenate_hyphenate {ks : List Nat} {cs : List Char} (h : ks.sum ≤ cs.length) :
    unhyphenate ks (hyphenate ks cs) = some cs := by
  induction ks generalizing cs with
  | nil => rfl
  | cons k ks ih =>
    rw [sum_cons] at h
    have hlen : (cs.take k).length = k := length_take_of_le (by omega)
    have hhyphen : (hyphenate (k :: ks) cs)[k]? = some '-' := by
      rw [hyphenate, getElem?_append_right hlen.le, hlen, Nat.sub_self]
      rfl
    have hdrop : (hyphenate (k :: ks) cs).drop (k + 1) = hyphenate ks (cs.drop k) := by
      rw [hyphenate, ← drop_drop, drop_left' hlen]
      rfl
    have htake : (hyphenate (k :: ks) cs).take k = cs.take k := take_left' hlen
    rw [unhyphenate, if_pos hhyphen, hdrop, htake, ih (by rw [length_drop]; omega),
      map_some, take_append_drop]

theorem length_hyphenate {ks : List Nat} {cs : List Char} (h : ks.sum ≤ cs.length) :
    (hyphenate ks cs).length = cs.length + ks.length := by
  induction ks generalizing cs with
  | nil => rfl
  | cons k ks ih =>
    rw [sum_cons] at h
    rw [hyphenate, length_append, length_cons, ih (by rw [length_drop]; omega),
      length_take_of_le (by omega), length_drop, length_cons]
    omega

theorem parseUuid_uuidText (id : BitVec 128) : parseUuid (uuidText id) = some id := by
  have hid : id.toNat < 16 ^ 32 := id.isLt
  have hgroups : uuidGroups.sum ≤ (hexadecimal.write 32 id.toNat).length := by
    rw [hexadecimal.length_write]
    decide
  have hlen : (hyphenate uuidGroups (hexadecimal.write 32 id.toNat)).length = 36 := by
    rw [length_hyphenate hgroups, hexadecimal.length_write]
    rfl
  rw [parseUuid, uuidText, String.toList_ofList, if_pos hlen, unhyphenate_hyphenate hgroups,
    bind_some, hexadecimal.read_write hid, map_some, BitVec.ofNat_toNat,
    BitVec.setWidth_eq]

theorem parseUlid_formatUlid (id : BitVec 128) : parseUlid (formatUlid id) = some id := by
  have hid : id.toNat < 2 ^ 128 := id.isLt
  have hread : crockford.read (crockford.write 26 id.toNat) = some id.toNat :=
    crockford.read_write (hid.trans (by decide))
  have htop : id.toNat / 32 ^ 25 % 32 < 8 := by
    rw [Nat.mod_eq_of_lt] <;> omega
  have hseven : ∀ d < 8, ¬ '7' < crockford.letter d := by decide
  rw [crockford.write_succ] at hread
  rw [parseUlid, formatUlid, String.toList_ofList, crockford.write_succ]
  dsimp only
  rw [if_pos (crockford.length_write 25 _), hread, bind_some, if_neg (hseven _ htop),
    BitVec.ofNat_toNat, BitVec.setWidth_eq]

theorem callUuidFromUlid_ulidFromUuid {c t : CallId} {u : Uuid} (h : callUuidFromUlid c = some u)
    (ht : ulidFromUuid u = some t) : callUuidFromUlid t = some u := by
  obtain ⟨id, hid, rfl⟩ := map_eq_some_iff.mp h
  rw [ulidFromUuid, parseUuid_uuidText, map_some, some.injEq] at ht
  rw [← ht, callUuidFromUlid, parseUlid_formatUlid, map_some]

end Sentinel
