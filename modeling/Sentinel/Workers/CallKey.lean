import Mathlib.Data.List.DropRight
import Sentinel.Gateway.Identity

/-!
# The key of a call, as the pipeline computes it

The workers are told of a call by its ULID and find its rows by its UUID. `call_uuid` (`db.py`),
written independently of the gateway's conversion, has to be the same one.
-/

open List Option

namespace Sentinel

structure PyText where
  upper : Char → List Char
  uuid : List Char → Option (BitVec 128)
  upper_ascii : ∀ c : Char, c.val < 128 → upper c = [c.toUpper]

def isSpace (c : Char) : Bool :=
  let n := c.toNat
  (9 ≤ n && n ≤ 13) || (28 ≤ n && n ≤ 32) || n = 0x85 || n = 0xA0 || n = 0x1680 ||
    (0x2000 ≤ n && n ≤ 0x200A) || n = 0x2028 || n = 0x2029 || n = 0x202F || n = 0x205F || n = 0x3000

def strip (cs : List Char) : List Char := (cs.dropWhile isSpace).rdropWhile isSpace

inductive CallIdError where
  | length (callId : CallId)
  | alphabet (callId : CallId)
  | overflow (callId : CallId)
  | uuid (callId : CallId)
  deriving DecidableEq, Repr

theorem crockford_nodup : "0123456789ABCDEFGHJKMNPQRSTVWXYZ".toList.Nodup := by decide

def crockfordIndex : Alphabet 32 :=
  .ofLetters "0123456789ABCDEFGHJKMNPQRSTVWXYZ".toList id crockford_nodup (map_id _)

def callUuid (py : PyText) (callId : CallId) : Except CallIdError Uuid :=
  let text := (strip callId.toList).flatMap py.upper
  if text.length = 36 ∧ text.count '-' = 4 then
    match py.uuid text with
    | none => .error (.uuid callId)
    | some id => .ok (uuidText id)
  else if text.length ≠ 26 then .error (.length callId)
  else
    match crockfordIndex.read text with
    | none => .error (.alphabet callId)
    | some value =>
      if 2 ^ 128 ≤ value then .error (.overflow callId)
      else .ok (.ofList (hyphenate uuidGroups (hexadecimal.write 32 value)))

def Uppercase (py : PyText) (s : String) : Prop := ∀ c ∈ s.toList, py.upper c = [c]

instance (py : PyText) (s : String) : Decidable (Uppercase py s) :=
  List.decidableBAll (fun c => py.upper c = [c]) s.toList

/-! ## Letters -/

variable {c : Char} {py : PyText} {cs : List Char}

theorem toUpper_of_upper (h : py.upper c = [c]) : c.toUpper = c := by
  by_cases hc : c.val < 128
  · have hupper := py.upper_ascii c hc
    rw [h] at hupper
    exact (cons.inj hupper).1.symm
  unfold Char.toUpper
  split
  · rename_i hlower
    exact absurd (UInt32.lt_of_le_of_lt hlower.2 (by decide)) hc
  · rfl

theorem crockfordIndex_digit (h : c.toUpper = c) : crockfordIndex.digit c = crockford.digit c := by
  change (if id c ∈ _ then some (idxOf (id c) _) else none) =
    if c.toUpper ∈ _ then some (idxOf c.toUpper _) else none
  rw [h]
  rfl

theorem seven_lt_iff {d : Nat} (hc : c.toUpper = c) (h : crockford.digit c = some d) :
    '7' < c ↔ 8 ≤ d := by
  have hletters : "0123456789ABCDEFGHJKMNPQRSTVWXYZ".toList.all (fun x => '7' < x ↔
      8 ≤ "0123456789ABCDEFGHJKMNPQRSTVWXYZ".toList.idxOf x) = true := by decide
  obtain ⟨hmem, ⟨rfl⟩⟩ := ite_none_right_eq_some.mp h
  rw [hc] at hmem ⊢
  exact of_decide_eq_true (all_eq_true.mp hletters c hmem)

theorem isSpace_of_digit {d : Nat} (hc : c.toUpper = c) (h : crockford.digit c = some d) :
    isSpace c = false := by
  have hletters : "0123456789ABCDEFGHJKMNPQRSTVWXYZ".toList.all (fun x => !isSpace x) = true := by
    decide
  obtain ⟨hmem, -⟩ := ite_none_right_eq_some.mp h
  rw [hc] at hmem
  simpa using all_eq_true.mp hletters c hmem

theorem strip_of_not_isSpace (h : ∀ c ∈ cs, isSpace c = false) : strip cs = cs := by
  have hleft : cs.dropWhile isSpace = cs := by
    cases cs with
    | nil => rfl
    | cons c cs => rw [dropWhile_cons_of_neg (by simp [h c mem_cons_self])]
  have hright : cs.rdropWhile isSpace = cs := by
    rw [rdropWhile_eq_self_iff]
    intro hne
    simp [h _ (getLast_mem hne)]
  rw [strip, hleft, hright]

theorem flatMap_upper (h : ∀ c ∈ cs, py.upper c = [c]) : cs.flatMap py.upper = cs := by
  induction cs with
  | nil => rfl
  | cons c cs ih =>
    rw [flatMap_cons, h c mem_cons_self, ih fun x hx => h x (mem_cons_of_mem c hx)]
    rfl

/-! ## The two conversions -/

theorem fits_iff {n : Nat} (hlen : cs.length = 25) (hc : c.toUpper = c)
    (h : crockford.read (c :: cs) = some n) : '7' < c ↔ 2 ^ 128 ≤ n := by
  obtain ⟨d, hd⟩ := crockford.exists_digit h mem_cons_self
  rw [seven_lt_iff hc hd]
  have hweight : 32 ^ cs.length = 32 ^ 25 := by rw [hlen]
  constructor
  · intro hd8
    calc 2 ^ 128 = 8 * 32 ^ cs.length := by rw [hweight]; decide
      _ ≤ d * 32 ^ cs.length := Nat.mul_le_mul_right _ hd8
      _ ≤ n := (crockford.read_bounds hd h).1
  intro hn
  by_contra hd8
  have hlt : n < 8 * 32 ^ cs.length := (crockford.read_bounds hd h).2.trans_le
    (Nat.mul_le_mul_right _ (Nat.lt_of_not_le hd8))
  rw [hweight] at hlt
  exact absurd hn (Nat.not_le.mpr hlt)

theorem strip_sublist (cs : List Char) : (strip cs).Sublist cs :=
  ( rdropWhile_prefix isSpace _).sublist.trans (dropWhile_suffix isSpace).sublist

theorem callUuid_of_text {callId : CallId} {text : List Char}
    (h : (strip callId.toList).flatMap py.upper = text) (hlen : text.length ≤ 26) :
    (callUuid py callId).toOption =
      if text.length = 26 then (crockfordIndex.read text).bind fun n =>
        if 2 ^ 128 ≤ n then none else some (uuidText (.ofNat 128 n)) else none := by
  have hshape : ¬ (text.length = 36 ∧ text.count '-' = 4) := by omega
  simp only [callUuid, h, if_neg hshape]
  by_cases hlen : text.length = 26
  · rw [if_neg (by simpa using hlen), if_pos hlen]
    cases crockfordIndex.read text with
    | none => rfl
    | some n =>
      by_cases hn : 2 ^ 128 ≤ n
      · simp only [if_pos hn, bind_some]
        rfl
      have hto : (BitVec.ofNat 128 n).toNat = n := by
        rw [BitVec.toNat_ofNat, Nat.mod_eq_of_lt (Nat.lt_of_not_le hn)]
      simp only [if_neg hn, bind_some, uuidText, hto]
      rfl
  rw [if_pos hlen, if_neg hlen]
  rfl

theorem callUuidFromUlid_eq {s : CallId} (hlen : s.toList.length = 26)
    (hupper : ∀ c ∈ s.toList, c.toUpper = c) :
    callUuidFromUlid s = (crockford.read s.toList).bind fun n =>
      if 2 ^ 128 ≤ n then none else some (uuidText (.ofNat 128 n)) := by
  unfold callUuidFromUlid parseUlid
  cases hs : s.toList with
  | nil => simp [hs] at hlen
  | cons c cs =>
    rw [hs] at hlen hupper
    have hcs : cs.length = 25 := by simpa using hlen
    dsimp only
    rw [if_pos hcs]
    cases hread : crockford.read (c :: cs) with
    | none => rfl
    | some n =>
      have hfits := fits_iff hcs (hupper c mem_cons_self) hread
      by_cases hn : 2 ^ 128 ≤ n
      · simp only [bind_some, if_pos hn, if_pos (hfits.mpr hn), map_none]
      · simp only [bind_some, if_neg hn, if_neg (mt hfits.mp hn), map_some]

theorem callUuid_eq_callUuidFromUlid (py : PyText) {s : CallId} (hlen : s.toList.length = 26)
    (hupper : Uppercase py s) : (callUuid py s).toOption = callUuidFromUlid s := by
  have hsub := strip_sublist s.toList
  have htext : (strip s.toList).flatMap py.upper = strip s.toList :=
    flatMap_upper fun c hc => hupper c (hsub.subset hc)
  rw [callUuid_of_text htext (hlen ▸ hsub.length_le),
    callUuidFromUlid_eq hlen fun c hc => toUpper_of_upper (hupper c hc)]
  -- Blanks at an end make the text too short for the one and no numeral for the other.
  by_cases hstrip : (strip s.toList).length = 26
  · have heq : strip s.toList = s.toList := hsub.eq_of_length (hstrip.trans hlen.symm)
    rw [if_pos hstrip, heq, crockfordIndex.read_congr fun c hc =>
      crockfordIndex_digit (toUpper_of_upper (hupper c hc))]
  rw [if_neg hstrip]
  cases hread : crockford.read s.toList with
  | none => rfl
  | some n =>
    refine absurd ?_ hstrip
    rw [strip_of_not_isSpace, hlen]
    intro c hc
    obtain ⟨d, hd⟩ := crockford.exists_digit hread hc
    exact isSpace_of_digit (toUpper_of_upper (hupper c hc)) hd

theorem uppercase_formatUlid (py : PyText) (id : BitVec 128) : Uppercase py (formatUlid id) := by
  have hletters : ∀ d < 32, (crockford.letter d).val < 128 ∧
      (crockford.letter d).toUpper = crockford.letter d := by decide
  intro c hc
  rw [formatUlid, String.toList_ofList] at hc
  obtain ⟨d, hd, rfl⟩ := crockford.exists_letter_of_mem_write (by decide) hc
  rw [py.upper_ascii _ (hletters d hd).1, (hletters d hd).2]

/-- **One call identity everywhere.** -/
theorem one_call_identity (py : PyText) :
    (∀ id : BitVec 128, ∃ u t, callUuidFromUlid (formatUlid id) = some u ∧
      ulidFromUuid u = some t ∧ callUuid py t = .ok u) ∧
    ∀ s : CallId, s.toList.length = 26 → Uppercase py s →
      (callUuid py s).toOption = callUuidFromUlid s := by
  refine ⟨fun id => ?_, fun s => callUuid_eq_callUuidFromUlid py⟩
  have hkey : callUuidFromUlid (formatUlid id) = some (uuidText id) := by
    rw [callUuidFromUlid, parseUlid_formatUlid, Option.map_some]
  refine ⟨uuidText id, formatUlid id, hkey, ?_, ?_⟩
  · rw [ulidFromUuid, parseUuid_uuidText, Option.map_some]
  · have hlen : (formatUlid id).toList.length = 26 := by
      rw [formatUlid, String.toList_ofList, crockford.length_write]
    have hboth := callUuid_eq_callUuidFromUlid py hlen (uppercase_formatUlid py id)
    rw [hkey] at hboth
    cases hcall : callUuid py (formatUlid id) with
    | error e =>
      rw [hcall] at hboth
      cases hboth
    | ok u =>
      rw [hcall] at hboth
      rw [Option.some.inj (show some u = some (uuidText id) from hboth)]

def asciiText : PyText where
  upper c := [c.toUpper]
  uuid cs := parseUuid (.ofList cs)
  upper_ascii _ _ := rfl

/-- The largest identifier and the first that is too large. -/
theorem one_call_identity_at_the_limit :
    callUuidFromUlid "7ZZZZZZZZZZZZZZZZZZZZZZZZZ" = some "ffffffff-ffff-ffff-ffff-ffffffffffff" ∧
      (callUuid asciiText "7ZZZZZZZZZZZZZZZZZZZZZZZZZ").toOption =
        callUuidFromUlid "7ZZZZZZZZZZZZZZZZZZZZZZZZZ" ∧
      callUuidFromUlid "80000000000000000000000000" = none ∧
      (callUuid asciiText "80000000000000000000000000").toOption =
        callUuidFromUlid "80000000000000000000000000" :=
  ⟨by decide +kernel,
    (one_call_identity asciiText).2 "7ZZZZZZZZZZZZZZZZZZZZZZZZZ" (by decide +kernel)
      (by decide +kernel),
    by decide +kernel,
    (one_call_identity asciiText).2 "80000000000000000000000000" (by decide +kernel)
      (by decide +kernel)⟩

end Sentinel
