import Mathlib.Tactic.Ring
import Sentinel.Lib.Bytes

/-!
# The DER writer

`der.rs` writes the structures of a signing request: a tag, a length in its shortest form, and a
body, where integers, object identifiers and bit strings have bodies of their own form.
-/

open List UInt8 Nat Option

namespace Sentinel.Service.Der

open Bytes

/-! ## The writer -/

namespace Tag

def integer : UInt8 := 0x02
def bitString : UInt8 := 0x03
def oid : UInt8 := 0x06
def sequence : UInt8 := 0x30

end Tag

def firstNonzero (bytes : List UInt8) : Option Nat := bytes.findIdx? (· ≠ 0)

def writeLen (len : Nat) : List UInt8 :=
  if len < 0x80 then [UInt8.ofNat len]
  else
    let bytes := (leBytes 8 len).reverse
    let first := (firstNonzero bytes).getD (bytes.length - 1)
    let significant := bytes.drop first
    (0x80 ||| UInt8.ofNat significant.length) :: significant

def tlv (tag : UInt8) (body : List UInt8) : List UInt8 := tag :: (writeLen body.length ++ body)

def sequence (members : List (List UInt8)) : List UInt8 := tlv Tag.sequence members.flatten

def bitString (bytes : List UInt8) : List UInt8 := tlv Tag.bitString (0x00 :: bytes)

def unsignedInteger (magnitude : List UInt8) : List UInt8 :=
  let start := (firstNonzero magnitude).getD magnitude.length
  let trimmed := magnitude.drop start
  match trimmed with
  | [] => tlv Tag.integer [0x00]
  | b :: _ => tlv Tag.integer (if b &&& 0x80 ≠ 0 then 0x00 :: trimmed else trimmed)

def digits : Nat → Nat → Option (List UInt8)
  | 0, _ => none
  | room + 1, v =>
    if v / 128 = 0 then some [UInt8.ofNat (v % 128)]
    else (digits room (v / 128)).map (UInt8.ofNat (v % 128) :: ·)

def base128 (v : UInt32) : Option (List UInt8) :=
  (digits 5 v.toNat).map fun ds => ds.tail.reverse.map (· ||| 0x80) ++ ds.take 1

def oid : List UInt32 → Option (List UInt8)
  | a :: b :: arcs =>
    if a ≤ 2 ∧ b < 40 then
      (arcs.mapM base128).map fun groups => tlv Tag.oid ((a * 40 + b).toUInt8 :: groups.flatten)
    else none
  | _ => none

inductive Item where
  | value (tag : UInt8) (body : List UInt8) (h : tag &&& 0x1f ≠ 0x1f ∧ tag ≠ Tag.sequence)
  | sequence (members : List Item)

mutual

def Item.write : Item → List UInt8
  | .value tag body _ => tlv tag body
  | .sequence members => Der.sequence (Item.writeAll members)

def Item.writeAll : List Item → List (List UInt8)
  | [] => []
  | m :: ms => m.write :: Item.writeAll ms

end

/-! ## A strict reader -/

def beNat (bytes : List UInt8) : Nat := leNat bytes.reverse

def readLen : List UInt8 → Except Unit (Nat × Nat)
  | [] => .error ()
  | b :: rest =>
    if b < 0x80 then .ok (b.toNat, 1)
    else
      let count := b.toNat - 128
      let value := beNat (rest.take count)
      if count = 0 ∨ 8 < count ∨ rest.length < count ∨ rest.head? = some 0 ∨ value < 128 then
        .error ()
      else .ok (value, 1 + count)

def readTlv : List UInt8 → Except Unit ((UInt8 × List UInt8) × Nat)
  | [] => .error ()
  | tag :: rest =>
    if tag &&& 0x1f = 0x1f then .error ()
    else
      match readLen rest with
      | .error () => .error ()
      | .ok (len, used) =>
        if rest.length < used + len then .error ()
        else .ok ((tag, slice rest used (used + len)), 1 + used + len)

def readMembers (bytes : List UInt8) : Except Unit (List (UInt8 × List UInt8)) :=
  readAll readTlv (fun _ _ e => e) bytes

def readOne {α : Type} (tag : UInt8) (content : List UInt8 → Except Unit α)
    (bytes : List UInt8) : Except Unit α :=
  match readTlv bytes with
  | .error () => .error ()
  | .ok ((tag', body), used) =>
    if tag' = tag ∧ used = bytes.length then content body else .error ()

def readBits : List UInt8 → Except Unit (List UInt8)
  | 0x00 :: bytes => .ok bytes
  | _ => .error ()

def signed (body : List UInt8) : Int :=
  beNat body - if 0x80 ≤ body.headD 0 then 256 ^ body.length else 0

def readInteger : List UInt8 → Except Unit Int
  | [] => .error ()
  | [b] => .ok (signed [b])
  | b :: c :: rest =>
    if b = 0x00 ∧ c < 0x80 ∨ b = 0xff ∧ 0x80 ≤ c then .error () else .ok (signed (b :: c :: rest))

def readGroups (acc used : Nat) : List UInt8 → Except Unit (Nat × Nat)
  | [] => .error ()
  | b :: rest =>
    if b < 0x80 then .ok (acc * 128 + b.toNat, used + 1)
    else readGroups (acc * 128 + (b.toNat - 128)) (used + 1) rest

def readBase128 (bytes : List UInt8) : Except Unit (Nat × Nat) :=
  if bytes.head? = some 0x80 then .error () else readGroups 0 0 bytes

def readArcs (bytes : List UInt8) : Except Unit (List Nat) :=
  match readAll readBase128 (fun _ _ e => e) bytes with
  | .ok (n :: arcs) => .ok (if n < 80 then n / 40 :: n % 40 :: arcs else 2 :: (n - 80) :: arcs)
  | _ => .error ()

def readItem : Nat → UInt8 × List UInt8 → Except Unit Item
  | 0, _ => .error ()
  | depth + 1, (tag, body) =>
    if hseq : tag = Tag.sequence then
      match readMembers body with
      | .error () => .error ()
      | .ok members => (members.mapM (readItem depth)).map .sequence
    else if htag : tag &&& 0x1f = 0x1f then .error ()
    else .ok (.value tag body ⟨htag, hseq⟩)

def readNested (bytes : List UInt8) : Except Unit Item :=
  match readTlv bytes with
  | .error () => .error ()
  | .ok (value, used) => if used = bytes.length then readItem used value else .error ()

/-! ## Numbers and lengths -/

theorem beNat_cons (b : UInt8) (bytes : List UInt8) :
    beNat (b :: bytes) = beNat bytes + 256 ^ bytes.length * b.toNat := by
  simp [beNat, leNat_append, leNat]

theorem beNat_dropWhile (bytes : List UInt8) : beNat (bytes.dropWhile (· = 0)) = beNat bytes := by
  induction bytes with
  | nil => rfl
  | cons b bytes ih =>
    by_cases hb : b = 0
    · simp [hb, ih, beNat_cons]
    · simp [hb]

theorem drop_firstNonzero {bytes : List UInt8} {d : Nat} (h : d = bytes.length ∨ beNat bytes ≠ 0) :
    bytes.drop ((firstNonzero bytes).getD d) = bytes.dropWhile (· = 0) := by
  have hlen : bytes.drop ((firstNonzero bytes).getD bytes.length) = bytes.dropWhile (· = 0) := by
    rw [dropWhile_eq_drop_findIdx_not, findIdx_eq_getD_findIdx?]
    simp [firstNonzero]
  cases hfirst : firstNonzero bytes with
  | some i => rwa [hfirst] at hlen
  | none =>
    rw [hfirst, getD_none, drop_length] at hlen
    rcases h with rfl | hne
    · rw [← hlen, getD_none, drop_length]
    rw [← beNat_dropWhile, ← hlen] at hne
    exact absurd rfl hne

theorem toNat_or_128 {b : UInt8} (h : b.toNat < 128) : (b ||| 0x80).toNat = b.toNat + 128 := by
  rw [UInt8.toNat_or, Nat.or_comm, Nat.add_comm]
  exact (two_pow_add_eq_or_of_lt (i := 7) h 1).symm

theorem head?_dropWhile_ne (bytes : List UInt8) : (bytes.dropWhile (· = 0)).head? ≠ some 0 := by
  have h := head?_dropWhile_not (fun b : UInt8 => decide (b = 0)) bytes
  intro hzero
  rw [hzero] at h
  simp at h

theorem readLen_long {ds : List UInt8} (rest : List UInt8) (hvalue : 128 ≤ beNat ds)
    (hcount : ds.length ≤ 8) (hhead : ds.head? ≠ some 0) :
    readLen ((0x80 ||| ofNat ds.length) :: (ds ++ rest)) =
      .ok (beNat ds, 1 + ds.length) := by
  have hne : ds ≠ [] := by
    rintro rfl
    exact absurd hvalue (by decide)
  have hpos : 0 < ds.length := length_pos_iff.mpr hne
  have hfirst : (0x80 ||| ofNat ds.length).toNat = ds.length + 128 := by
    have hsmall : (ofNat ds.length).toNat = ds.length := by
      rw [toNat_ofNat']
      omega
    rw [UInt8.or_comm, toNat_or_128 (by omega), hsmall]
  have hlong : ¬ (0x80 ||| ofNat ds.length) < (0x80 : UInt8) := by
    rw [lt_iff_toNat_lt, hfirst]
    exact Nat.not_lt.mpr (Nat.le_add_left ..)
  rw [readLen, if_neg hlong, hfirst, Nat.add_sub_cancel]
  dsimp only
  rw [take_left, head?_append_of_ne_nil _ hne, length_append, if_neg]
  rintro (h | h | h | h | h)
  all_goals first | exact hhead h | omega

theorem readLen_writeLen {len : Nat} (h : len < 256 ^ 8) (rest : List UInt8) :
    readLen (writeLen len ++ rest) = .ok (len, (writeLen len).length) := by
  unfold writeLen
  split
  case isTrue hshort =>
    have hlen : (ofNat len).toNat = len := by
      rw [toNat_ofNat']
      omega
    have hlt : ofNat len < 0x80 := by
      rwa [lt_iff_toNat_lt, hlen]
    rw [singleton_append, readLen, if_pos hlt, hlen]
    rfl
  case isFalse hlong =>
    have hvalue : beNat (leBytes 8 len).reverse = len := by
      rw [beNat, reverse_reverse, leNat_leBytes h]
    have hds := beNat_dropWhile (leBytes 8 len).reverse
    have hcount : ((leBytes 8 len).reverse.dropWhile (· = 0)).length ≤ 8 := by
      simpa using (@dropWhile_sublist _ (leBytes 8 len).reverse (· = 0)).length_le
    dsimp only
    rw [drop_firstNonzero (.inr (by omega)), cons_append,
      readLen_long rest (by omega) hcount (head?_dropWhile_ne _), hds, hvalue, length_cons,
      add_comm 1]

/-! ## Values -/

theorem readTlv_tlv {tag : UInt8} {body : List UInt8} (htag : tag &&& 0x1f ≠ 0x1f)
    (hbody : body.length < 256 ^ 8) (rest : List UInt8) :
    readTlv (tlv tag body ++ rest) = .ok ((tag, body), (tlv tag body).length) := by
  have hslice : slice (writeLen body.length ++ (body ++ rest)) (writeLen body.length).length
      ((writeLen body.length).length + body.length) = body :=
    slice_append rfl (Nat.add_sub_cancel_left ..).symm
  rw [tlv, cons_append, append_assoc, readTlv, if_neg htag, readLen_writeLen hbody]
  dsimp only
  rw [hslice, if_neg (by simp), length_cons, length_append]
  congr 2
  omega

theorem readOne_tlv {α : Type} {content : List UInt8 → Except Unit α} {tag : UInt8}
    {body : List UInt8} (htag : tag &&& 0x1f ≠ 0x1f) (hbody : body.length < 256 ^ 8) :
    readOne tag content (tlv tag body) = content body := by
  have h := readTlv_tlv htag hbody []
  rw [append_nil] at h
  rw [readOne, h]
  exact if_pos ⟨rfl, rfl⟩

/-! ### Integers -/

theorem and_128_ne_zero_iff (b : UInt8) : b &&& 0x80 ≠ 0 ↔ 0x80 ≤ b := by
  have h : ∀ n < 256, n &&& 128 ≠ 0 ↔ 128 ≤ n := by decide +kernel
  have hb := h b.toNat b.toNat_lt
  rwa [← UInt8.toNat_inj.ne, UInt8.toNat_and, UInt8.le_iff_toNat_le]

theorem readInteger_of_head {b : UInt8} {bytes : List UInt8} (hb : b < 0x80)
    (h : b = 0 → ∀ c ∈ bytes.head?, 0x80 ≤ c) :
    readInteger (b :: bytes) = .ok (beNat (b :: bytes) : Int) := by
  have hsigned : signed (b :: bytes) = (beNat (b :: bytes) : Int) := by
    rw [signed, headD_cons, if_neg (UInt8.not_le.mpr hb), Int.sub_zero]
  cases bytes with
  | nil => rw [readInteger, hsigned]
  | cons c rest =>
    rw [readInteger, if_neg, hsigned]
    rintro (⟨hzero, hc⟩ | ⟨rfl, -⟩)
    · exact absurd (h hzero c rfl) (UInt8.not_le.mpr hc)
    · exact absurd hb (by decide)

theorem readOne_unsignedInteger {magnitude : List UInt8} (h : magnitude.length + 1 < 256 ^ 8) :
    readOne Tag.integer readInteger (unsignedInteger magnitude) = .ok (beNat magnitude : Int) := by
  have hvalue := beNat_dropWhile magnitude
  have hhead := head?_dropWhile_ne magnitude
  have hlen := (@dropWhile_sublist _ magnitude (· = 0)).length_le
  rw [unsignedInteger, drop_firstNonzero (.inl rfl)]
  split
  case h_1 hnil =>
    rw [hnil] at hvalue
    rw [readOne_tlv (by decide) (by decide), ← hvalue]
    rfl
  case h_2 b bytes hcons =>
    rw [hcons] at hvalue hhead hlen ⊢
    rw [length_cons] at hlen
    have hb : b ≠ 0 := fun hzero => hhead (by rw [hzero]; rfl)
    split
    case isTrue hbit =>
      have hhigh := (and_128_ne_zero_iff b).mp hbit
      rw [readOne_tlv (by decide) (by simp only [length_cons]; omega),
        readInteger_of_head (by decide) fun _ c hc => by rwa [← some.inj hc], beNat_cons,
        hvalue]
      simp
    case isFalse hbit =>
      have hlow := mt (and_128_ne_zero_iff b).mpr hbit
      rw [readOne_tlv (by decide) (by rw [length_cons]; omega),
        readInteger_of_head (UInt8.not_le.mp hlow) fun hzero => absurd hzero hb, hvalue]

/-! ### Object identifiers -/

def ofDigits : List UInt8 → Nat
  | [] => 0
  | d :: ds => d.toNat + 128 * ofDigits ds

structure DigitsOf (v : Nat) (found : Option (List UInt8)) (d : UInt8) (ds : List UInt8) :
    Prop where
  found : found = some (d :: ds)
  small : ∀ b ∈ d :: ds, b.toNat < 128
  value : d.toNat + 128 * ofDigits ds = v
  last : ds.getLast? ≠ some 0

theorem digits_spec {room v : Nat} (h : v < 128 ^ (room + 1)) :
    ∃ d ds, DigitsOf v (digits (room + 1) v) d ds := by
  have hd : (ofNat (v % 128)).toNat = v % 128 := by
    rw [toNat_ofNat']
    omega
  by_cases hv : v / 128 = 0
  · refine ⟨_, [], by rw [digits, if_pos hv], fun b hb => ?_, ?_, by simp⟩
    · rw [mem_singleton.mp hb, hd]
      exact mod_lt _ (by decide)
    rw [ofDigits, hd]
    omega
  cases room with
  | zero => omega
  | succ room =>
    have hlt : v / 128 < 128 ^ (room + 1) := by
      rw [pow_succ] at h
      omega
    obtain ⟨d, ds, hdigits⟩ := digits_spec hlt
    refine ⟨_, d :: ds, by rw [digits, if_neg hv, hdigits.found, map_some], ?_, ?_, ?_⟩
    · rw [forall_mem_cons, hd]
      exact ⟨mod_lt _ (by decide), hdigits.small⟩
    · rw [ofDigits, hdigits.value, hd]
      omega
    cases ds with
    | nil =>
      have hvalue := hdigits.value
      intro hzero
      obtain rfl : d = 0 := some.inj hzero
      exact hv (hvalue ▸ rfl)
    | cons e es =>
      rw [getLast?_cons_cons]
      exact hdigits.last

theorem readGroups_append {ds : List UInt8} (h : ∀ b ∈ ds, b.toNat < 128) (acc used : Nat)
    (rest : List UInt8) : readGroups acc used (ds.reverse.map (· ||| 0x80) ++ rest) =
      readGroups (acc * 128 ^ ds.length + ofDigits ds) (used + ds.length) rest := by
  induction ds generalizing rest with
  | nil => simp [ofDigits]
  | cons d ds ih =>
    obtain ⟨hd, hds⟩ := forall_mem_cons.mp h
    have hhigh : ¬ d ||| 0x80 < 0x80 := by
      rw [lt_iff_toNat_lt, toNat_or_128 hd]
      exact Nat.not_lt.mpr (Nat.le_add_left ..)
    have hacc : (acc * 128 ^ ds.length + ofDigits ds) * 128 + d.toNat =
        acc * 128 ^ (d :: ds).length + ofDigits (d :: ds) := by
      rw [length_cons, ofDigits]
      ring
    rw [reverse_cons, map_append, append_assoc, ih hds, map_singleton, singleton_append, readGroups,
      if_neg hhigh, toNat_or_128 hd, Nat.add_sub_cancel, hacc]
    rfl

def group (n : Nat) : List UInt8 := (base128 (UInt32.ofNat n)).getD []

theorem base128_eq (v : UInt32) : base128 v = some (group v.toNat) := by
  obtain ⟨d, ds, hdigits⟩ := @digits_spec 4 v.toNat (v.toNat_lt.trans (by decide))
  rw [group, UInt32.ofNat_toNat, base128, hdigits.found]
  rfl

theorem readBase128_reads : Reads readBase128 group (· < 2 ^ 32) := by
  intro n hn
  obtain ⟨d, ds, hdigits⟩ := @digits_spec 4 n (hn.trans (by decide))
  obtain ⟨hd, hds⟩ := forall_mem_cons.mp hdigits.small
  have hlow : d < 0x80 := lt_iff_toNat_lt.mpr hd
  have hgroup : group n = ds.reverse.map (· ||| 0x80) ++ [d] := by
    rw [group, base128, UInt32.toNat_ofNat_of_lt' hn, hdigits.found]
    rfl
  have hlen : (group n).length = ds.length + 1 := by simp [hgroup]
  refine ⟨by omega, fun rest => ?_⟩
  have hhead : (group n ++ rest).head? ≠ some 0x80 := by
    intro hhead
    rw [hgroup] at hhead
    cases hrev : ds.reverse with
    | nil =>
      rw [hrev] at hhead
      obtain rfl : d = 0x80 := some.inj hhead
      exact absurd hlow (by decide)
    | cons e es =>
      rw [hrev] at hhead
      have hbyte : e ||| 0x80 = 0x80 := some.inj hhead
      have hzero : (e ||| 0x80).toNat = 0 + 128 := congrArg toNat hbyte
      rw [toNat_or_128 (hds e (mem_reverse.mp (hrev ▸ mem_cons_self)))] at hzero
      obtain rfl : e = 0 := UInt8.toNat_inj.mp (add_right_cancel hzero)
      exact hdigits.last (by rw [← head?_reverse, hrev, head?_cons])
  have hvalue := hdigits.value
  rw [readBase128, if_neg hhead, hlen, hgroup, append_assoc, readGroups_append hds,
    singleton_append, readGroups, if_pos hlow]
  congr 2
  · omega
  · omega

theorem mapM_base128 (arcs : List UInt32) :
    arcs.mapM base128 = some (arcs.map fun arc => group arc.toNat) := by
  induction arcs with
  | nil => rfl
  | cons arc arcs ih =>
    rw [mapM_cons, base128_eq, ih]
    rfl

theorem length_lt_tlv (tag : UInt8) (body : List UInt8) : body.length < (tlv tag body).length := by
  rw [tlv, length_cons, length_append]
  omega

theorem first_arcs {a b : Nat} (ha : a ≤ 2) (hb : b < 40) (arcs : List Nat) :
    (if a * 40 + b < 80 then (a * 40 + b) / 40 :: (a * 40 + b) % 40 :: arcs
      else 2 :: (a * 40 + b - 80) :: arcs) = a :: b :: arcs := by
  split
  case isTrue hlt =>
    have hdiv : (a * 40 + b) / 40 = a := by omega
    have hmod : (a * 40 + b) % 40 = b := by omega
    rw [hdiv, hmod]
  case isFalse hge =>
    obtain rfl : a = 2 := by omega
    rw [Nat.add_sub_cancel_left]

theorem readOne_oid {a b : UInt32} (ha : a ≤ 2) (hb : b < 40) (arcs : List UInt32) :
    ∃ bytes, oid (a :: b :: arcs) = some bytes ∧ (bytes.length < 256 ^ 8 →
      readOne Tag.oid readArcs bytes = .ok ((a :: b :: arcs).map UInt32.toNat)) := by
  have hb' : b.toNat < 40 := UInt32.lt_iff_toNat_lt.mp hb
  have ha' : a.toNat ≤ 2 := UInt32.le_iff_toNat_le.mp ha
  refine ⟨_, by rw [oid, if_pos ⟨ha, hb⟩, mapM_base128, map_some], fun hlen => ?_⟩
  have hfirst : (a * 40 + b).toNat = a.toNat * 40 + b.toNat := by
    rw [UInt32.toNat_add, UInt32.toNat_mul]
    change (a.toNat * 40 % 2 ^ 32 + b.toNat) % 2 ^ 32 = _
    omega
  have hgroup : group (a.toNat * 40 + b.toNat) = [(a * 40 + b).toUInt8] := by
    have hn : a.toNat * 40 + b.toNat < 128 := by omega
    have hbyte : (a * 40 + b).toUInt8 = ofNat (a.toNat * 40 + b.toNat) := by
      rw [← hfirst]
      rfl
    rw [group, base128, UInt32.toNat_ofNat_of_lt' (hn.trans (by decide)), digits, if_pos (by omega),
      mod_eq_of_lt hn, hbyte]
    rfl
  have hbody : (a * 40 + b).toUInt8 :: (arcs.map fun arc => group arc.toNat).flatten =
      ((a.toNat * 40 + b.toNat) :: arcs.map UInt32.toNat).flatMap group := by
    rw [flatMap_cons, hgroup, flatMap_map, flatMap_def]
    rfl
  have hread : readAll readBase128 (fun _ _ e => e)
      (((a.toNat * 40 + b.toNat) :: arcs.map UInt32.toNat).flatMap group) =
      .ok ((a.toNat * 40 + b.toNat) :: arcs.map UInt32.toNat) := by
    refine readAll_flatMap readBase128_reads (forall_mem_cons.mpr ⟨by omega, fun n hn => ?_⟩)
    obtain ⟨arc, -, rfl⟩ := mem_map.mp hn
    exact arc.toNat_lt
  rw [readOne_tlv (by decide) ((length_lt_tlv _ _).trans hlen), hbody, readArcs, hread]
  exact congrArg Except.ok (first_arcs ha' hb' _)

/-! ### Sequences -/

namespace Item

def tag : Item → UInt8
  | .value tag _ _ => tag
  | .sequence _ => Tag.sequence

def body : Item → List UInt8
  | .value _ body _ => body
  | .sequence members => (writeAll members).flatten

theorem write_eq (i : Item) : i.write = tlv i.tag i.body := by
  cases i <;> rw [write] <;> rfl

theorem tag_low (i : Item) : i.tag &&& 0x1f ≠ 0x1f := by
  cases i with
  | value _ _ h => exact h.1
  | sequence _ => exact (by decide : Tag.sequence &&& 0x1f ≠ 0x1f)

theorem writeAll_eq (members : List Item) : writeAll members = members.map write := by
  induction members with
  | nil => rw [writeAll, map_nil]
  | cons m ms ih => rw [writeAll, ih, map_cons]

theorem length_lt_flatten {members : List Item} {m : Item} (hm : m ∈ members) :
    m.body.length < (writeAll members).flatten.length := by
  rw [writeAll_eq]
  refine lt_of_lt_of_le ?_ (sublist_flatten_of_mem (mem_map_of_mem hm)).length_le
  rw [write_eq]
  exact length_lt_tlv _ _

theorem readMembers_writeAll {members : List Item}
    (h : (writeAll members).flatten.length < 256 ^ 8) :
    readMembers (writeAll members).flatten = .ok (members.map fun m => (m.tag, m.body)) := by
  have hflat : (writeAll members).flatten =
      (members.map fun m => (m.tag, m.body)).flatMap fun p => tlv p.1 p.2 := by
    rw [writeAll_eq, flatMap_map, flatMap_def]
    exact congrArg _ (map_congr_left fun m _ => write_eq m)
  have hreads : Reads readTlv (fun p => tlv p.1 p.2)
      fun p => p.1 &&& 0x1f ≠ 0x1f ∧ p.2.length < 256 ^ 8 :=
    fun p hp => ⟨zero_lt_of_lt (length_lt_tlv _ _), readTlv_tlv hp.1 hp.2⟩
  rw [hflat]
  refine readAll_flatMap hreads fun p hp => ?_
  obtain ⟨m, hm, rfl⟩ := mem_map.mp hp
  exact ⟨m.tag_low, (length_lt_flatten hm).trans h⟩

mutual

theorem readItem_write (i : Item) {depth : Nat} (hdepth : i.write.length ≤ depth)
    (hlen : i.write.length < 256 ^ 8) : readItem depth (i.tag, i.body) = .ok i := by
  rw [write_eq] at hdepth hlen
  have hbody := length_lt_tlv i.tag i.body
  obtain ⟨depth, rfl⟩ : ∃ n, depth = n + 1 := ⟨depth - 1, by omega⟩
  cases i with
  | value tag body h => exact (dif_neg h.2).trans (dif_neg h.1)
  | sequence members =>
    change (writeAll members).flatten.length < _ at hbody
    have hmembers := @mapM_readItem members depth (by omega) (by omega)
    change readItem (depth + 1) (Tag.sequence, (writeAll members).flatten) = _
    rw [readItem, dif_pos rfl, readMembers_writeAll (by omega)]
    exact congrArg (Except.map sequence) hmembers

theorem mapM_readItem (members : List Item) {depth : Nat}
    (hdepth : (writeAll members).flatten.length ≤ depth)
    (hlen : (writeAll members).flatten.length < 256 ^ 8) :
    (members.map fun m => (m.tag, m.body)).mapM (readItem depth) = .ok members := by
  cases members with
  | nil => rfl
  | cons m ms =>
    rw [writeAll, flatten_cons, length_append] at hdepth hlen
    rw [map_cons, mapM_cons, readItem_write m (by omega) (by omega),
      mapM_readItem ms (by omega) (by omega)]
    rfl

end

theorem readNested_write (i : Item) (h : i.write.length < 256 ^ 8) :
    readNested i.write = .ok i := by
  have hitem := i.readItem_write le_rfl h
  rw [write_eq] at h hitem ⊢
  have hread := readTlv_tlv i.tag_low ((length_lt_tlv _ _).trans h) []
  rw [append_nil] at hread
  rw [readNested, hread]
  exact (if_pos rfl).trans hitem

end Item

def Fits (bytes : List UInt8) : Prop := bytes.length < 2 ^ 63

/-- **What the writer writes is DER.** -/
theorem der_canonical :
    (∀ tag body, tag &&& 0x1f ≠ 0x1f → Fits body → ∀ rest,
      readTlv (tlv tag body ++ rest) = .ok ((tag, body), (tlv tag body).length)) ∧
    (∀ magnitude, Fits magnitude →
      readOne Tag.integer readInteger (unsignedInteger magnitude) = .ok (beNat magnitude : Int)) ∧
    (∀ bytes, Fits bytes → readOne Tag.bitString readBits (bitString bytes) = .ok bytes) ∧
    (∀ a b arcs, a ≤ 2 → b < 40 → ∃ bytes, oid (a :: b :: arcs) = some bytes ∧ (Fits bytes →
      readOne Tag.oid readArcs bytes = .ok ((a :: b :: arcs).map UInt32.toNat))) ∧
    ∀ i : Item, Fits i.write → readNested i.write = .ok i := by
  have hlt : (2 : Nat) ^ 63 + 1 < 256 ^ 8 := by decide
  refine ⟨fun tag body htag hbody => ?_, fun magnitude h => ?_, fun bytes h => ?_,
    fun a b arcs ha hb => ?_, fun i h => ?_⟩
  · exact readTlv_tlv htag (hbody.trans (by decide))
  · exact readOne_unsignedInteger ((Nat.succ_lt_succ h).trans hlt)
  · exact readOne_tlv (by decide) ((Nat.succ_lt_succ h).trans hlt)
  · obtain ⟨bytes, hoid, hread⟩ := readOne_oid ha hb arcs
    exact ⟨bytes, hoid, fun h => hread (h.trans (by decide))⟩
  · exact i.readNested_write (h.trans (by decide))

/-- A body of 200 bytes, and the identifier of elliptic curve keys. -/
theorem der_canonical_key :
    readTlv (tlv 0x04 (replicate 200 0) ++ [5]) =
        .ok ((0x04, replicate 200 0), (tlv 0x04 (replicate 200 0)).length) ∧
      (oid [1, 2, 840, 10045, 2, 1]).map (readOne Tag.oid readArcs) =
        some (.ok [1, 2, 840, 10045, 2, 1]) := by
  obtain ⟨htlv, -, -, hoid, -⟩ := der_canonical
  refine ⟨htlv 0x04 (replicate 200 0) (by decide) ?_ [5], ?_⟩
  · rw [Fits, length_replicate]
    decide
  obtain ⟨bytes, hbytes, hread⟩ := hoid 1 2 [840, 10045, 2, 1] (by decide) (by decide)
  have hlen : ∀ bs ∈ oid [1, 2, 840, 10045, 2, 1], bs.length < 2 ^ 63 := by decide +kernel
  rw [hbytes, Option.map_some, hread (hlen bytes hbytes)]
  rfl

end Sentinel.Service.Der
