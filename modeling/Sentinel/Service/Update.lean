import Mathlib.Data.List.Infix
import Mathlib.Data.List.Lex
import Sentinel.Service.Enroll

/-!
# Staged updates

The service compares the version of a staged installer with its own and names the file in which an
installer is staged (`update.rs`).  Versions are lists of numbers that are filled up to three fields
and then compared as lists, where a longer list comes after its own beginning: fields of zero at
the end count as soon as there are more than three fields.
-/

open List

namespace Sentinel.Service

/-! ## Versions -/

/-- `str::parse::<u64>`, which takes a plus sign in front of the digits. -/
def parseU64 (s : String) : Option Nat :=
  let digits := match s.toList with
    | '+' :: digits => digits
    | digits => digits
  let n := digits.foldl (fun n d => 10 * n + (d.toNat - '0'.toNat)) 0
  if !digits.isEmpty && digits.all Char.isDigit && n < UInt64.size then some n else none

def versionFields (s : String) : Option (List Nat) :=
  (s.toList.splitOn '.').mapM fun p => parseU64 (trim (String.ofList p))

structure Version where
  parts : List Nat
  deriving DecidableEq, Repr

def padded (parts : List Nat) : List Nat := parts ++ replicate (3 - parts.length) 0

def Version.parse (s : String) : Option Version :=
  (versionFields s).bind fun parts => if parts = [] then none else some ⟨padded parts⟩

inductive ApplyDecision where
  | apply
  | deferInCall
  | nothing
  deriving DecidableEq, Repr

def Update.decide (current : String) (staged : Option String) (agentInCall _mandatory : Bool) :
    ApplyDecision :=
  match staged.bind Version.parse, Version.parse current with
  | some staged, some current =>
    if staged.parts ≤ current.parts then .nothing else if agentInCall then .deferInCall else .apply
  | _, _ => .nothing

/-- Version `s` is newer than version `c` field by field, where a missing field is zero. -/
def Newer (s c : List Nat) : Prop :=
  ∃ k, (∀ i < k, s.getD i 0 = c.getD i 0) ∧ c.getD k 0 < s.getD k 0

theorem newer_cons {x y : Nat} {s c : List Nat} :
    Newer (y :: s) (x :: c) ↔ x < y ∨ x = y ∧ Newer s c := by
  constructor
  · rintro ⟨_ | k, heq, hlt⟩
    · exact .inl hlt
    · exact .inr ⟨(heq 0 k.succ_pos).symm, k, fun i hi => heq (i + 1) (Nat.succ_lt_succ hi), hlt⟩
  rintro (hlt | ⟨rfl, k, heq, hlt⟩)
  · exact ⟨0, fun i hi => absurd hi i.not_lt_zero, hlt⟩
  refine ⟨k + 1, fun i hi => ?_, hlt⟩
  cases i with
  | zero => rfl
  | succ i => exact heq i (Nat.lt_of_succ_lt_succ hi)

theorem newer_nil_iff {s : List Nat} : Newer s [] ↔ ∃ y ∈ s, y ≠ 0 := by
  induction s with
  | nil => simp [Newer]
  | cons y s ih =>
    have hcons : Newer (y :: s) [] ↔ Newer (y :: s) [0] := by
      refine exists_congr fun k => ?_
      have hzero : ∀ i, ([] : List Nat).getD i 0 = [0].getD i 0 := by
        rintro (_ | i) <;> rfl
      simp only [hzero]
    rw [hcons, newer_cons, ih, exists_mem_cons_iff, ← Nat.pos_iff_ne_zero]
    rcases y.eq_zero_or_pos with rfl | hy
    · simp
    · simp [hy]

/-- **The order of lists and the order of versions.**  They differ for a list that goes on with
zeros. -/
theorem lt_iff_newer {c s : List Nat} : c < s ↔ Newer s c ∨ ∃ n, s = c ++ replicate (n + 1) 0 := by
  induction c generalizing s with
  | nil =>
    rw [newer_nil_iff]
    constructor
    · intro h
      by_cases hzero : ∃ y ∈ s, y ≠ 0
      · exact .inl hzero
      push Not at hzero
      obtain ⟨y, s', rfl⟩ := exists_cons_of_ne_nil (fun hs => not_lt_nil [] (hs.subst h))
      exact .inr ⟨s'.length, eq_replicate_iff.mpr ⟨rfl, hzero⟩⟩
    rintro (⟨y, hy, -⟩ | ⟨n, rfl⟩)
    · cases s with
      | nil => cases hy
      | cons y s => exact nil_lt_cons y s
    · exact nil_lt_cons 0 _
  | cons x c ih =>
    cases s with
    | nil => simp [Newer]
    | cons y s =>
      rw [cons_lt_cons_iff, newer_cons, ih, and_or_left, or_assoc]
      refine or_congr_right (or_congr_right ?_)
      simp only [cons_append, cons.injEq, eq_comm (a := x), exists_and_left]

theorem getD_padded (parts : List Nat) (i : Nat) : (padded parts).getD i 0 = parts.getD i 0 := by
  rcases Nat.lt_or_ge i parts.length with h | h
  · simp [padded, getD_eq_getElem?_getD, getElem?_append_left h]
  simp only [padded, getD_eq_getElem?_getD, getElem?_append_right h, getElem?_replicate,
    getElem?_eq_none h]
  split <;> rfl

theorem newer_padded {s c : List Nat} : Newer (padded s) (padded c) ↔ Newer s c := by
  simp only [Newer, getD_padded]

theorem parse_eq_some {s : String} {parts : List Nat} (h : versionFields s = some parts) :
    Version.parse s = some ⟨padded parts⟩ := by
  have hne : parts ≠ [] := by
    rintro rfl
    obtain ⟨p, ps, hps⟩ := exists_cons_of_ne_nil (splitOn_ne_nil '.' s.toList)
    rw [versionFields, hps, mapM_cons] at h
    simp [Option.bind_eq_some_iff] at h
  rw [Version.parse, h, Option.bind_some, if_neg hne]

variable {current staged : String} {c s : List Nat}

def isSeparator (c : Char) : Bool := c = '/' || c = '\\'

/-- A path as its components. -/
abbrev PathBuf := List (List Char)

/-- `Path::join`: a path with a drive or a root of its own takes the place of the first. -/
def PathBuf.join (root : PathBuf) (path : List Char) : PathBuf :=
  let parts := (path.splitOnP isSeparator).filter fun part => part ≠ [] && part ≠ ['.']
  if path.head?.any isSeparator || path[1]? = some ':' then parts else root ++ parts

/-- `str::replace("..", ".")`. -/
def replaceDots : List Char → List Char
  | '.' :: '.' :: rest => '.' :: replaceDots rest
  | c :: rest => c :: replaceDots rest
  | [] => []

theorem replaceDots_length_le (s : List Char) : (replaceDots s).length ≤ s.length := by
  fun_induction replaceDots s with
  | case1 rest ih => simp only [length_cons]; omega
  | case2 c rest h ih => simpa using ih
  | case3 => exact le_rfl

theorem replaceDots_length_lt {s : List Char} (h : ['.', '.'] <:+: s) :
    (replaceDots s).length < s.length := by
  fun_induction replaceDots s with
  | case1 rest ih =>
    have := replaceDots_length_le rest
    simp only [length_cons]
    omega
  | case2 c rest hne ih =>
    rcases infix_cons_iff.mp h with hstart | hrest
    · obtain ⟨t, ht⟩ := hstart
      obtain ⟨rfl, rfl⟩ := cons.inj ht
      exact (hne t rfl rfl).elim
    · simpa using ih hrest
  | case3 => simp at h

def squeezeDots (s : List Char) : List Char :=
  if ['.', '.'] <:+: s then squeezeDots (replaceDots s) else s
termination_by s.length
decreasing_by exact replaceDots_length_lt ‹_›

def keptChars (version : String) : List Char :=
  version.toList.filter fun c => c.isAlphanum || c = '.' || c = '-'

def msiStem : List Char := "SentinelAgent-".toList

def msiExtension : List Char := ".msi".toList

def stagingName (version : String) : List Char :=
  msiStem ++ (squeezeDots (keptChars version) ++ msiExtension)

def stagingPath (root : PathBuf) (version : String) : PathBuf :=
  root.join (stagingName version)

theorem replaceDots_subset (s : List Char) : replaceDots s ⊆ s := by
  fun_induction replaceDots s with
  | case1 rest ih => exact cons_subset_cons '.' (subset_cons_of_subset '.' ih)
  | case2 c rest h ih => exact cons_subset_cons c ih
  | case3 => exact Subset.refl []

theorem replaceDots_getLast (s : List Char) : (replaceDots s).getLast? = s.getLast? := by
  fun_induction replaceDots s with
  | case1 _ ih | case2 _ _ _ ih => simp [getLast?_cons, ih]
  | case3 => rfl

theorem squeezeDots_spec (s : List Char) : ¬ ['.', '.'] <:+: squeezeDots s ∧ squeezeDots s ⊆ s ∧
      (squeezeDots s).getLast? = s.getLast? := by
  fun_induction squeezeDots s with
  | case1 s h ih =>
    exact ⟨ih.1, List.Subset.trans ih.2.1 (replaceDots_subset s), ih.2.2.trans (replaceDots_getLast s)⟩
  | case2 s h => exact ⟨h, Subset.refl s, rfl⟩

/-- Two dots in a row stand in one of two joined texts or where they meet. -/
theorem dots_infix_append {l r : List Char} : ['.', '.'] <:+: l ++ r ↔
      ['.', '.'] <:+: l ∨ ['.', '.'] <:+: r ∨ l.getLast? = some '.' ∧ r.head? = some '.' := by
  induction l with
  | nil => simp
  | cons c l ih =>
    rw [cons_append, infix_cons_iff, infix_cons_iff, ih]
    cases l with
    | nil => cases r <;> simp [cons_prefix_cons, eq_comm (a := '.'), or_comm]
    | cons d l => simp [cons_prefix_cons, or_assoc]

theorem not_isSeparator_of_mem {version : String} {c : Char} (h : c ∈ stagingName version) :
    isSeparator c = false := by
  have hall : (msiStem ++ msiExtension).all (! isSeparator ·) = true := by decide +kernel
  have hfixed : ∀ c ∈ msiStem ++ msiExtension, isSeparator c = false := fun c hc =>
    Bool.not_eq_true' _ ▸ all_eq_true.mp hall c hc
  rcases mem_append.mp h with h | h
  · exact hfixed c (mem_append_left _ h)
  rcases mem_append.mp h with h | h
  · have hkept := (mem_filter.mp ((squeezeDots_spec _).2.1 h)).2
    rw [isSeparator, Bool.or_eq_false_iff, decide_eq_false_iff_not, decide_eq_false_iff_not]
    constructor <;> rintro rfl <;> exact absurd hkept (by decide)
  · exact hfixed c (mem_append_right _ h)

/-- **Where an installer is staged.**  It is a file in the staging directory itself, and its name
has two dots in a row exactly when the last character kept of the version is a dot. -/
theorem stagingPath_contained (root : PathBuf) (version : String) :
    ∃ name, stagingPath root version = root ++ [name] ∧ (∀ c ∈ name, isSeparator c = false) ∧
      (¬ ['.', '.'] <:+: name ↔ (keptChars version).getLast? ≠ some '.') := by
  have hsep : ∀ c ∈ stagingName version, isSeparator c = false := fun c => not_isSeparator_of_mem
  have hstem : ¬ ['.', '.'] <:+: msiStem ∧ msiStem.getLast? = some '-' := by decide +kernel
  have hextension : ¬ ['.', '.'] <:+: msiExtension ∧ msiExtension.head? = some '.' := by
    decide +kernel
  refine ⟨stagingName version, ?_, hsep, ?_⟩
  · obtain ⟨rest, hname⟩ : ∃ rest, stagingName version = 'S' :: 'e' :: rest := ⟨_, rfl⟩
    rw [stagingPath, PathBuf.join, splitOnP_eq_singleton hsep, hname]
    simp [isSeparator]
  · obtain ⟨hdots, -, hlast⟩ := squeezeDots_spec (keptChars version)
    rw [stagingName, dots_infix_append, dots_infix_append, ← hlast]
    simp [hdots, hstem, hextension]

/-- The dot at the end of a version and the one before the extension stand together. -/
theorem staging_dots :
    stagingPath [] "1." = ["SentinelAgent-1..msi".toList] ∧
      ['.', '.'] <:+: "SentinelAgent-1..msi".toList := by
  have hkept : keptChars "1." = ['1', '.'] := by decide +kernel
  have hname : squeezeDots ['1', '.'] = ['1', '.'] := by
    rw [squeezeDots, if_neg (by decide)]
  refine ⟨?_, by decide +kernel⟩
  rw [stagingPath, stagingName, hkept, hname]
  decide +kernel

end Sentinel.Service
