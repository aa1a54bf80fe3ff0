import Mathlib.Data.List.Forall2
import Mathlib.Algebra.Order.Ring.Nat

/-!
# Bytes: little-endian numbers and records end to end

`leBytes w n` are the `w` low bytes of `n`, low byte first, and `leNat` reads them back.
-/

open List Nat

namespace Bytes

/-! ## Little-endian numbers -/

def leBytes : Nat → Nat → List UInt8
  | 0, _ => []
  | w + 1, n => UInt8.ofNat n :: leBytes w (n / 256)

def leNat : List UInt8 → Nat
  | [] => 0
  | b :: bs => b.toNat + 256 * leNat bs

@[simp] theorem length_leBytes (w n : Nat) : (leBytes w n).length = w := by
  induction w generalizing n with
  | zero => rfl
  | succ w ih => simp [leBytes, ih]

theorem leNat_leBytes {w n : Nat} (h : n < 256 ^ w) : leNat (leBytes w n) = n := by
  induction w generalizing n with
  | zero =>
    have hn : n = 0 := by simpa using h
    rw [hn]
    rfl
  | succ w ih =>
    have hdiv : n / 256 < 256 ^ w := by
      rwa [div_lt_iff_lt_mul (by omega), ← pow_succ]
    have hlow : (UInt8.ofNat n).toNat = n % 256 := by simp [UInt8.toNat_ofNat']
    rw [leBytes, leNat, ih hdiv, hlow]
    omega

theorem leNat_append (bs cs : List UInt8) :
    leNat (bs ++ cs) = leNat bs + 256 ^ bs.length * leNat cs := by
  induction bs with
  | nil => simp [leNat]
  | cons b bs ih =>
    rw [cons_append, leNat, ih, leNat, length_cons, pow_succ', mul_add, mul_assoc, add_assoc]

theorem leNat_lt (bs : List UInt8) : leNat bs < 256 ^ bs.length := by
  induction bs with
  | nil => simp [leNat]
  | cons b bs ih =>
    have hb : b.toNat < 256 := b.toNat_lt
    rw [leNat, length_cons, pow_succ]
    omega

theorem leBytes_leNat (bs : List UInt8) : leBytes bs.length (leNat bs) = bs := by
  induction bs with
  | nil => rfl
  | cons b bs ih =>
    have hb : b.toNat < 256 := b.toNat_lt
    have hdiv : (b.toNat + 256 * leNat bs) / 256 = leNat bs := by omega
    have hlow : UInt8.ofNat (b.toNat + 256 * leNat bs) = b := by
      apply UInt8.toNat.inj
      rw [UInt8.toNat_ofNat']
      omega
    rw [length_cons, leNat, leBytes, hdiv, ih, hlow]

theorem leBytes_leNat_of_length {bs : List UInt8} {w : Nat} (h : bs.length = w) :
    leBytes w (leNat bs) = bs := by
  rw [← h, leBytes_leNat]

/-! ## Parts of a string -/

section Slice

variable {β : Type*}

def slice (buf : List β) (i j : Nat) : List β := (buf.drop i).take (j - i)

variable {i j n : Nat} {buf : List β}

theorem length_slice (h : j ≤ buf.length) : (slice buf i j).length = j - i := by
  rw [slice, length_take, length_drop]
  omega

theorem slice_append {xs ys zs : List β} (hi : xs.length = i) (hj : ys.length = j - i) :
    slice (xs ++ (ys ++ zs)) i j = ys := by
  rw [slice, ← hi, drop_left, hi, ← hj, take_left]

theorem slice_append_slice {k : Nat} (hij : i ≤ j) (hjk : j ≤ k) :
    slice buf i j ++ slice buf j k = slice buf i k := by
  obtain ⟨m, rfl⟩ := Nat.exists_eq_add_of_le hij
  obtain ⟨n, rfl⟩ := Nat.exists_eq_add_of_le hjk
  have hm : i + m - i = m := by omega
  have hn : i + m + n - (i + m) = n := by omega
  have hmn : i + m + n - i = m + n := by omega
  rw [slice, slice, slice, hm, hn, hmn, ← drop_drop, take_add]

theorem toList_ofFn_getD {k : Nat} (d : β) (h : k + n ≤ buf.length) :
    (Vector.ofFn fun i : Fin n => buf.getD (k + i) d).toList = slice buf k (k + n) := by
  refine ext_getElem ?_ fun i hi _ => ?_
  · rw [Vector.length_toList, length_slice h]
    omega
  rw [Vector.length_toList] at hi
  have hbuf : k + i < buf.length := by omega
  simp [slice, getD_eq_getElem?_getD, getElem?_eq_getElem hbuf]

theorem slice_zero (buf : List β) (j : Nat) : slice buf 0 j = buf.take j := rfl

theorem length_slice_le (buf : List β) (i j : Nat) : (slice buf i j).length ≤ buf.length - i := by
  rw [slice, length_take, length_drop]
  omega

theorem slice_flatten {chunks : List (List β)} (h : ∀ c ∈ chunks, c.length = n) {c : List β}
    (hc : chunks[i]? = some c) : slice chunks.flatten (n * i) (n * (i + 1)) = c := by
  induction chunks generalizing i with
  | nil => simp at hc
  | cons d ds ih =>
    have hd : d.length = n := h d mem_cons_self
    cases i with
    | zero =>
      obtain rfl : d = c := by simpa using hc
      rw [flatten_cons, mul_zero, slice_zero, zero_add, mul_one, ← hd, take_left]
    | succ i =>
      have hrest : ds[i]? = some c := by simpa using hc
      have hstart : n * (i + 1) = d.length + n * i := by rw [mul_succ, hd, add_comm]
      have hwidth : ∀ j, n * (j + 1) - n * j = n := fun j => by
        rw [Nat.mul_succ, Nat.add_sub_cancel_left]
      rw [← ih (fun e he => h e (mem_cons_of_mem d he)) hrest, flatten_cons, slice, slice,
        hwidth, hwidth, hstart, drop_length_add_append]

theorem length_flatten_of_length {chunks : List (List β)} (h : ∀ c ∈ chunks, c.length = n) :
    chunks.flatten.length = n * chunks.length := by
  induction chunks with
  | nil => simp
  | cons d ds ih =>
    rw [flatten_cons, length_append, h d mem_cons_self,
      ih fun e he => h e (mem_cons_of_mem d he), length_cons, mul_succ, add_comm]

end Slice

/-! ## Records end to end -/

section Records

variable {β ρ ρ' ε ε' δ δ' : Type*}

def readLoop (read : List β → Except ε (ρ × Nat)) (wrap : Nat → Nat → ε → δ) (buf : List β) :
    Nat → Nat → List ρ → Except δ (List ρ)
  | 0, _, out => .ok out
  | fuel + 1, off, out =>
    if off < buf.length then
      match read (buf.drop off) with
      | .error e => .error (wrap out.length off e)
      | .ok (r, used) => readLoop read wrap buf fuel (off + used) (out ++ [r])
    else .ok out

def readAll (read : List β → Except ε (ρ × Nat)) (wrap : Nat → Nat → ε → δ) (buf : List β) :
    Except δ (List ρ) :=
  readLoop read wrap buf buf.length 0 []

def Reads (read : List β → Except ε (ρ × Nat)) (write : ρ → List β) (P : ρ → Prop) : Prop :=
  ∀ r, P r → 0 < (write r).length ∧ ∀ rest, read (write r ++ rest) = .ok (r, (write r).length)

def Canonical (read : List β → Except ε (ρ × Nat)) (write : ρ → List β) (P : ρ → Prop) : Prop :=
  ∀ buf r used, read buf = .ok (r, used) →
    P r ∧ 0 < used ∧ used = (write r).length ∧ write r <+: buf

variable {read : List β → Except ε (ρ × Nat)} {wrap : Nat → Nat → ε → δ} {write : ρ → List β}
  {P : ρ → Prop} {buf : List β}

variable {rs out : List ρ}

theorem readLoop_flatMap (h : Reads read write P) (hrs : ∀ r ∈ rs, P r) {fuel off : Nat}
    (hrest : buf.drop off = rs.flatMap write) (hfuel : (rs.flatMap write).length ≤ fuel) :
    readLoop read wrap buf fuel off out = .ok (out ++ rs) := by
  induction rs generalizing fuel off out with
  | nil =>
    have hend : ¬ off < buf.length := by simpa using hrest
    cases fuel with
    | zero => simp [readLoop]
    | succ fuel => simp [readLoop, hend]
  | cons r rs ih =>
    obtain ⟨hpos, hread⟩ := h r (hrs r mem_cons_self)
    rw [flatMap_cons] at hrest hfuel
    rw [length_append] at hfuel
    obtain ⟨fuel, rfl⟩ : ∃ k, fuel = k + 1 := ⟨fuel - 1, by omega⟩
    have hlen := congrArg length hrest
    rw [length_drop, length_append] at hlen
    have hoff : off < buf.length := by omega
    have hnext : buf.drop (off + (write r).length) = rs.flatMap write := by
      rw [← drop_drop, hrest, drop_left]
    rw [readLoop, if_pos hoff, hrest, hread]
    dsimp only
    rw [ih (fun s hs => hrs s (mem_cons_of_mem r hs)) hnext (by omega), append_assoc]
    rfl

theorem readAll_flatMap (h : Reads read write P) (hrs : ∀ r ∈ rs, P r) :
    readAll read wrap (rs.flatMap write) = .ok rs :=
  readLoop_flatMap h hrs rfl le_rfl

theorem flatMap_of_readLoop (h : Canonical read write P) {fuel off : Nat}
    (hfuel : buf.length ≤ off + fuel) (hread : readLoop read wrap buf fuel off out = .ok rs) :
    ∃ new, rs = out ++ new ∧ (∀ r ∈ new, P r) ∧ new.flatMap write = buf.drop off := by
  induction fuel generalizing off out with
  | zero =>
    have hend : buf.drop off = [] := by simpa using hfuel
    cases hread
    exact ⟨[], by simp, by simp, hend.symm⟩
  | succ fuel ih =>
    rw [readLoop] at hread
    split at hread
    case isFalse hoff =>
      have hend : buf.drop off = [] := by simpa using hoff
      cases hread
      exact ⟨[], by simp, by simp, hend.symm⟩
    case isTrue hoff =>
      cases hone : read (buf.drop off) with
      | error e =>
        rw [hone] at hread
        cases hread
      | ok p =>
        obtain ⟨r, used⟩ := p
        obtain ⟨hP, hpos, hused, rest, hrest⟩ := h _ _ _ hone
        rw [hone] at hread
        obtain ⟨new, hnew, hall, hflat⟩ := ih (by omega) hread
        have hdrop : buf.drop (off + used) = rest := by
          rw [← drop_drop, ← hrest, hused, drop_left]
        refine ⟨r :: new, by rw [hnew, append_assoc]; rfl, fun s hs => ?_, ?_⟩
        · rcases mem_cons.mp hs with rfl | hs
          · exact hP
          · exact hall s hs
        · rw [flatMap_cons, hflat, hdrop, hrest]

theorem flatMap_of_readAll (h : Canonical read write P) (hread : readAll read wrap buf = .ok rs) :
    (∀ r ∈ rs, P r) ∧ rs.flatMap write = buf := by
  obtain ⟨new, rfl, hall, hflat⟩ := flatMap_of_readLoop h (zero_add _).ge hread
  exact ⟨hall, hflat⟩

theorem foldlM_append {f : List β → ρ → Except ε (List β)}
    (h : ∀ r ∈ rs, ∀ out, f out r = .ok (out ++ write r)) (out : List β) :
    rs.foldlM f out = .ok (out ++ rs.flatMap write) := by
  induction rs generalizing out with
  | nil =>
    rw [foldlM_nil, flatMap_nil, append_nil]
    rfl
  | cons r rs ih =>
    rw [foldlM_cons, h r mem_cons_self]
    change rs.foldlM f (out ++ write r) = _
    rw [ih fun s hs => h s (mem_cons_of_mem r hs), flatMap_cons, append_assoc]

/-! ## Two readers of one format -/

inductive Agree (R : ρ → ρ' → Prop) (C : ε → ε' → Prop) : Except ε ρ → Except ε' ρ' → Prop where
  | ok {r : ρ} {r' : ρ'} (h : R r r') : Agree R C (.ok r) (.ok r')
  | error {e : ε} {e' : ε'} (h : C e e') : Agree R C (.error e) (.error e')

variable {read' : List β → Except ε' (ρ' × Nat)} {wrap' : Nat → Nat → ε' → δ'}
  {R : ρ → ρ' → Prop} {C : ε → ε' → Prop} {D : δ → δ' → Prop}

theorem readLoop_agree
    (h : ∀ buf, Agree (fun p q => R p.1 q.1 ∧ p.2 = q.2) C (read buf) (read' buf))
    (hwrap : ∀ n off e e', C e e' → D (wrap n off e) (wrap' n off e')) (fuel off : Nat)
    {out' : List ρ'} (hout : Forall₂ R out out') :
    Agree (Forall₂ R) D (readLoop read wrap buf fuel off out)
      (readLoop read' wrap' buf fuel off out') := by
  induction fuel generalizing off out out' with
  | zero => exact .ok hout
  | succ fuel ih =>
    rw [readLoop, readLoop]
    split
    case isFalse => exact .ok hout
    case isTrue =>
      have hone := h (buf.drop off)
      generalize read (buf.drop off) = p at hone ⊢
      generalize read' (buf.drop off) = q at hone ⊢
      cases hone with
      | error he =>
        rw [hout.length_eq]
        exact .error (hwrap _ _ _ _ he)
      | @ok r r' hr =>
        obtain ⟨hrec, hused⟩ := hr
        dsimp only
        rw [hused]
        exact ih _ (rel_append hout (.cons hrec .nil))

theorem readAll_agree (h : ∀ buf, Agree (fun p q => R p.1 q.1 ∧ p.2 = q.2) C (read buf) (read' buf))
    (hwrap : ∀ n off e e', C e e' → D (wrap n off e) (wrap' n off e')) (buf : List β) :
    Agree (Forall₂ R) D (readAll read wrap buf) (readAll read' wrap' buf) :=
  readLoop_agree h hwrap _ _ .nil

theorem eq_map_of_forall₂ {f : ρ → ρ'} {rs' : List ρ'}
    (h : Forall₂ (fun r r' => r' = f r) rs rs') : rs' = rs.map f := by
  induction h with
  | nil => rfl
  | cons hr _ ih => rw [map_cons, ih, hr]

end Records

/-! ## Length-delimited strings -/

section Delimited

variable {w : Nat}

inductive Cut where
  | inLength (left : Nat)
  | inFrame (claims left : Nat)
  deriving DecidableEq, Repr

def writeFrame (w : Nat) (f : List UInt8) : List UInt8 := leBytes w f.length ++ f

def readFrame (w : Nat) (buf : List UInt8) : Except Cut (List UInt8 × Nat) :=
  if buf.length < w then .error (.inLength buf.length)
  else
    let n := leNat (slice buf 0 w)
    if buf.length - w < n then .error (.inFrame n (buf.length - w))
    else .ok (slice buf w (w + n), w + n)

@[simp] theorem length_writeFrame (f : List UInt8) : (writeFrame w f).length = w + f.length := by
  simp [writeFrame]

theorem readFrame_reads (hw : 0 < w) :
    Reads (readFrame w) (writeFrame w) fun f => f.length < 256 ^ w := by
  intro f hf
  rw [length_writeFrame]
  refine ⟨by omega, fun rest => ?_⟩
  have hlen : (writeFrame w f ++ rest).length = w + f.length + rest.length := by simp
  have hsize : leNat (slice (writeFrame w f ++ rest) 0 w) = f.length := by
    rw [writeFrame, append_assoc, slice_zero, take_left' (length_leBytes _ _), leNat_leBytes hf]
  have hbody : slice (writeFrame w f ++ rest) w (w + f.length) = f := by
    rw [writeFrame, append_assoc]
    exact slice_append (length_leBytes _ _) (by omega)
  rw [readFrame, if_neg (by omega)]
  rw [hsize, if_neg (by omega), hbody]

theorem readFrame_canonical (hw : 0 < w) :
    Canonical (readFrame w) (writeFrame w) fun f => f.length < 256 ^ w := by
  intro buf f used h
  unfold readFrame at h
  split at h
  · cases h
  rename_i hlen
  dsimp only at h
  split at h
  · cases h
  cases h
  have hlt := leNat_lt (slice buf 0 w)
  have hwidth : (slice buf 0 w).length = w := length_slice (Nat.le_of_not_lt hlen)
  have hsize : (slice buf w (w + leNat (slice buf 0 w))).length = leNat (slice buf 0 w) := by
    rw [length_slice (by omega)]
    omega
  have hwrite : writeFrame w (slice buf w (w + leNat (slice buf 0 w))) =
      slice buf 0 (w + leNat (slice buf 0 w)) := by
    rw [writeFrame, hsize, leBytes_leNat_of_length hwidth,
      slice_append_slice (zero_le _) (le_add_right _ _)]
  refine ⟨?_, by omega, by rw [length_writeFrame, hsize], ?_⟩
  · rw [hwidth] at hlt
    rwa [hsize]
  rw [hwrite, slice_zero]
  exact take_prefix _ _

end Delimited

end Bytes
