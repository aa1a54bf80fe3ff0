import Mathlib.Data.List.DropRight

/-!
# Signing in through the loopback port

The browser comes back from the identity provider to a port of the agent's own (`auth/loopback.rs`),
where anything else on the machine may connect as well.
-/

open List

namespace Sentinel.SignIn

def ascii (s : String) : List UInt8 := s.toList.map fun c => UInt8.ofNat c.toNat

/-! ## Text -/

def isContinuation (b : UInt8) : Bool := 0x80 ≤ b ∧ b ≤ 0xbf

def secondRange (first : UInt8) : UInt8 × UInt8 :=
  if first = 0xe0 then (0xa0, 0xbf)
  else if first = 0xed then (0x80, 0x9f)
  else if first = 0xf0 then (0x90, 0xbf)
  else if first = 0xf4 then (0x80, 0x8f)
  else (0x80, 0xbf)

def utf8Width (first : UInt8) : Nat :=
  if first < 0x80 then 1
  else if 0xc2 ≤ first ∧ first ≤ 0xdf then 2
  else if 0xe0 ≤ first ∧ first ≤ 0xef then 3
  else if 0xf0 ≤ first ∧ first ≤ 0xf4 then 4
  else 0

def continued (first : UInt8) : List UInt8 → Nat
  | [] => 0
  | b :: rest =>
    let (low, high) := secondRange first
    if low ≤ b ∧ b ≤ high then 1 + (rest.takeWhile isContinuation).length else 0

def utf8Scan : Nat → List UInt8 → List UInt8 × Bool
  | 0, _ => ([], true)
  | _, [] => ([], true)
  | fuel + 1, first :: rest =>
    let width := utf8Width first
    let used := 1 + min (continued first rest) (width - 1)
    let (text, valid) := utf8Scan fuel (rest.drop (used - 1))
    if used = width then ((first :: rest).take width ++ text, valid)
    else ([0xef, 0xbf, 0xbd] ++ text, false)

def fromUtf8Lossy (bytes : List UInt8) : List UInt8 := (utf8Scan bytes.length bytes).1

def isUtf8 (bytes : List UInt8) : Bool := (utf8Scan bytes.length bytes).2

def splitOnce (mark : UInt8) (s : List UInt8) : Option (List UInt8 × List UInt8) :=
  if mark ∈ s then some (s.takeWhile (· ≠ mark), (s.dropWhile (· ≠ mark)).tail) else none

def hexDigit (b : UInt8) : Option UInt8 :=
  if 0x30 ≤ b ∧ b ≤ 0x39 then some (b - 0x30)
  else if 0x41 ≤ b ∧ b ≤ 0x46 then some (b - 0x41 + 10)
  else if 0x61 ≤ b ∧ b ≤ 0x66 then some (b - 0x61 + 10)
  else none

def fromStrRadix16 (high low : UInt8) : Option UInt8 :=
  if high = 0x2b then hexDigit low
  else (hexDigit high).bind fun h => (hexDigit low).map fun l => h * 16 + l

def percentBytes : List UInt8 → Option (List UInt8)
  | b :: high :: low :: rest =>
    if b = 0x25 then
      if isContinuation high ∨ rest.head?.any isContinuation then none
      else match fromStrRadix16 high low with
        | some v => (percentBytes rest).map (v :: ·)
        | none => (percentBytes (high :: low :: rest)).map (b :: ·)
    else (percentBytes (high :: low :: rest)).map ((if b = 0x2b then 0x20 else b) :: ·)
  | bytes => some (bytes.map fun b => if b = 0x2b then 0x20 else b)

def percentDecode (s : List UInt8) : Option (List UInt8) := (percentBytes s).map fromUtf8Lossy

def isUnreserved (b : UInt8) : Bool :=
  (0x41 ≤ b && b ≤ 0x5a) || (0x61 ≤ b && b ≤ 0x7a) || (0x30 ≤ b && b ≤ 0x39) ||
    b ∈ [0x2d, 0x2e, 0x5f, 0x7e]

def hexUpper (n : UInt8) : UInt8 := if n < 10 then 0x30 + n else 0x41 + (n - 10)

def percentEncode (s : List UInt8) : List UInt8 :=
  s.flatMap fun b => if isUnreserved b then [b] else [0x25, hexUpper (b / 16), hexUpper (b % 16)]

/-! ## One connection -/

inductive CallbackError where
  | wrongPath (path : List UInt8)
  | noCode
  | noState
  | stateMismatch
  | provider (code : List UInt8) (description : Option (List UInt8))
  | malformed
  deriving DecidableEq, Repr

inductive LoopbackError where
  | timedOut
  | callback (e : CallbackError)
  | io
  | panicked
  deriving DecidableEq, Repr

structure Callback where
  code : List UInt8
  state : List UInt8
  deriving DecidableEq, Repr

def requestTarget (line : List UInt8) : Option (List UInt8) :=
  match (line.rdropWhile fun b => b = 0x0d ∨ b = 0x0a).splitOn 0x20 with
  | method :: target :: version :: _ =>
    if method ≠ ascii "GET" ∨ ¬ ascii "HTTP/" <+: version ∨ target = [] then none else some target
  | _ => none

structure Params where
  code : Option (List UInt8) := none
  state : Option (List UInt8) := none
  error : Option (List UInt8) := none
  errorDescription : Option (List UInt8) := none

def Params.add (p : Params) (pair : List UInt8) : Option Params :=
  let (k, v) := (splitOnce 0x3d pair).getD (pair, [])
  (percentDecode v).map fun v =>
    if k = ascii "code" then { p with code := some v }
    else if k = ascii "state" then { p with state := some v }
    else if k = ascii "error" then { p with error := some v }
    else if k = ascii "error_description" then { p with errorDescription := some v }
    else p

def Params.callback (p : Params) : Except CallbackError Callback :=
  match p.error, p.state, p.code.filter (· ≠ []) with
  | some code, _, _ => .error (.provider code p.errorDescription)
  | none, none, _ => .error .noState
  | none, some _, none => .error .noCode
  | none, some state, some code => .ok ⟨code, state⟩

def parseCallback (target : List UInt8) : Except LoopbackError Callback :=
  let (path, query) := (splitOnce 0x3f target).getD (target, [])
  if path ≠ ascii "/callback" then .error (.callback (.wrongPath path))
  else match ((query.splitOn 0x26).filter (· ≠ [])).foldlM Params.add {} with
    | none => .error .panicked
    | some p => p.callback.mapError .callback

def maxRequestLine : Nat := 8 * 1024

structure Connection where
  bytes : List UInt8
  fails : Bool := false

def Connection.readLine (c : Connection) : Option (List UInt8) :=
  let read := c.bytes.take maxRequestLine
  let line := read.takeWhile (· ≠ 0x0a) ++ (read.dropWhile (· ≠ 0x0a)).take 1
  if c.fails ∧ 0x0a ∉ read ∧ read.length < maxRequestLine then none
  else if isUtf8 line then some line
  else none

def serveOne (c : Connection) : Except LoopbackError Callback :=
  match c.readLine with
  | none => .error .io
  | some line =>
    match requestTarget line with
    | none => .error (.callback .malformed)
    | some target => parseCallback target

/-! ## The sign-in -/

def waitForCallback : List Connection → Except LoopbackError Callback
  | [] => .error .timedOut
  | c :: cs =>
    match serveOne c with
    | .ok cb => .ok cb
    | .error (.callback (.wrongPath _)) => waitForCallback cs
    | .error e => .error e

def constantTimeEq (a b : List UInt8) : Bool :=
  if a.length ≠ b.length then false
  else (zip a b).foldl (fun diff p => diff ||| (p.1 ^^^ p.2)) 0 = (0 : UInt8)

structure AuthAttempt where
  state : List UInt8

def validate (attempt : AuthAttempt) (cb : Callback) : Except CallbackError (List UInt8) :=
  if constantTimeEq attempt.state cb.state then .ok cb.code else .error .stateMismatch

def signIn (attempt : AuthAttempt) (cs : List Connection) : Except LoopbackError (List UInt8) :=
  match waitForCallback cs with
  | .ok cb => (validate attempt cb).mapError .callback
  | .error e => .error e

/-! ## What other processes can do -/

theorem foldl_or_eq_zero {ps : List (UInt8 × UInt8)} {diff : UInt8} :
    ps.foldl (fun diff p => diff ||| (p.1 ^^^ p.2)) diff = 0 ↔
      diff = 0 ∧ ∀ p ∈ ps, p.1 = p.2 := by
  induction ps generalizing diff with
  | nil => simp
  | cons p ps ih => rw [foldl_cons, ih, UInt8.or_eq_zero_iff, UInt8.xor_eq_zero_iff,
      forall_mem_cons, and_assoc]

theorem forall_zip_iff {a b : List UInt8} (h : a.length = b.length) :
    (∀ p ∈ zip a b, p.1 = p.2) ↔ a = b := by
  induction a generalizing b with
  | nil => rw [length_eq_zero_iff.mp h.symm]; simp
  | cons x a ih =>
    cases b with
    | nil => cases h
    | cons y b => rw [zip_cons_cons, forall_mem_cons, ih (Nat.succ.inj h), cons.injEq]

theorem constantTimeEq_iff (a b : List UInt8) : constantTimeEq a b = true ↔ a = b := by
  unfold constantTimeEq
  split
  case isTrue hlen =>
    simp only [Bool.false_eq_true, false_iff]
    exact fun h => hlen (congrArg length h)
  case isFalse hlen =>
    rw [decide_eq_true_iff, foldl_or_eq_zero, forall_zip_iff (not_not.mp hlen)]
    exact and_iff_right rfl

theorem mapError_validate_eq_ok {attempt : AuthAttempt} {cb : Callback} {code : List UInt8} :
    (validate attempt cb).mapError LoopbackError.callback = .ok code ↔
      cb = ⟨code, attempt.state⟩ := by
  obtain ⟨code', state⟩ := cb
  rw [validate, Callback.mk.injEq]
  split
  case isTrue h =>
    rw [constantTimeEq_iff] at h
    simp [Except.mapError, h]
  case isFalse h =>
    rw [constantTimeEq_iff] at h
    simp [Except.mapError, Ne.symm h]

def Skipped (c : Connection) : Prop := ∃ path, serveOne c = .error (.callback (.wrongPath path))

variable {attempt : AuthAttempt} {c : Connection} {cs : List Connection} {code : List UInt8}

theorem signIn_cons_of_skipped (h : Skipped c) : signIn attempt (c :: cs) = signIn attempt cs := by
  obtain ⟨path, hpath⟩ := h
  rw [signIn, waitForCallback, hpath]
  rfl

theorem signIn_cons_of_not_skipped (h : ¬ Skipped c) :
    signIn attempt (c :: cs) = .ok code ↔ serveOne c = .ok ⟨code, attempt.state⟩ := by
  have hwait : waitForCallback (c :: cs) = serveOne c := by
    rw [waitForCallback]
    split
    case h_1 hserve => exact hserve.symm
    case h_2 path hserve => exact absurd ⟨path, hserve⟩ h
    case h_3 hserve => exact hserve.symm
  rw [signIn, hwait]
  cases serveOne c with
  | ok cb => rw [mapError_validate_eq_ok, Except.ok.injEq]
  | error e => simp

theorem mem_of_signIn (h : signIn attempt cs = .ok code) :
    ∃ c ∈ cs, serveOne c = .ok ⟨code, attempt.state⟩ := by
  induction cs with
  | nil => cases h
  | cons c cs ih =>
    by_cases hc : Skipped c
    · rw [signIn_cons_of_skipped hc] at h
      obtain ⟨d, hd, hserve⟩ := ih h
      exact ⟨d, mem_cons_of_mem c hd, hserve⟩
    · exact ⟨c, mem_cons_self, (signIn_cons_of_not_skipped hc).mp h⟩

/-- **What the sign-in withstands.** -/
theorem signIn_iff {genuine : Connection} (hgenuine : serveOne genuine = .ok ⟨code, attempt.state⟩)
    {noise : List Connection}
    (hnoise : ∀ c ∈ noise, ∀ code', serveOne c ≠ .ok ⟨code', attempt.state⟩)
    (later : List Connection) :
    (signIn attempt (noise ++ genuine :: later) = .ok code ↔ ∀ c ∈ noise, Skipped c) ∧
      ∀ cs code', signIn attempt cs = .ok code' →
        ∃ c ∈ cs, serveOne c = .ok ⟨code', attempt.state⟩ := by
  refine ⟨?_, fun cs code' => mem_of_signIn⟩
  induction noise with
  | nil =>
    have hnot : ¬ Skipped genuine := by
      rintro ⟨path, hpath⟩
      cases hgenuine.symm.trans hpath
    exact iff_of_true ((signIn_cons_of_not_skipped hnot).mpr hgenuine) (by simp)
  | cons c noise ih =>
    obtain ⟨hc, hnoise⟩ := forall_mem_cons.mp hnoise
    rw [cons_append, forall_mem_cons]
    by_cases hskip : Skipped c
    · rw [signIn_cons_of_skipped hskip, ih hnoise, and_iff_right hskip]
    · rw [signIn_cons_of_not_skipped hskip]
      exact iff_of_false (hc code) fun h => hskip h.1

/-! ### Requests -/

def request (line : String) : Connection := ⟨ascii (line ++ " HTTP/1.1\r\n"), false⟩

def browserCallback : Connection := request "GET /callback?code=abc&state=xyz"

theorem favicon_withstood :
    signIn ⟨ascii "xyz"⟩ [request "GET /favicon.ico", browserCallback] = .ok (ascii "abc") := by
  refine (@signIn_iff ⟨ascii "xyz"⟩ _ browserCallback (by decide +kernel)
    [request "GET /favicon.ico"] ?_ []).1.mpr ?_
  · intro c hc code' h
    have hserve : serveOne (request "GET /favicon.ico") =
        .error (.callback (.wrongPath (ascii "/favicon.ico"))) := by decide +kernel
    rw [mem_singleton.mp hc, hserve] at h
    cases h
  · intro c hc
    rw [mem_singleton.mp hc]
    exact ⟨ascii "/favicon.ico", by decide +kernel⟩

/-- A request of another kind, or a callback with another state, ends the sign-in. -/
theorem noise_ends_signIn :
    signIn ⟨ascii "xyz"⟩ [request "POST /", browserCallback] = .error (.callback .malformed) ∧
      signIn ⟨ascii "xyz"⟩ [request "GET /callback?code=a&state=b", browserCallback] =
        .error (.callback .stateMismatch) := by
  decide +kernel

/-! ## The percent codec -/

/-- What decoding is for: a percent sign before two hexadecimal digits stands for their byte, and a
plus sign for a blank. -/
def unescaped : List UInt8 → List UInt8
  | b :: high :: low :: rest =>
    match if b = 0x25 then hexDigit high else none, hexDigit low with
    | some h, some l => (h * 16 + l) :: unescaped rest
    | _, _ => (if b = 0x2b then 0x20 else b) :: unescaped (high :: low :: rest)
  | bytes => bytes.map fun b => if b = 0x2b then 0x20 else b

/-- Every percent sign with two bytes after it is followed by whole characters, and not by a plus
sign and a hexadecimal digit. -/
def Clear : List UInt8 → Prop
  | b :: high :: low :: rest =>
    (b = 0x25 → isContinuation high = false ∧ rest.head?.any isContinuation = false ∧
      (high = 0x2b → hexDigit low = none)) ∧ Clear (high :: low :: rest)
  | _ => True

theorem Clear.tail {b : UInt8} {rest : List UInt8} (h : Clear (b :: rest)) : Clear rest := by
  match rest, h with
  | [], _ => trivial
  | [_], _ => trivial
  | _ :: _ :: _, h => exact h.2

theorem percentBytes_of_clear {s : List UInt8} (h : Clear s) :
    percentBytes s = some (unescaped s) := by
  fun_induction unescaped s with
  | case1 b high low rest hh hl hlow hhigh ih =>
    obtain ⟨rfl, hdigit⟩ : b = 0x25 ∧ hexDigit high = some hh := by
      by_cases hb : b = 0x25
      · exact ⟨hb, (if_pos hb).symm.trans hhigh⟩
      · exact absurd ((if_neg hb).symm.trans hhigh) (by simp)
    obtain ⟨hwhole, hnext, hplus⟩ := h.1 rfl
    have hne : high ≠ 0x2b := fun hp => by simp [hplus hp] at hlow
    have hradix : fromStrRadix16 high low = some (hh * 16 + hl) := by
      simp [fromStrRadix16, hne, hdigit, hlow]
    simp [percentBytes, hwhole, hnext, hradix, ih h.tail.tail.tail]
  | case2 b high low rest hnot ih =>
    rw [percentBytes, ih h.tail]
    split
    case isTrue hb =>
      obtain ⟨hwhole, hnext, hplus⟩ := h.1 hb
      have hradix : fromStrRadix16 high low = none := by
        by_cases hp : high = 0x2b
        · simp [fromStrRadix16, hp, hplus hp]
        cases hhigh : hexDigit high with
        | none => simp [fromStrRadix16, hp, hhigh]
        | some hh =>
          cases hlow : hexDigit low with
          | none => simp [fromStrRadix16, hp, hhigh, hlow]
          | some hl => exact (hnot hh hl (by simp [hb, hhigh]) hlow).elim
      simp [hb, hwhole, hnext, hradix]
    case isFalse hb => rfl
  | case3 s hshort => exact percentBytes.eq_2 s hshort

theorem percentBytes_cons {b : UInt8} (hb : b ≠ 0x25) (rest : List UInt8) :
    percentBytes (b :: rest) = (percentBytes rest).map ((if b = 0x2b then 0x20 else b) :: ·) := by
  match rest with
  | [] | [_] => rfl
  | _ :: _ :: _ => rw [percentBytes, if_neg hb]

/-- What one encoded byte is, whatever byte it is. -/
theorem percentEncode_byte (b : UInt8) :
    if isUnreserved b then b ≠ 0x25 ∧ b ≠ 0x2b ∧ isContinuation b = false
    else fromStrRadix16 (hexUpper (b / 16)) (hexUpper (b % 16)) = some b ∧
      isContinuation (hexUpper (b / 16)) = false := by
  have h : ∀ n < 256, if isUnreserved (.ofNat n) then
        .ofNat n ≠ (0x25 : UInt8) ∧ .ofNat n ≠ (0x2b : UInt8) ∧ isContinuation (.ofNat n) = false
      else fromStrRadix16 (hexUpper (.ofNat n / 16)) (hexUpper (.ofNat n % 16)) = some (.ofNat n) ∧
        isContinuation (hexUpper (.ofNat n / 16)) = false := by decide +kernel
  simpa only [UInt8.ofNat_toNat] using h b.toNat b.toNat_lt

theorem percentEncode_head (s : List UInt8) :
    (percentEncode s).head?.any isContinuation = false := by
  cases s with
  | nil => rfl
  | cons b s =>
    have hb := percentEncode_byte b
    rw [percentEncode, flatMap_cons]
    split at hb
    case isTrue h => simp [h, hb.2.2]
    case isFalse h => simp [h, isContinuation]

theorem percentBytes_percentEncode (s : List UInt8) : percentBytes (percentEncode s) = some s := by
  induction s with
  | nil => rfl
  | cons b s ih =>
    have hb := percentEncode_byte b
    have hhead := percentEncode_head s
    rw [percentEncode, flatMap_cons, ← percentEncode]
    split at hb
    case isTrue h =>
      rw [if_pos h, singleton_append, percentBytes_cons hb.1, ih, if_neg hb.2.1, Option.map_some]
    case isFalse h =>
      rw [if_neg h]
      simp [percentBytes, hb.1, hb.2, hhead, ih]

theorem utf8Scan_of_valid {fuel : Nat} {bytes : List UInt8} (hlen : bytes.length ≤ fuel)
    (h : (utf8Scan fuel bytes).2 = true) : (utf8Scan fuel bytes).1 = bytes := by
  induction fuel generalizing bytes with
  | zero => rw [length_eq_zero_iff.mp (Nat.le_zero.mp hlen)]; rfl
  | succ fuel ih =>
    cases bytes with
    | nil => rfl
    | cons first rest =>
      rw [utf8Scan] at h ⊢
      dsimp only at h ⊢
      split at h
      case isFalse => cases h
      case isTrue hwidth =>
        rw [if_pos hwidth, ih (by simp at hlen ⊢; omega) h, hwidth]
        obtain ⟨n, hn⟩ : ∃ n, utf8Width first = n + 1 := ⟨_, hwidth.symm.trans (Nat.add_comm 1 _)⟩
        simp [hn]

end Sentinel.SignIn
