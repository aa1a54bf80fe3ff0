import Sentinel.Lib.Runs
import Sentinel.Service.SpoolKey

/-!
# Enrollment and renewal

The service brings a machine's credential up to date when it starts (`enroll.rs`).
-/

open List Option

namespace Sentinel.Service

open Faults Runs

/-! ## Texts -/

def isWhitespace (c : Char) : Bool :=
  (9 ≤ c.toNat && c.toNat ≤ 13) || (0x2000 ≤ c.toNat && c.toNat ≤ 0x200A) ||
    c.toNat ∈ [0x20, 0x85, 0xA0, 0x1680, 0x2028, 0x2029, 0x202F, 0x205F, 0x3000]

def trimEndMatches (p : Char → Bool) (s : String) : String :=
  String.ofList (s.toList.reverse.dropWhile p).reverse

def trim (s : String) : String :=
  trimEndMatches isWhitespace (String.ofList (s.toList.dropWhile isWhitespace))

def contains (s pattern : String) : Bool :=
  (List.range (s.toList.length + 1)).any fun i => pattern.toList.isPrefixOf (s.toList.drop i)

/-! ## The decision -/

structure Platform where
  wrapper : KeyWrapper
  rfc3339 : String → Option Int

def notAfterMs (pf : Platform) (notAfter : String) : Option Int := pf.rfc3339 (trim notAfter)

def renewWhenRemainingMs : Int := 30 * 24 * 3600 * 1000

def needsRenewal (notAfterMs : Option Int) (nowMs : Int) : Bool :=
  match notAfterMs with
  | none => true
  | some exp => exp - nowMs ≤ renewWhenRemainingMs

inductive RenewalDecision where
  | notEnrolled
  | current
  | renewNow
  | renewBlockedNoToken
  deriving DecidableEq, Repr

def renewalDecision (identity : Option DeviceIdentity) (notAfterMs : Option Int) (nowMs : Int)
    (renewalTokenPresent : Bool) : RenewalDecision :=
  match identity with
  | none => .notEnrolled
  | some _ =>
    if !needsRenewal notAfterMs nowMs then .current
    else if renewalTokenPresent then .renewNow else .renewBlockedNoToken

section Decision

variable {identity : Option DeviceIdentity} {exp : Option Int} {now : Int} {token : Bool}

theorem isSome_of_current (h : renewalDecision identity exp now token = .current) :
    identity.isSome := by
  cases identity <;> simp_all [renewalDecision]

theorem isSome_of_blocked (h : renewalDecision identity exp now token = .renewBlockedNoToken) :
    identity.isSome := by
  cases identity <;> simp_all [renewalDecision]

theorem token_of_renewNow (h : renewalDecision identity exp now token = .renewNow) :
    token = true := by
  cases identity <;> cases token <;> grind [renewalDecision]

end Decision

/-! ## The exchange -/

structure EnrollRequest where
  enrollmentToken : String
  csrPem : String
  machineGuid : String
  hwFingerprint : String
  osBuild : String
  captureTier : String
  agentVersion : String
  deriving DecidableEq, Repr

structure EnrollResponse where
  deviceId : String
  certificatePem : String
  caChainPem : String
  notAfter : String
  deriving DecidableEq, Repr

inductive DeviceKeyError where
  | platform (error : String)
  | notFound
  | softwareKeyNotPermitted
  | io (error : String)
  | malformed (error : String)
  | sign (error : String)
  deriving DecidableEq, Repr

def DeviceKeyError.message : DeviceKeyError → String
  | .platform e => "the platform key store is unavailable: " ++ e
  | .notFound => "no device key exists yet"
  | .softwareKeyNotPermitted =>
    "a software device key is not permitted in this build: the private key would be " ++
    "a file on disk, which does not meet the non-exportable-key requirement (spec " ++
    "7.2). Build with --features dev-software-device-key if that is genuinely what " ++
    "you intend."
  | .io e => "device key file error: " ++ e
  | .malformed e => "the stored device key is not a usable P-256 key: " ++ e
  | .sign e => "signing failed: " ++ e

inductive EnrollError where
  | noToken
  | unsupportedTier (tier : Option String)
  | unreachable (error : String)
  | tokenUnusable
  | noCertificateAuthority
  | rejected (status : Nat) (code : String)
  | decode (error : String)
  | badCertificate
  | key (error : DeviceKeyError)
  | spoolKey (error : SpoolKeyError)
  | io (error : String)
  deriving DecidableEq, Repr

def debugTier : Option String → String
  | none => "None"
  | some t => "Some(\"" ++ t ++ "\")"

def EnrollError.message : EnrollError → String
  | .noToken =>
    "no enrollment token was supplied; the installer's ENROLLMENTTOKEN property was empty"
  | .unsupportedTier t =>
    "this machine's capture tier is " ++ debugTier t ++ ", which cannot be enrolled: only A " ++
    "and B support audio capture, and the installer is supposed to have refused"
  | .unreachable e => "could not reach the gateway: " ++ e
  | .tokenUnusable => "the enrollment token is invalid, expired, or already used"
  | .noCertificateAuthority => "the gateway has no certificate authority configured (503 no_ca)"
  | .rejected status code =>
    "the gateway rejected the enrollment request: " ++ toString status ++ " " ++ code
  | .decode e => "the gateway's response could not be decoded: " ++ e
  | .badCertificate => "the issued certificate is not a usable PEM certificate"
  | .key e => e.message
  | .spoolKey e => e.message
  | .io e => "writing the device credential failed: " ++ e

inductive KeyKind where
  | cng
  | software
  deriving DecidableEq, Repr

structure DeviceKey where
  kind : KeyKind
  buildCsrPem : String → Except DeviceKeyError String

structure MachineFacts where
  machineGuid : String
  hwFingerprint : String
  osBuild : String
  captureTier : Option String
  agentVersion : String
  deriving DecidableEq, Repr

structure Attempt where
  apiBase : String
  facts : MachineFacts
  nowMs : Int
  token : Option String
  key : DeviceKey
  post : String → EnrollRequest → Except EnrollError EnrollResponse
  unreadable : Bool := false
  budget : Budget := none
  ioError : String := ""
  spoolKey : KeyEnv

structure Enrolled where
  identity : DeviceIdentity
  keyKind : KeyKind
  spoolKey : String
  deriving DecidableEq, Repr

def certFile : String := "device.crt"
def chainFile : String := "ca-chain.crt"

def looksLikeCertificatePem (pem : String) : Bool :=
  contains pem "-----BEGIN CERTIFICATE-----" && contains pem "-----END CERTIFICATE-----"

def putCertificate (pem : String) (d : Dir) : Dir := { d with deviceCrt := some pem }
def putChain (pem : String) (d : Dir) : Dir := { d with caChainCrt := some pem }
def putIdentity (id : DeviceIdentity) (d : Dir) : Dir := { d with identityJson := some id }

def saveIdentity (e : EnrollError) (i : DeviceIdentity) :
    Fallible (Faulty Dir) EnrollError Unit := do
  createDirAll e
  writeTmp e
  rename e (putIdentity i)

theorem saveIdentity_performs (e : EnrollError) (i : DeviceIdentity) :
    Performs (saveIdentity e i) [id, id, putIdentity i] () :=
  (Performs.call e id).bind <| (Performs.call e id).bind <| Performs.call e (putIdentity i)

namespace Attempt

variable (a : Attempt)

def identity (response : EnrollResponse) : DeviceIdentity where
  deviceId := response.deviceId
  machineGuid := a.facts.machineGuid
  hwFingerprint := a.facts.hwFingerprint
  notAfter := response.notAfter
  certPath := certFile
  caChainPath := chainFile

def persist (response : EnrollResponse) : Fallible (Faulty Dir) EnrollError DeviceIdentity := do
  if !looksLikeCertificatePem response.certificatePem then throw .badCertificate
  createDirAll (.io a.ioError)
  writeAtomic (.io a.ioError) (putCertificate response.certificatePem)
  writeAtomic (.io a.ioError) (putChain response.caChainPem)
  saveIdentity (.io a.ioError) (a.identity response)
  return a.identity response

def request (token : String) : Except EnrollError EnrollRequest :=
  if (trim token).isEmpty then .error .noToken
  else
    match a.facts.captureTier.filter fun t => t = "A" || t = "B" with
    | none => .error (.unsupportedTier a.facts.captureTier)
    | some tier =>
      match a.key.buildCsrPem a.facts.machineGuid with
      | .error e => .error (.key e)
      | .ok csrPem =>
        .ok
          { enrollmentToken := trim token
            csrPem
            machineGuid := a.facts.machineGuid
            hwFingerprint := a.facts.hwFingerprint
            osBuild := a.facts.osBuild
            captureTier := tier
            agentVersion := a.facts.agentVersion }

def url : String := trimEndMatches (· = '/') a.apiBase ++ "/v1/devices/enroll"

def store (pf : Platform) (response : EnrollResponse) :
    Fallible (Faulty Dir) EnrollError Enrolled := do
  let identity ← a.persist response
  let spoolKey ← ExceptT.adapt .spoolKey (generateAndStore pf.wrapper a.spoolKey)
  return { identity, keyKind := a.key.kind, spoolKey }

def enroll (pf : Platform) (token : String) : Fallible (Faulty Dir) EnrollError Enrolled := do
  let request ← ofExcept (a.request token)
  let response ← ofExcept (a.post a.url request)
  a.store pf response

end Attempt

inductive EnsureOutcome where
  | alreadyEnrolled (deviceId notAfter : String)
  | enrolled (deviceId notAfter : String) (renewed : Bool) (keyKind : KeyKind)
  | notEnrolledNoToken
  | renewalBlockedNoToken (notAfter : String)
  | failed (error : String)
  deriving DecidableEq, Repr

namespace Attempt

variable (a : Attempt) (pf : Platform) (d : Dir)

def loadIdentity : Option DeviceIdentity := if a.unreadable then none else d.identityJson

def usableToken : Option String := (a.token.map trim).filter (!·.isEmpty)

def decision : RenewalDecision :=
  renewalDecision (a.loadIdentity d) ((a.loadIdentity d).bind fun id => notAfterMs pf id.notAfter)
    a.nowMs a.usableToken.isSome

def exchange (renewing : Bool) (token : String) : EnsureOutcome × Dir :=
  match exec (a.enroll pf token) ⟨d, a.budget⟩ with
  | (.ok out, s) =>
    (.enrolled out.identity.deviceId out.identity.notAfter renewing out.keyKind, s.state)
  | (.error e, s) => (.failed e.message, s.state)

theorem exchange_dir (renewing : Bool) (token : String) :
    (a.exchange pf d renewing token).2 = (exec (a.enroll pf token) ⟨d, a.budget⟩).2.state := by
  unfold exchange
  split <;> rename_i h <;> rw [h]

def ensureEnrolled : EnsureOutcome × Dir :=
  match h : a.decision pf d with
  | .current =>
    let id := (a.loadIdentity d).get (isSome_of_current h)
    (.alreadyEnrolled id.deviceId id.notAfter, d)
  | .notEnrolled =>
    match a.usableToken with
    | none => (.notEnrolledNoToken, d)
    | some token => a.exchange pf d false token
  | .renewBlockedNoToken =>
    (.renewalBlockedNoToken ((a.loadIdentity d).get (isSome_of_blocked h)).notAfter, d)
  | .renewNow => a.exchange pf d true (a.usableToken.get (token_of_renewNow h))

/-! ## What a run writes -/

variable {a pf d}

def persistEffects (a : Attempt) (response : EnrollResponse) : List (Dir → Dir) :=
  [id, id, putCertificate response.certificatePem, id, putChain response.caChainPem,
    id, id, putIdentity (a.identity response)]

variable {response : EnrollResponse}

theorem persist_refused (h : looksLikeCertificatePem response.certificatePem = false)
    (s : Faulty Dir) : exec (a.persist response) s = (.error .badCertificate, s) := by
  simp [persist, h]

theorem persist_performs (h : looksLikeCertificatePem response.certificatePem = true) :
    Performs (a.persist response) (a.persistEffects response) (a.identity response) := by
  simp only [persist, h, Bool.not_true, Bool.false_eq_true, if_false]
  exact (Performs.call _ id).bind <| (writeAtomic_performs _ _).bind <|
    (writeAtomic_performs _ _).bind <| (saveIdentity_performs _ _).bind <| Performs.pure _

theorem spoolKey_persistEffects :
    ∀ f ∈ a.persistEffects response, ∀ d, (f d).spoolKey = d.spoolKey := by
  simp [persistEffects, putCertificate, putChain, putIdentity]

theorem spoolKey_persist (response : EnrollResponse) (s : Faulty Dir) :
    (exec (a.persist response) s).2.state.spoolKey = s.state.spoolKey := by
  cases h : looksLikeCertificatePem response.certificatePem with
  | false => rw [persist_refused h]
  | true => exact (persist_performs h).keeps spoolKey_persistEffects s

theorem store_performs {blob : List UInt8}
    (hpem : looksLikeCertificatePem response.certificatePem = true)
    (hblob : a.spoolKey.blob pf.wrapper = .ok blob) :
    Performs (a.store pf response) ((a.persistEffects response ++ [id, id]) ++ [storeKey blob])
      ⟨a.identity response, a.key.kind, toHex a.spoolKey.material.toList⟩ :=
  (persist_performs hpem).bind <| ((generateAndStore_performs hblob).adapt _).bind <|
    Performs.pure _

theorem spoolKey_store_of_refused (h : looksLikeCertificatePem response.certificatePem = false ∨
      ∃ e, a.spoolKey.blob pf.wrapper = .error e) (s : Faulty Dir) :
    (exec (a.store pf response) s).2.state.spoolKey = s.state.spoolKey := by
  obtain hpem | ⟨e, hblob⟩ := h
  · rw [store, exec_bind, persist_refused hpem]
  refine bind_keeps (·.state.spoolKey) (spoolKey_persist response) (fun i s => ?_) s
  rw [exec_bind, exec_adapt, generateAndStore_refused hblob]
  rfl

def answer (a : Attempt) (token : String) : Option EnrollResponse :=
  (a.request token).toOption.bind fun request => (a.post a.url request).toOption

theorem exec_enroll_of_answer {token : String} (h : a.answer token = some response)
    (s : Faulty Dir) : exec (a.enroll pf token) s = exec (a.store pf response) s := by
  unfold answer at h
  unfold enroll
  cases hreq : a.request token with
  | error e => simp [hreq, Except.toOption] at h
  | ok request =>
    cases hpost : a.post a.url request with
    | error e => simp [hreq, hpost, Except.toOption] at h
    | ok r =>
      obtain rfl : r = response := by simpa [hreq, hpost, Except.toOption] using h
      simp [exec_bind, hpost]

theorem exec_enroll_of_no_answer {token : String} (h : a.answer token = none) (s : Faulty Dir) :
    (exec (a.enroll pf token) s).2 = s := by
  unfold answer at h
  unfold enroll
  cases hreq : a.request token with
  | error e => simp [exec_bind]
  | ok request =>
    cases hpost : a.post a.url request with
    | error e => simp [exec_bind, hpost]
    | ok r => simp [hreq, hpost, Except.toOption] at h

/-! ## The key file after a run -/

def Current (a : Attempt) (pf : Platform) (d : Dir) : Prop :=
  ∃ id ∈ a.loadIdentity d, needsRenewal (notAfterMs pf id.notAfter) a.nowMs = false

structure Completes (a : Attempt) (pf : Platform) (token : String) : Prop where
  issued : ∃ response ∈ a.answer token, looksLikeCertificatePem response.certificatePem = true
  wrapped : (a.spoolKey.blob pf.wrapper).toOption.isSome = true
  stored : a.budget.Covers 11

def ReplacesKey (a : Attempt) (pf : Platform) (d : Dir) : Prop :=
  ¬ a.Current pf d ∧ ∃ token ∈ a.usableToken, a.Completes pf token

instance (a : Attempt) (pf : Platform) (d : Dir) : Decidable (a.Current pf d) :=
  inferInstanceAs (Decidable (∃ _ ∈ _, _))

instance (a : Attempt) (pf : Platform) (token : String) : Decidable (a.Completes pf token) :=
  decidable_of_iff
    ((∃ response ∈ a.answer token, looksLikeCertificatePem response.certificatePem = true) ∧
      (a.spoolKey.blob pf.wrapper).toOption.isSome = true ∧ a.budget.Covers 11)
    ⟨fun h => ⟨h.1, h.2.1, h.2.2⟩, fun h => ⟨h.1, h.2, h.3⟩⟩

instance (a : Attempt) (pf : Platform) (d : Dir) : Decidable (a.ReplacesKey pf d) :=
  inferInstanceAs (Decidable (¬ _ ∧ ∃ _ ∈ _, _))

theorem spoolKey_enroll (a : Attempt) (pf : Platform) (d : Dir) (token : String) :
    (exec (a.enroll pf token) ⟨d, a.budget⟩).2.state.spoolKey =
      if a.Completes pf token then (a.spoolKey.blob pf.wrapper).toOption else d.spoolKey := by
  cases hanswer : a.answer token with
  | none =>
    rw [exec_enroll_of_no_answer hanswer, if_neg]
    rintro ⟨⟨response, hmem, -⟩, -, -⟩
    simp [hanswer] at hmem
  | some response =>
    rw [exec_enroll_of_answer hanswer]
    cases hpem : looksLikeCertificatePem response.certificatePem with
    | false =>
      rw [spoolKey_store_of_refused (.inl hpem), if_neg]
      rintro ⟨⟨r, hmem, hr⟩, -, -⟩
      obtain rfl : response = r := by simpa [hanswer] using hmem
      exact absurd hr (by simp [hpem])
    | true =>
      cases hblob : a.spoolKey.blob pf.wrapper with
      | error e =>
        rw [spoolKey_store_of_refused (.inr ⟨e, hblob⟩), if_neg]
        rintro ⟨-, hwrap, -⟩
        simp [hblob, Except.toOption] at hwrap
      | ok blob =>
        have hkeeps : ∀ f ∈ a.persistEffects response ++ [id, id],
            ∀ d, (f d).spoolKey = d.spoolKey := by
          simpa [or_imp, forall_and] using spoolKey_persistEffects
        rw [(store_performs hpem hblob).commits hkeeps]
        refine if_congr ⟨fun h => ⟨⟨response, by simp [hanswer], hpem⟩, ?_, h⟩, (·.stored)⟩ rfl rfl
        simp [hblob, Except.toOption]

theorem decision_spec (a : Attempt) (pf : Platform) (d : Dir) : match a.decision pf d with
    | .current => a.Current pf d
    | .notEnrolled => ¬ a.Current pf d
    | .renewBlockedNoToken => ¬ a.Current pf d ∧ a.usableToken = none
    | .renewNow => ¬ a.Current pf d ∧ a.usableToken.isSome = true := by
  unfold decision Current renewalDecision
  cases a.loadIdentity d with
  | none => simp
  | some id =>
    cases hdue : needsRenewal (notAfterMs pf id.notAfter) a.nowMs <;>
      cases htoken : a.usableToken <;> simp [hdue]

theorem ensureEnrolled_dir (a : Attempt) (pf : Platform) (d : Dir) : (a.ensureEnrolled pf d).2 =
      if a.Current pf d then d else match a.usableToken with
        | none => d
        | some token => (exec (a.enroll pf token) ⟨d, a.budget⟩).2.state := by
  have hspec := a.decision_spec pf d
  unfold ensureEnrolled
  split <;> rename_i hd <;> simp only [hd] at hspec
  case h_1 => rw [if_pos hspec]
  case h_2 =>
    rw [if_neg hspec]
    cases a.usableToken with
    | none => rfl
    | some token => exact exchange_dir a pf d false token
  case h_3 => rw [if_neg hspec.1, hspec.2]
  case h_4 =>
    obtain ⟨token, htoken⟩ := isSome_iff_exists.mp hspec.2
    rw [if_neg hspec.1, exchange_dir]
    simp only [htoken, get_some]

theorem spoolKey_ensureEnrolled (a : Attempt) (pf : Platform) (d : Dir) :
    (a.ensureEnrolled pf d).2.spoolKey =
      if a.ReplacesKey pf d then (a.spoolKey.blob pf.wrapper).toOption else d.spoolKey := by
  rw [ensureEnrolled_dir]
  by_cases hcurrent : a.Current pf d
  · rw [if_pos hcurrent, if_neg fun h => h.1 hcurrent]
  rw [if_neg hcurrent]
  cases htoken : a.usableToken with
  | none =>
    rw [if_neg]
    rintro ⟨-, token, hmem, -⟩
    simp [htoken] at hmem
  | some token =>
    rw [spoolKey_enroll]
    refine if_congr ⟨fun h => ⟨hcurrent, token, by simp [htoken], h⟩, ?_⟩ rfl rfl
    rintro ⟨-, token', hmem, h⟩
    obtain rfl : token = token' := by simpa [htoken] using hmem
    exact h

end Attempt

/-! ## Runs on one machine -/

structure Desktop where
  dir : Dir
  resolved : List String := []
  deriving DecidableEq, Repr

inductive Event where
  | ensureEnrolled (a : Attempt)
  | resolve (env : ResolveEnv)

namespace Desktop

variable {pf : Platform} {m : Desktop}

def step (pf : Platform) (m : Desktop) : Event → Desktop
  | .ensureEnrolled a => { m with dir := (a.ensureEnrolled pf m.dir).2 }
  | .resolve env =>
    match Service.resolve pf.wrapper env m.dir with
    | .ok key => { m with resolved := m.resolved ++ [key] }
    | .error _ => m

def Stable (m : Desktop) : Prop := m.resolved.Pairwise (· = ·)

instance (m : Desktop) : Decidable m.Stable := inferInstanceAs (Decidable (List.Pairwise _ _))

def LeavesKey (pf : Platform) (m : Desktop) : Event → Prop
  | .ensureEnrolled a => m.resolved ≠ [] → ¬ a.ReplacesKey pf m.dir
  | .resolve _ => True

instance (pf : Platform) (m : Desktop) : ∀ e, Decidable (m.LeavesKey pf e)
  | .ensureEnrolled _ => inferInstanceAs (Decidable (_ → ¬ _))
  | .resolve _ => .isTrue trivial

def Readable (pf : Platform) (m : Desktop) : Prop :=
  ∀ k ∈ m.resolved, keyIn pf.wrapper m.dir = some k

theorem Readable.stable (h : m.Readable pf) : m.Stable :=
  pairwise_of_forall_mem_list fun k hk k' hk' =>
    some.inj ((h k hk).symm.trans (h k' hk'))

theorem Readable.step (h : m.Readable pf) {e : Event} (he : m.LeavesKey pf e) :
    (m.step pf e).Readable pf := by
  cases e with
  | ensureEnrolled a =>
    intro k hk
    have hkey : (a.ensureEnrolled pf m.dir).2.spoolKey = m.dir.spoolKey := by
      rw [a.spoolKey_ensureEnrolled, if_neg (he (ne_nil_of_mem hk))]
    exact (keyIn_congr hkey).trans (h k hk)
  | resolve env =>
    cases hres : Service.resolve pf.wrapper env m.dir with
    | error e => simpa only [Desktop.step, hres] using h
    | ok key =>
      intro k hk
      obtain hk | rfl : k ∈ m.resolved ∨ k = key := by simpa [Desktop.step, hres] using hk
      · simpa only [Desktop.step, hres] using h k hk
      · simpa only [Desktop.step, hres] using keyIn_of_resolve hres

/-- **The spool key is stable while it is left alone.** -/
theorem key_stable (pf : Platform) (d : Dir) (es : List Event)
    (h : Along (step pf) (LeavesKey pf) ⟨d, []⟩ es) : (run (step pf) ⟨d, []⟩ es).Stable :=
  (h.invariant (I := Readable pf) nofun fun _ _ hm he => hm.step he).stable

theorem not_stable_of_replaces {a : Attempt} {k : String} (hk : k ∈ m.resolved)
    (ha : a.ReplacesKey pf m.dir) (hfresh : toHex a.spoolKey.material.toList ≠ k) :
    ¬ (run (step pf) m [.ensureEnrolled a, .resolve {}]).Stable := by
  obtain ⟨blob, hblob⟩ : ∃ blob, a.spoolKey.blob pf.wrapper = .ok blob := by
    obtain ⟨-, token, -, -, hwrapped, -⟩ := ha
    cases hblob : a.spoolKey.blob pf.wrapper with
    | error e => simp [hblob, Except.toOption] at hwrapped
    | ok blob => exact ⟨blob, rfl⟩
  have hfile : (a.ensureEnrolled pf m.dir).2.spoolKey = some blob := by
    rw [a.spoolKey_ensureEnrolled, if_pos ha, hblob]
    rfl
  intro hstable
  simp only [run_cons, run_nil, step, resolve_stored hblob hfile, Stable, pairwise_append]
    at hstable
  exact hfresh (hstable.2.2 k hk _ mem_cons_self).symm

/-! ### A machine and its renewal -/

def bench : Platform where
  wrapper := plaintextWrapper
  rfc3339 s :=
    if s = "1971-01-01T00:00:00Z" then some 31536000000
    else if s = "1972-01-01T00:00:00Z" then some 63072000000
    else none

def benchAttempt (day : Nat) (token notAfter : String) (fill : UInt8) : Attempt where
  apiBase := "gateway/"
  facts := ⟨"guid-1", "fingerprint", "22631", some "A", "1.0.0"⟩
  nowMs := day * 86400000
  token := some token
  key := ⟨.cng, fun _ => .ok "csr"⟩
  post _ _ := .ok ⟨"device-1", "-----BEGIN CERTIFICATE-----\n-----END CERTIFICATE-----\n", "chain",
    notAfter⟩
  spoolKey := { material := Vector.replicate keyBytes fill }

def keptRun : List Event :=
  let first := benchAttempt 0 "token-1" "1971-01-01T00:00:00Z" 1
  let renewal := benchAttempt 340 "token-2" "1972-01-01T00:00:00Z" 2
  [.ensureEnrolled first, .resolve {},
    .ensureEnrolled { renewal with nowMs := 100 * 86400000 },
    .ensureEnrolled { renewal with token := some " " },
    .ensureEnrolled { renewal with post := fun _ _ => .error (.unreachable "timed out") },
    .ensureEnrolled { renewal with budget := some 10 }, .resolve {}]

theorem keptRun_stable : (run (step bench) ⟨{}, []⟩ keptRun).Stable ∧
    (run (step bench) ⟨{}, []⟩ keptRun).resolved.length = 2 :=
  ⟨key_stable bench {} keptRun (by decide +kernel), by decide +kernel⟩

def renewedRun : List Event :=
  [.ensureEnrolled (benchAttempt 0 "token-1" "1971-01-01T00:00:00Z" 1), .resolve {},
    .ensureEnrolled (benchAttempt 340 "token-2" "1972-01-01T00:00:00Z" 2), .resolve {}]

/-- The key an agent reads after the renewal is not the one its spool was written under. -/
theorem renewedRun_loses_key : ¬ (run (step bench) ⟨{}, []⟩ renewedRun).Stable := by
  decide +kernel

end Desktop

end Sentinel.Service
