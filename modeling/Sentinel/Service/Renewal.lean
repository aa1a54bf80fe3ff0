import Sentinel.Lib.Table
import Sentinel.Service.Repair

/-!
# A renewal that fails

The gateway's row for a device has the fingerprint of its certificate, and the machine has the
certificate, which is of use as long as the two agree.
-/

open Option

open Table

open List

namespace Sentinel.Service

open Faults

/-! ## The gateway's tables -/

structure EnrollmentToken where
  tenantId : String
  expiresAt : Int
  consumedAt : Option Int := none

inductive DeviceStatus where
  | active
  | revoked
  deriving DecidableEq, Repr

structure DeviceRow where
  id : String
  hwFingerprint : String
  certFingerprint : String
  certNotAfter : Int
  osBuild : String
  captureTier : String
  agentVersion : String
  status : DeviceStatus := .active
  revokedAt : Option Int := none
  revokedReason : Option String := none

structure Registry where
  tokens : Table String EnrollmentToken := ∅
  devices : Table (String × String) DeviceRow := ∅
  unique : ∀ r ∈ devices.rows, ∀ r' ∈ devices.rows,
    r.2.certFingerprint = r'.2.certFingerprint → r.1 = r'.1
  issued : List (String × String) := []

namespace Registry

def consumeEnrollmentToken (r : Registry) (tokenHash : String) (now : Int) :
    Registry × Option String :=
  match r.tokens.get? tokenHash with
  | none => (r, none)
  | some t =>
    if t.consumedAt = none ∧ now < t.expiresAt then
      ({ r with tokens := r.tokens.put tokenHash { t with consumedAt := some now } },
        some t.tenantId)
    else (r, none)

def Admits (r : Registry) (key : String × String) (fingerprint : String) : Prop :=
  ∀ row ∈ r.devices.rows, row.2.certFingerprint = fingerprint → row.1 = key

instance (r : Registry) (key : String × String) (fingerprint : String) :
    Decidable (r.Admits key fingerprint) :=
  inferInstanceAs (Decidable (∀ _ ∈ _, _))

def registerDevice (r : Registry) (key : String × String) (row : DeviceRow) :
    Option (Registry × String) :=
  if h : r.Admits key row.certFingerprint then
    let id := ((r.devices.get? key).map (·.id)).getD row.id
    some
      ({ r with
          devices := r.devices.put key { row with id }
          issued := (row.certFingerprint, id) :: r.issued
          unique := by
            intro a ha b hb hfp
            rcases Table.mem_rows_put.mp ha with rfl | ⟨ha, hak⟩ <;>
              rcases Table.mem_rows_put.mp hb with rfl | ⟨hb, hbk⟩
            · rfl
            · exact (h b hb hfp.symm).symm
            · exact h a ha hfp
            · exact r.unique a ha b hb hfp },
        id)
  else none

def deviceByCert (r : Registry) (fingerprint : String) : Option DeviceRow :=
  (r.devices.rows.find? fun row => row.2.certFingerprint = fingerprint).map Prod.snd

variable {r : Registry} {row : DeviceRow}

theorem deviceByCert_eq_some {fingerprint : String} : r.deviceByCert fingerprint = some row ↔
      ∃ key, r.devices.get? key = some row ∧ row.certFingerprint = fingerprint := by
  constructor
  · intro h
    obtain ⟨⟨key, row'⟩, hfind, rfl⟩ := map_eq_some_iff.mp h
    exact ⟨key, get?_eq_some.mpr (mem_of_find?_eq_some hfind), by simpa using find?_some hfind⟩
  rintro ⟨key, hget, hfp⟩
  have hmem := get?_eq_some.mp hget
  cases hfind : r.devices.rows.find? fun row => row.2.certFingerprint = fingerprint with
  | none =>
    have hne := find?_eq_none.mp hfind _ hmem
    simp [hfp] at hne
  | some found =>
    have hfound : found.2.certFingerprint = fingerprint := by simpa using find?_some hfind
    have hkey : found.1 = key :=
      r.unique found (mem_of_find?_eq_some hfind) _ hmem (hfound.trans hfp.symm)
    have hrow : r.devices.get? key = some found.2 :=
      get?_eq_some.mpr (hkey ▸ mem_of_find?_eq_some hfind)
    rw [deviceByCert, hfind, map_some, ← hget, hrow]

def realId (r : Registry) (key : String × String) (fresh : String) : String :=
  ((r.devices.get? key).map (·.id)).getD fresh

theorem registerDevice_of_admits {key : String × String} (h : r.Admits key row.certFingerprint) :
    ∃ r', r.registerDevice key row = some (r', r.realId key row.id) ∧
      r'.devices = r.devices.put key { row with id := r.realId key row.id } ∧
      r'.issued = (row.certFingerprint, r.realId key row.id) :: r.issued := by
  refine ⟨_, dif_pos h, rfl, rfl⟩

theorem consumeEnrollmentToken_devices (r : Registry) (tokenHash : String) (now : Int) :
    (r.consumeEnrollmentToken tokenHash now).1.devices = r.devices ∧
      (r.consumeEnrollmentToken tokenHash now).1.issued = r.issued := by
  unfold consumeEnrollmentToken
  split
  · exact ⟨rfl, rfl⟩
  · split <;> exact ⟨rfl, rfl⟩

end Registry

/-! ## The handler -/

inductive Trouble where
  | none
  | request
  | consume (committed : Bool)
  | register (committed : Bool)
  | response
  deriving DecidableEq, Repr

structure Certified where
  certificatePem : String
  caChainPem : String
  fingerprint : String
  deriving DecidableEq, Repr

structure Gateway where
  configured : Bool := true
  now : Int
  hashEnrollmentToken : String → String
  parseAndVerifyCsr : String → Bool
  sign : (csrPem tenantId deviceId : String) → (notAfter : Int) → Option (String × String)
  fingerprintOfPem : String → Option String
  addYear : Int → Int
  formatTime : Int → String
  newDeviceId : String
  rowId : String
  unusableStatus : Nat := 401

namespace Gateway

variable (gw : Gateway)

def certify (body : EnrollRequest) (tenantId : String) : Option Certified := do
  let (certificatePem, caChainPem) ←
    gw.sign body.csrPem tenantId gw.newDeviceId (gw.addYear gw.now)
  let fingerprint ← gw.fingerprintOfPem certificatePem
  return { certificatePem, caChainPem, fingerprint }

def row (body : EnrollRequest) (cert : Certified) : DeviceRow where
  id := gw.rowId
  hwFingerprint := body.hwFingerprint
  certFingerprint := cert.fingerprint
  certNotAfter := gw.addYear gw.now
  osBuild := body.osBuild
  captureTier := body.captureTier
  agentVersion := body.agentVersion

def Accepts (body : EnrollRequest) : Prop :=
  gw.configured = true ∧
    (body.enrollmentToken ≠ "" ∧ body.csrPem ≠ "" ∧ body.machineGuid ≠ "" ∧
      body.hwFingerprint ≠ "") ∧
    (body.captureTier = "A" ∨ body.captureTier = "B") ∧ gw.parseAndVerifyCsr body.csrPem = true

instance (body : EnrollRequest) : Decidable (gw.Accepts body) :=
  inferInstanceAs (Decidable (_ ∧ _))

def refusal : Nat := if gw.configured then 400 else 503

def enrollDevice (trouble : Trouble) (body : EnrollRequest) (r : Registry) :
    Registry × Except Nat EnrollResponse :=
  if ¬ gw.Accepts body then (r, .error gw.refusal)
  else if trouble = .consume false then (r, .error 500)
  else
    let claimed := r.consumeEnrollmentToken (gw.hashEnrollmentToken body.enrollmentToken) gw.now
    if trouble = .consume true then (claimed.1, .error 500)
    else
      match claimed.2 with
      | none => (claimed.1, .error gw.unusableStatus)
      | some tenantId =>
        -- The token is spent from here on, whatever happens.
        match gw.certify body tenantId with
        | none => (claimed.1, .error 500)
        | some cert =>
          if trouble = .register false then (claimed.1, .error 500)
          else
            match claimed.1.registerDevice (tenantId, body.machineGuid) (gw.row body cert) with
            | none => (claimed.1, .error 500)
            | some (registered, realId) =>
              if trouble = .register true then (registered, .error 500)
              else
                (registered, .ok
                  { deviceId := realId
                    certificatePem := cert.certificatePem
                    caChainPem := cert.caChainPem
                    notAfter := gw.formatTime (gw.addYear gw.now) })

def clientError : Nat → EnrollError
  | 401 => .tokenUnusable
  | 503 => .noCertificateAuthority
  | status => .rejected status ""

def exchange (trouble : Trouble) (body : EnrollRequest) (r : Registry) :
    Registry × Except EnrollError EnrollResponse :=
  match trouble with
  | .request => (r, .error (.unreachable "the request was lost"))
  | .response => ((gw.enrollDevice .response body r).1, .error (.unreachable "the answer was lost"))
  | trouble =>
    ((gw.enrollDevice trouble body r).1, (gw.enrollDevice trouble body r).2.mapError clientError)

end Gateway

/-! ## What an exchange does to the registry -/

namespace Gateway

structure Registers (gw : Gateway) (trouble : Trouble) (body : EnrollRequest) (r : Registry)
    (tenantId : String) (cert : Certified) : Prop where
  reached : trouble ≠ .request ∧ (∀ c, trouble ≠ .consume c) ∧ trouble ≠ .register false
  accepts : gw.Accepts body
  token : (r.consumeEnrollmentToken (gw.hashEnrollmentToken body.enrollmentToken) gw.now).2 =
    some tenantId
  certified : gw.certify body tenantId = some cert
  admits : r.Admits (tenantId, body.machineGuid) cert.fingerprint

variable {gw : Gateway} {trouble : Trouble} {body : EnrollRequest} {r : Registry}
  {tenantId : String} {cert : Certified}

def answer (gw : Gateway) (cert : Certified) (id : String) : EnrollResponse where
  deviceId := id
  certificatePem := cert.certificatePem
  caChainPem := cert.caChainPem
  notAfter := gw.formatTime (gw.addYear gw.now)

structure Registered (gw : Gateway) (body : EnrollRequest) (tenantId : String) (cert : Certified)
    (r r' : Registry) : Prop where
  devices : r'.devices = r.devices.put (tenantId, body.machineGuid)
    { gw.row body cert with id := r.realId (tenantId, body.machineGuid) gw.rowId }
  issued : r'.issued =
    (cert.fingerprint, r.realId (tenantId, body.machineGuid) gw.rowId) :: r.issued

structure Unmoved (r r' : Registry) : Prop where
  devices : r'.devices = r.devices
  issued : r'.issued = r.issued

theorem enrollDevice_of_registers (h : gw.Registers trouble body r tenantId cert) :
    Registered gw body tenantId cert r (gw.enrollDevice trouble body r).1 ∧
      (trouble ≠ .register true → (gw.enrollDevice trouble body r).2 =
        .ok (gw.answer cert (r.realId (tenantId, body.machineGuid) gw.rowId))) ∧
      (trouble = .register true → (gw.enrollDevice trouble body r).2 = .error 500) := by
  obtain ⟨⟨-, hconsume, hregister⟩, haccepts, htoken, hcertified, hadmits⟩ := h
  obtain ⟨hdevices, hissued⟩ := r.consumeEnrollmentToken_devices
    (gw.hashEnrollmentToken body.enrollmentToken) gw.now
  have hkept : (r.consumeEnrollmentToken (gw.hashEnrollmentToken body.enrollmentToken)
      gw.now).1.Admits (tenantId, body.machineGuid) (gw.row body cert).certFingerprint := by
    unfold Registry.Admits
    rwa [hdevices]
  obtain ⟨r', hr', hd', hi'⟩ := Registry.registerDevice_of_admits hkept
  have hid : (r.consumeEnrollmentToken (gw.hashEnrollmentToken body.enrollmentToken)
      gw.now).1.realId
      (tenantId, body.machineGuid) (gw.row body cert).id =
      r.realId (tenantId, body.machineGuid) gw.rowId := by
    unfold Registry.realId
    rw [hdevices]
    rfl
  rw [hid] at hr' hd' hi'
  rw [hdevices] at hd'
  rw [hissued] at hi'
  have heval : gw.enrollDevice trouble body r = if trouble = .register true then (r', .error 500)
      else (r', .ok (gw.answer cert (r.realId (tenantId, body.machineGuid) gw.rowId))) := by
    simp only [enrollDevice, if_neg (not_not_intro haccepts), if_neg (hconsume false),
      if_neg (hconsume true), htoken, hcertified, if_neg hregister, hr']
    rfl
  rw [heval]
  by_cases htrue : trouble = .register true
  · rw [if_pos htrue]
    exact ⟨⟨hd', hi'⟩, fun hne => absurd htrue hne, fun _ => rfl⟩
  rw [if_neg htrue]
  exact ⟨⟨hd', hi'⟩, fun _ => rfl, fun h => absurd h htrue⟩

theorem enrollDevice_of_not_registers (hreached : trouble ≠ .request)
    (h : ∀ tenantId cert, ¬ gw.Registers trouble body r tenantId cert) :
    Unmoved r (gw.enrollDevice trouble body r).1 ∧
      ∃ status, (gw.enrollDevice trouble body r).2 = .error status := by
  have hclaimed : Unmoved r (r.consumeEnrollmentToken
      (gw.hashEnrollmentToken body.enrollmentToken) gw.now).1 :=
    ⟨(r.consumeEnrollmentToken_devices _ _).1, (r.consumeEnrollmentToken_devices _ _).2⟩
  unfold enrollDevice
  dsimp only
  split
  · exact ⟨⟨rfl, rfl⟩, _, rfl⟩
  rename_i haccepts
  split
  · exact ⟨⟨rfl, rfl⟩, _, rfl⟩
  split
  · exact ⟨hclaimed, _, rfl⟩
  split
  · exact ⟨hclaimed, _, rfl⟩
  rename_i tenantId htoken
  split
  · exact ⟨hclaimed, _, rfl⟩
  rename_i cert hcertified
  split
  · exact ⟨hclaimed, _, rfl⟩
  rename_i hregister
  have hnot : ¬ (r.consumeEnrollmentToken (gw.hashEnrollmentToken body.enrollmentToken)
      gw.now).1.Admits (tenantId, body.machineGuid) (gw.row body cert).certFingerprint := by
    intro hadmits
    unfold Registry.Admits at hadmits
    rw [hclaimed.devices] at hadmits
    refine h tenantId cert ⟨⟨hreached, fun c => ?_, hregister⟩, not_not.mp haccepts, htoken,
      hcertified, hadmits⟩
    cases c <;> assumption
  rw [Registry.registerDevice, dif_neg hnot]
  exact ⟨hclaimed, _, rfl⟩

theorem exchange_of_registers (h : gw.Registers trouble body r tenantId cert) :
    Registered gw body tenantId cert r (gw.exchange trouble body r).1 ∧
      (trouble = .none → (gw.exchange trouble body r).2 =
        .ok (gw.answer cert (r.realId (tenantId, body.machineGuid) gw.rowId))) ∧
      (trouble ≠ .none → ∃ e, (gw.exchange trouble body r).2 = .error e) := by
  obtain ⟨hregistered, hok, herror⟩ := enrollDevice_of_registers h
  obtain ⟨hrequest, hconsume, hregister⟩ := h.reached
  cases trouble with
  | none =>
    refine ⟨hregistered, fun _ => ?_, fun hne => absurd rfl hne⟩
    rw [exchange, hok nofun]
    · rfl
    all_goals nofun
  | request => exact absurd rfl hrequest
  | consume c => exact absurd rfl (hconsume c)
  | register c =>
    cases c with
    | false => exact absurd rfl hregister
    | true =>
      refine ⟨hregistered, nofun, fun _ => ⟨clientError 500, ?_⟩⟩
      rw [exchange, herror rfl]
      · rfl
      all_goals nofun
  | response => exact ⟨hregistered, nofun, fun _ => ⟨_, rfl⟩⟩

theorem exchange_of_not_registers
    (h : ∀ tenantId cert, ¬ gw.Registers trouble body r tenantId cert) :
    Unmoved r (gw.exchange trouble body r).1 ∧ ∃ e, (gw.exchange trouble body r).2 = .error e := by
  by_cases hreached : trouble = .request
  · rw [hreached]
    exact ⟨⟨rfl, rfl⟩, _, rfl⟩
  obtain ⟨hunmoved, status, herror⟩ := enrollDevice_of_not_registers hreached h
  cases trouble with
  | request => exact absurd rfl hreached
  | response => exact ⟨hunmoved, _, rfl⟩
  | none | consume c | register c =>
    refine ⟨hunmoved, clientError status, ?_⟩
    rw [exchange, herror]
    · rfl
    all_goals nofun

end Gateway

/-! ## What a run leaves on disk, and what it reports -/

namespace Attempt

variable {a : Attempt} {pf : Platform} {d : Dir} {token : String} {response : EnrollResponse}

theorem deviceCrt_store (hpem : looksLikeCertificatePem response.certificatePem = true)
    (s : Faulty Dir) :
    (exec (a.store pf response) s).2.state.deviceCrt =
      if s.budget.Covers 3 then some response.certificatePem else s.state.deviceCrt := by
  have hbefore : ∀ f ∈ [id, id], ∀ d, Dir.deviceCrt (f d) = Dir.deviceCrt d := by simp
  have hafter : ∀ f ∈ [id, putChain response.caChainPem, id, id,
      putIdentity (a.identity response)], ∀ d, Dir.deviceCrt (f d) = Dir.deviceCrt d := by
    simp [putChain, putIdentity]
  have hcommits := (persist_performs (a := a) hpem).commits_within hbefore hafter s
  exact (congrArg Prod.fst (a.files_store pf response s)).trans hcommits

theorem ensureEnrolled_failed (hcurrent : ¬ a.Current pf d) (htoken : a.usableToken = some token)
    {e : EnrollError} (h : (exec (a.enroll pf token) ⟨d, a.budget⟩).1 = .error e) :
    (a.ensureEnrolled pf d).1 = .failed e.message := by
  have hspec := a.decision_spec pf d
  have hexchange : ∀ renewing, (a.exchange pf d renewing token).1 = .failed e.message := by
    intro renewing
    unfold exchange
    split <;> rename_i hx <;> rw [hx] at h <;> cases h
    rfl
  unfold ensureEnrolled
  split <;> rename_i hd <;> simp only [hd] at hspec
  case h_1 => exact absurd hspec hcurrent
  case h_2 =>
    rw [htoken]
    exact hexchange false
  case h_3 => exact absurd hspec.2 (by simp [htoken])
  case h_4 =>
    simp only [htoken, get_some]
    exact hexchange true

theorem store_fails (d : Dir) (h : ¬ (looksLikeCertificatePem response.certificatePem = true ∧
    a.budget.Covers 3)) : ∃ e, (exec (a.store pf response) ⟨d, a.budget⟩).1 = .error e := by
  have hpersist : ∃ e s, exec (a.persist response) ⟨d, a.budget⟩ = (.error e, s) := by
    cases hpem : looksLikeCertificatePem response.certificatePem with
    | false => exact ⟨_, _, persist_refused hpem _⟩
    | true =>
      have hshort : ¬ a.budget.Covers 3 := fun hcov => h ⟨hpem, hcov⟩
      cases hb : a.budget with
      | none =>
        rw [hb] at hshort
        exact absurd (Budget.covers_none 3) hshort
      | some k =>
        rw [hb, Budget.covers_some] at hshort
        obtain ⟨e, he⟩ := (persist_performs (a := a) hpem).short d k
          (by simp only [persistEffects, length_cons, length_nil]; omega)
        exact ⟨e, _, he⟩
  obtain ⟨e, s, hs⟩ := hpersist
  exact ⟨e, by rw [store, exec_bind, hs]⟩

def against (a : Attempt) (gw : Gateway) (trouble : Trouble) (r : Registry) : Attempt :=
  { a with post := fun _ body => (gw.exchange trouble body r).2 }

section Against

variable (gw : Gateway) (trouble : Trouble) (r : Registry)

@[simp] theorem against_usableToken : (a.against gw trouble r).usableToken = a.usableToken := rfl

@[simp] theorem against_budget : (a.against gw trouble r).budget = a.budget := rfl

theorem against_current : (a.against gw trouble r).Current pf d ↔ a.Current pf d := Iff.rfl

theorem against_request (token : String) :
    (a.against gw trouble r).request token = a.request token := by
  rfl

theorem against_answer (token : String) : (a.against gw trouble r).answer token =
    (a.request token).toOption.bind fun body => (gw.exchange trouble body r).2.toOption := by
  rw [answer, against_request]
  rfl

end Against

def sends (a : Attempt) (pf : Platform) (d : Dir) : Option EnrollRequest :=
  if a.Current pf d then none else a.usableToken.bind fun token => (a.request token).toOption

theorem sends_eq_some {body : EnrollRequest} (h : a.sends pf d = some body) :
    ¬ a.Current pf d ∧ ∃ token, a.usableToken = some token ∧ a.request token = .ok body := by
  obtain ⟨hcurrent, hbind⟩ := ite_none_left_eq_some.mp h
  obtain ⟨token, htoken, hrequest⟩ := bind_eq_some_iff.mp hbind
  refine ⟨hcurrent, token, htoken, ?_⟩
  cases hr : a.request token with
  | error e => simp [hr, Except.toOption] at hrequest
  | ok b =>
    rw [hr] at hrequest
    rw [some.inj (show some b = some body from hrequest)]

end Attempt

/-! ## The machine and the gateway -/

structure Site where
  registry : Registry
  dir : Dir

namespace Site

def ensureEnrolled (pf : Platform) (gw : Gateway) (trouble : Trouble) (a : Attempt) (s : Site) :
    EnsureOutcome × Site :=
  let out := (a.against gw trouble s.registry).ensureEnrolled pf s.dir
  (out.1,
    { registry := ((a.sends pf s.dir).map fun body =>
        (gw.exchange trouble body s.registry).1).getD s.registry
      dir := out.2 })

def Usable (gw : Gateway) (s : Site) : Prop :=
  ∃ pem ∈ s.dir.deviceCrt, ∃ fp ∈ gw.fingerprintOfPem pem, ∃ row ∈ s.registry.deviceByCert fp,
    row.status = .active ∧ (fp, row.id) ∈ s.registry.issued

instance (gw : Gateway) (s : Site) : Decidable (s.Usable gw) :=
  inferInstanceAs (Decidable (∃ _ ∈ _, _))

def Superseded (pf : Platform) (gw : Gateway) (trouble : Trouble) (a : Attempt) (s : Site) : Prop :=
  ∃ body ∈ a.sends pf s.dir, ∃ tenantId cert,
    gw.Registers trouble body s.registry tenantId cert ∧
    (∃ pem ∈ s.dir.deviceCrt, ∃ fp ∈ gw.fingerprintOfPem pem, fp ≠ cert.fingerprint ∧
      ∃ row ∈ s.registry.devices.get? (tenantId, body.machineGuid), row.certFingerprint = fp) ∧
    ¬ (trouble = .none ∧ looksLikeCertificatePem cert.certificatePem = true ∧ a.budget.Covers 3)

variable {pf : Platform} {gw : Gateway} {trouble : Trouble} {a : Attempt} {s : Site}

theorem usable_of_not_registers (hbefore : s.Usable gw)
    (h : ∀ body ∈ a.sends pf s.dir, ∀ tenantId cert,
      ¬ gw.Registers trouble body s.registry tenantId cert) :
    (s.ensureEnrolled pf gw trouble a).2.Usable gw := by
  have hdir : ((a.against gw trouble s.registry).ensureEnrolled pf s.dir).2 = s.dir := by
    rcases (a.against gw trouble s.registry).ensureEnrolled_cases pf s.dir with
      hsame | ⟨token, response, htoken, hcurrent, hanswer, -, -⟩
    · exact hsame
    rw [Attempt.against_answer] at hanswer
    obtain ⟨body, hbody, hresponse⟩ := bind_eq_some_iff.mp hanswer
    have hsends : a.sends pf s.dir = some body := by
      have htoken : a.usableToken = some token := htoken
      rw [Attempt.sends, if_neg (mt (Attempt.against_current gw trouble _).mpr hcurrent), htoken,
        bind_some, hbody]
    obtain ⟨-, e, herror⟩ := Gateway.exchange_of_not_registers (h body hsends)
    rw [herror] at hresponse
    cases hresponse
  have hunmoved : Gateway.Unmoved s.registry (s.ensureEnrolled pf gw trouble a).2.registry := by
    cases hsends : a.sends pf s.dir with
    | none =>
      rw [ensureEnrolled, hsends]
      exact ⟨rfl, rfl⟩
    | some body =>
      rw [ensureEnrolled, hsends]
      exact (Gateway.exchange_of_not_registers (h body hsends)).1
  obtain ⟨pem, hpem, fp, hfp, row, hrow, hactive, hissued⟩ := hbefore
  refine ⟨pem, ?_, fp, hfp, row, ?_, hactive, hunmoved.issued ▸ hissued⟩
  · rwa [ensureEnrolled, hdir]
  · rwa [Registry.deviceByCert, hunmoved.devices]

section Registered

variable {body : EnrollRequest} {token tenantId : String} {cert : Certified}

theorem registry_of_sends (hsends : a.sends pf s.dir = some body) :
    (s.ensureEnrolled pf gw trouble a).2.registry = (gw.exchange trouble body s.registry).1 := by
  rw [ensureEnrolled, hsends]
  rfl

theorem enroll_of_registers (pf : Platform) (hrequest : a.request token = .ok body)
    (hreg : gw.Registers trouble body s.registry tenantId cert) (d : Faulty Dir) :
    (trouble = .none → exec ((a.against gw trouble s.registry).enroll pf token) d =
      exec ((a.against gw trouble s.registry).store pf
        (gw.answer cert (s.registry.realId (tenantId, body.machineGuid) gw.rowId))) d) ∧
    (trouble ≠ .none →
      ∃ e, exec ((a.against gw trouble s.registry).enroll pf token) d = (.error e, d)) := by
  obtain ⟨-, hok, herror⟩ := Gateway.exchange_of_registers hreg
  refine ⟨fun hnone => ?_, fun hne => ?_⟩
  · refine Attempt.exec_enroll_of_answer ?_ d
    rw [Attempt.against_answer, hrequest]
    change ((gw.exchange trouble body s.registry).2).toOption = _
    rw [hok hnone]
    rfl
  obtain ⟨e, he⟩ := herror hne
  refine ⟨e, ?_⟩
  have hpost : (a.against gw trouble s.registry).post (a.against gw trouble s.registry).url body =
      .error e := he
  rw [Attempt.enroll, exec_bind, exec_ofExcept, Attempt.against_request, hrequest]
  dsimp only
  rw [exec_bind, exec_ofExcept, hpost]

theorem deviceCrt_of_registers (hsends : a.sends pf s.dir = some body)
    (hreg : gw.Registers trouble body s.registry tenantId cert) :
    (s.ensureEnrolled pf gw trouble a).2.dir.deviceCrt =
      if trouble = .none ∧ looksLikeCertificatePem cert.certificatePem = true ∧
          a.budget.Covers 3 then some cert.certificatePem else s.dir.deviceCrt := by
  obtain ⟨hcurrent, token, htoken, hrequest⟩ := Attempt.sends_eq_some hsends
  have hdir : (s.ensureEnrolled pf gw trouble a).2.dir =
      (exec ((a.against gw trouble s.registry).enroll pf token) ⟨s.dir, a.budget⟩).2.state := by
    have hcurrent' := mt (Attempt.against_current gw trouble s.registry).mp hcurrent
    rw [ensureEnrolled, Attempt.ensureEnrolled_dir, if_neg hcurrent', Attempt.against_usableToken,
      htoken, Attempt.against_budget]
  obtain ⟨hstored, hlost⟩ := enroll_of_registers pf hrequest hreg ⟨s.dir, a.budget⟩
  rw [hdir]
  by_cases hnone : trouble = .none
  · rw [hstored hnone, show cert.certificatePem = (gw.answer cert
      (s.registry.realId (tenantId, body.machineGuid) gw.rowId)).certificatePem from rfl]
    generalize gw.answer cert _ = response
    cases hpem : looksLikeCertificatePem response.certificatePem with
    | false =>
      rw [Attempt.store, exec_bind, Attempt.persist_refused hpem]
      exact (if_neg fun h => Bool.false_ne_true h.2.1).symm
    | true =>
      rw [Attempt.deviceCrt_store hpem]
      exact if_congr ⟨fun h => ⟨hnone, rfl, h⟩, fun h => h.2.2⟩ rfl rfl
  obtain ⟨e, he⟩ := hlost hnone
  rw [he, if_neg fun h => hnone h.1]

theorem failed_of_registers (hsends : a.sends pf s.dir = some body)
    (hreg : gw.Registers trouble body s.registry tenantId cert)
    (hplaced : ¬ (trouble = .none ∧ looksLikeCertificatePem cert.certificatePem = true ∧
      a.budget.Covers 3)) : ∃ e, (s.ensureEnrolled pf gw trouble a).1 = .failed e := by
  obtain ⟨hcurrent, token, htoken, hrequest⟩ := Attempt.sends_eq_some hsends
  obtain ⟨hstored, hlost⟩ := enroll_of_registers pf hrequest hreg ⟨s.dir, a.budget⟩
  have hfails : ∃ e, (exec ((a.against gw trouble s.registry).enroll pf token)
      ⟨s.dir, (a.against gw trouble s.registry).budget⟩).1 = .error e := by
    by_cases hnone : trouble = .none
    · rw [Attempt.against_budget, hstored hnone]
      exact Attempt.store_fails s.dir fun h => hplaced ⟨hnone, h.1, h.2⟩
    obtain ⟨e, he⟩ := hlost hnone
    exact ⟨e, by rw [Attempt.against_budget, he]⟩
  obtain ⟨e, he⟩ := hfails
  exact ⟨e.message, Attempt.ensureEnrolled_failed
    (mt (Attempt.against_current gw trouble s.registry).mp hcurrent) htoken he⟩

theorem resolves_of_registered {r r' : Registry}
    (h : Gateway.Registered gw body tenantId cert r r') :
    ∃ row ∈ r'.deviceByCert cert.fingerprint, row.status = .active ∧
      (cert.fingerprint, row.id) ∈ r'.issued := by
  refine ⟨{ gw.row body cert with id := r.realId (tenantId, body.machineGuid) gw.rowId },
    Registry.deviceByCert_eq_some.mpr ⟨(tenantId, body.machineGuid), ?_, rfl⟩, rfl, ?_⟩
  · rw [h.devices, get?_put_self]
  rw [h.issued]
  exact mem_cons_self

theorem resolves_iff_of_registered {r r' : Registry}
    (h : Gateway.Registered gw body tenantId cert r r') {fp : String} (hne : fp ≠ cert.fingerprint)
    (hbefore : ∃ row ∈ r.deviceByCert fp, row.status = .active ∧ (fp, row.id) ∈ r.issued) :
    (∃ row ∈ r'.deviceByCert fp, row.status = .active ∧ (fp, row.id) ∈ r'.issued) ↔
      ¬ ∃ row ∈ r.devices.get? (tenantId, body.machineGuid), row.certFingerprint = fp := by
  obtain ⟨row, hrow, hactive, hissued⟩ := hbefore
  obtain ⟨key, hkey, hfp⟩ := Registry.deviceByCert_eq_some.mp hrow
  constructor
  · rintro ⟨row', hrow', -, -⟩ ⟨old, hold, holdfp⟩
    obtain ⟨key', hkey', hfp'⟩ := Registry.deviceByCert_eq_some.mp hrow'
    rw [h.devices, get?_put] at hkey'
    split at hkey'
    · cases hkey'
      exact hne hfp'.symm
    rename_i hother
    exact hother (r.unique _ (get?_eq_some.mp hkey') _ (get?_eq_some.mp hold)
      (hfp'.trans holdfp.symm))
  intro hkept
  have hother : key ≠ (tenantId, body.machineGuid) := by
    rintro rfl
    exact hkept ⟨row, hkey, hfp⟩
  refine ⟨row, Registry.deviceByCert_eq_some.mpr ⟨key, ?_, hfp⟩, hactive, ?_⟩
  · rw [h.devices, get?_put_ne _ hother, hkey]
  rw [h.issued]
  exact mem_cons_of_mem _ hissued

end Registered

/-- **When a run spoils the certificate on disk.** -/
theorem failed_renewal_usable_iff (pf : Platform) (gw : Gateway) (trouble : Trouble) (a : Attempt)
    (s : Site) (hbefore : s.Usable gw) :
    ((∃ e, (s.ensureEnrolled pf gw trouble a).1 = .failed e) →
      (s.ensureEnrolled pf gw trouble a).2.Usable gw) ↔ ¬ s.Superseded pf gw trouble a := by
  constructor
  · rintro h ⟨body, hsends, tenantId, cert, hreg, ⟨pem, hpem, fp, hfp, hne, hrow⟩, hplaced⟩
    obtain ⟨pem', hpem', fp', hfp', hafter⟩ := h (failed_of_registers hsends hreg hplaced)
    rw [deviceCrt_of_registers hsends hreg, if_neg hplaced] at hpem'
    obtain rfl : pem' = pem := Option.mem_unique hpem' hpem
    obtain rfl : fp' = fp := Option.mem_unique hfp' hfp
    obtain ⟨pem₀, hpem₀, fp₀, hfp₀, hresolved⟩ := hbefore
    obtain rfl : pem₀ = pem' := Option.mem_unique hpem₀ hpem
    obtain rfl : fp₀ = fp' := Option.mem_unique hfp₀ hfp
    rw [registry_of_sends hsends] at hafter
    exact (resolves_iff_of_registered (Gateway.exchange_of_registers hreg).1 hne hresolved).mp
      hafter hrow
  · intro hnot _
    by_cases hreg : ∃ body ∈ a.sends pf s.dir, ∃ tenantId cert,
        gw.Registers trouble body s.registry tenantId cert
    swap
    · exact usable_of_not_registers hbefore fun body hbody tenantId cert h =>
        hreg ⟨body, hbody, tenantId, cert, h⟩
    obtain ⟨body, hsends, tenantId, cert, hreg⟩ := hreg
    have hregistered := (Gateway.exchange_of_registers hreg).1
    rw [Usable, deviceCrt_of_registers hsends hreg, registry_of_sends hsends]
    split
    -- The new certificate is in place.
    · obtain ⟨signed, -, hfingerprint⟩ := Option.bind_eq_some_iff.mp hreg.certified
      obtain ⟨fp, hfp, hcert⟩ := Option.bind_eq_some_iff.mp hfingerprint
      obtain rfl := Option.some.inj hcert
      exact ⟨_, rfl, fp, hfp, resolves_of_registered hregistered⟩
    -- The old one is: its row must not have been written over.
    · rename_i hplaced
      obtain ⟨pem, hpem, fp, hfp, hresolved⟩ := hbefore
      refine ⟨pem, hpem, fp, hfp, ?_⟩
      by_cases hsame : fp = cert.fingerprint
      · rw [hsame]
        exact resolves_of_registered hregistered
      · refine (resolves_iff_of_registered hregistered hsame hresolved).mpr fun hrow => ?_
        exact hnot ⟨body, hsends, tenantId, cert, hreg, ⟨pem, hpem, fp, hfp, hsame, hrow⟩, hplaced⟩

/-! ### A renewal whose answer is lost -/

open Desktop (bench benchAttempt)

def benchGateway : Gateway where
  now := 340 * 86400000
  hashEnrollmentToken := id
  parseAndVerifyCsr _ := true
  sign _ _ _ _ :=
    some ("-----BEGIN CERTIFICATE-----\n2\n-----END CERTIFICATE-----\n", "chain")
  fingerprintOfPem := some
  addYear t := t + 31536000000
  formatTime _ := "1972-01-01T00:00:00Z"
  newDeviceId := "device-2"
  rowId := "row-2"

def benchRow : DeviceRow where
  id := "device-1"
  hwFingerprint := "fingerprint"
  certFingerprint := "-----BEGIN CERTIFICATE-----\n-----END CERTIFICATE-----\n"
  certNotAfter := 31536000000
  osBuild := "22631"
  captureTier := "A"
  agentVersion := "1.0.0"

def benchSite : Site where
  registry :=
    { tokens := Table.put ∅ "token-2" ⟨"tenant-1", 63072000000, none⟩
      devices := Table.put ∅ ("tenant-1", "guid-1") benchRow
      unique := by decide +kernel
      issued := [(benchRow.certFingerprint, benchRow.id)] }
  dir := ((benchAttempt 0 "token-1" "1971-01-01T00:00:00Z" 1).ensureEnrolled bench {}).2

def benchRenewal : Attempt := benchAttempt 340 "token-2" "1972-01-01T00:00:00Z" 2

/-- A request that is lost costs nothing. -/
theorem lostRequest_usable : benchSite.Usable benchGateway ∧
    (∃ e, (benchSite.ensureEnrolled bench benchGateway .request benchRenewal).1 = .failed e) ∧
    (benchSite.ensureEnrolled bench benchGateway .request benchRenewal).2.Usable benchGateway := by
  have hbefore : benchSite.Usable benchGateway := by decide +kernel
  have hfailed : ∃ e, (benchSite.ensureEnrolled bench benchGateway .request benchRenewal).1 =
      .failed e :=
    ⟨(EnrollError.unreachable "the request was lost").message, by decide +kernel⟩
  refine ⟨hbefore, hfailed, (failed_renewal_usable_iff bench benchGateway .request benchRenewal
    benchSite hbefore).mpr ?_ hfailed⟩
  rintro ⟨body, -, tenantId, cert, hreg, -⟩
  exact hreg.reached.1 rfl

/-- An answer that is lost leaves the machine with a certificate the gateway does not know. -/
theorem lostAnswer_not_usable : benchSite.Usable benchGateway ∧
    (∃ e, (benchSite.ensureEnrolled bench benchGateway .response benchRenewal).1 = .failed e) ∧
    ¬ (benchSite.ensureEnrolled bench benchGateway .response benchRenewal).2.Usable benchGateway :=
  ⟨by decide +kernel,
    ⟨(EnrollError.unreachable "the answer was lost").message, by decide +kernel⟩,
    by decide +kernel⟩

end Site

end Sentinel.Service
