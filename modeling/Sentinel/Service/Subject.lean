import Sentinel.Service.Renewal

/-!
# The name in a certificate

`FileCA.Sign` (`ca.go`) puts the tenant and the device it is told into the subject of a certificate,
so that one pulled off a machine says whose it is.
-/

open List Option

namespace Sentinel.Service

open Runs

/-! ## Signing -/

structure Subject where
  commonName : String
  organizationalUnit : String
  deriving DecidableEq, Repr

structure Certificate where
  serial : Nat
  subject : Subject
  notBefore : Int
  notAfter : Int
  publicKey : String

structure X509 where
  encode : Certificate → String
  subjectOf : String → Option Subject
  fingerprintOfPem : String → Option String
  subjectOf_encode : ∀ c, subjectOf (encode c) = some c.subject
  collision_free : ∀ p p' f, fingerprintOfPem p = some f → fingerprintOfPem p' = some f →
    subjectOf p = subjectOf p'

structure FileCa where
  now : Int
  notAfter : Int
  chainPem : String
  publicKey : String → Option String
  serial : Option Nat

def dayMs : Int := 86400000

def FileCa.checkValidityWindow (ca : FileCa) (notAfter : Int) : Prop :=
  60 * dayMs ≤ notAfter - ca.now ∧ notAfter - ca.now ≤ 456 * dayMs ∧ notAfter ≤ ca.notAfter ∧
    ca.now ≤ ca.notAfter

instance (ca : FileCa) (notAfter : Int) : Decidable (ca.checkValidityWindow notAfter) :=
  inferInstanceAs (Decidable (_ ∧ _))

def FileCa.sign (ca : FileCa) (x : X509) (csrPem tenantId deviceId : String) (notAfter : Int) :
    Option (String × String) :=
  if tenantId = "" ∨ deviceId = "" then none
  else match ca.publicKey csrPem, ca.serial with
  | some publicKey, some serial =>
    if ca.checkValidityWindow notAfter then
      some (x.encode
        { serial
          subject := ⟨deviceId, tenantId⟩
          notBefore := ca.now - 5 * 60000
          notAfter
          publicKey }, ca.chainPem)
    else none
  | _, _ => none

theorem FileCa.subjectOf_sign {ca : FileCa} {x : X509} {csrPem tenantId deviceId pem chain : String}
    {notAfter : Int} (h : ca.sign x csrPem tenantId deviceId notAfter = some (pem, chain)) :
    x.subjectOf pem = some ⟨deviceId, tenantId⟩ := by
  unfold FileCa.sign at h
  split at h
  · cases h
  split at h
  · split at h
    · obtain ⟨rfl, -⟩ := Prod.mk.inj (some.inj h)
      exact x.subjectOf_encode _
    · cases h
  · cases h

/-! ## Enrollments and renewals -/

structure Enrollment where
  handler : Gateway
  ca : FileCa
  trouble : Trouble
  body : EnrollRequest

def Enrollment.gateway (x : X509) (e : Enrollment) : Gateway :=
  { e.handler with sign := e.ca.sign x, fingerprintOfPem := x.fingerprintOfPem }

namespace Registry

variable (x : X509) (r : Registry) (e : Enrollment)

def enroll : Registry := ((e.gateway x).exchange e.trouble e.body r).1

def Named : Prop :=
  ∀ row ∈ r.devices.rows, ∀ pem subject, x.fingerprintOfPem pem = some row.2.certFingerprint →
    x.subjectOf pem = some subject → subject = ⟨row.2.id, row.1.1⟩

def DrawsRowId : Prop :=
  ∀ tenantId cert, (e.gateway x).Registers e.trouble e.body r tenantId cert →
    e.handler.newDeviceId = r.realId (tenantId, e.body.machineGuid) e.handler.rowId

variable {x r e}

theorem subject_of_registers {tenantId : String} {cert : Certified}
    (h : (e.gateway x).Registers e.trouble e.body r tenantId cert) :
    ∃ pem, x.fingerprintOfPem pem = some cert.fingerprint ∧
      x.subjectOf pem = some ⟨e.handler.newDeviceId, tenantId⟩ := by
  obtain ⟨⟨pem, chain⟩, hsign, hrest⟩ := bind_eq_some_iff.mp h.certified
  obtain ⟨fp, hfp, hcert⟩ := bind_eq_some_iff.mp hrest
  obtain rfl := some.inj hcert
  exact ⟨pem, hfp, FileCa.subjectOf_sign hsign⟩

theorem named_enroll_iff (h : r.Named x) : (r.enroll x e).Named x ↔ r.DrawsRowId x e := by
  by_cases hreg : ∃ tenantId cert, (e.gateway x).Registers e.trouble e.body r tenantId cert
  · obtain ⟨tenantId, cert, hreg⟩ := hreg
    obtain ⟨pem, hfp, hsubject⟩ := subject_of_registers hreg
    have hdevices := (Gateway.exchange_of_registers hreg).1.devices
    constructor
    · intro hnamed tenantId' cert' hreg'
      obtain rfl : tenantId = tenantId' := some.inj (hreg.token.symm.trans hreg'.token)
      have hrow : ((tenantId, e.body.machineGuid), { (e.gateway x).row e.body cert with
          id := r.realId (tenantId, e.body.machineGuid) e.handler.rowId }) ∈
          (r.enroll x e).devices.rows := by
        unfold enroll
        rw [hdevices]
        exact Table.mem_rows_put.mpr (.inl rfl)
      exact (Subject.mk.inj (hnamed _ hrow pem _ hfp hsubject)).1
    intro hdraws row hrow pem' subject hfp' hsubject'
    unfold enroll at hrow
    rw [hdevices] at hrow
    rcases Table.mem_rows_put.mp hrow with rfl | ⟨hrow, -⟩
    · rw [← x.collision_free pem pem' _ hfp hfp', hsubject, hdraws tenantId cert hreg] at hsubject'
      exact (some.inj hsubject').symm
    · exact h row hrow pem' subject hfp' hsubject'
  have hnone := fun tenantId cert hreg' => hreg ⟨tenantId, cert, hreg'⟩
  have hsame := (Gateway.exchange_of_not_registers hnone).1.devices
  refine iff_of_true (fun row hrow => h row ?_) fun tenantId cert hreg' =>
    absurd hreg' (hnone tenantId cert)
  unfold enroll at hrow
  rwa [hsame] at hrow

end Registry

def interleave (a b : String) : String :=
  String.ofList (a.toList.flatMap (['a', ·]) ++ b.toList.flatMap (['b', ·]))

def behind (mark : Char) : List Char → List Char
  | m :: c :: rest => if m = mark then c :: behind mark rest else behind mark rest
  | _ => []

theorem behind_append (mark m : Char) (cs rest : List Char) :
    behind mark (cs.flatMap ([m, ·]) ++ rest) =
      (if m = mark then cs else []) ++ behind mark rest := by
  induction cs with
  | nil => simp
  | cons c cs ih => by_cases hm : m = mark <;> simp_all [behind]

def plainX509 : X509 where
  encode c := interleave c.subject.commonName c.subject.organizationalUnit
  subjectOf pem :=
    some ⟨String.ofList (behind 'a' pem.toList), String.ofList (behind 'b' pem.toList)⟩
  fingerprintOfPem := some
  subjectOf_encode c := by
    have ha := behind_append 'a' 'b' c.subject.organizationalUnit.toList []
    have hb := behind_append 'b' 'b' c.subject.organizationalUnit.toList []
    simp [behind] at ha hb
    simp [interleave, behind_append, ha, hb]
  collision_free p p' f h h' := by rw [Option.some.inj (h.trans h'.symm)]

def firstEnrollment (newDeviceId rowId : String) : Enrollment where
  handler := { Site.benchGateway with newDeviceId, rowId }
  ca := ⟨340 * dayMs, 3650 * dayMs, "chain", some, some 1⟩
  trouble := .none
  body :=
    { enrollmentToken := "token-1", csrPem := "csr", machineGuid := "guid-1"
      hwFingerprint := "hw", osBuild := "22631", captureTier := "A", agentVersion := "1.0.0" }

def newRegistry : Registry where
  tokens := Table.put ∅ "token-1" ⟨"tenant-1", 63072000000, none⟩
  unique _ h := absurd h not_mem_nil

end Sentinel.Service
