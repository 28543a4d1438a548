import Tapes.Provenance.Signing

namespace Tapes.Provenance

open Tapes.Js

/-! The statement types, their shape checks, and what each check proves. -/

structure BlobDescriptor where
  hash : JsString
  size : JsNumber
deriving DecidableEq

structure RecordingClaim where
  blob : BlobDescriptor
  mimeType : JsString
  startedAt : JsString
  endedAt : JsString
  sessionId : JsString
  deviceKey : JsString
  deviceCert : Option JsString
deriving DecidableEq

structure HostReceipt where
  claim : JsString
  receivedAt : JsString
  hostKey : JsString
deriving DecidableEq

structure SessionSpan where
  joinedAt : JsString
  leftAt : JsString
deriving DecidableEq

structure SessionDevice where
  deviceKey : JsString
  label : Option JsString
  spans : List SessionSpan
deriving DecidableEq

structure SessionRecord where
  sessionId : JsString
  openedAt : JsString
  closedAt : JsString
  devices : List SessionDevice
  claims : List JsString
  hostKey : JsString
deriving DecidableEq

structure DeviceCertificate where
  personKey : JsString
  deviceKey : JsString
  deviceLabel : JsString
  issuedAt : JsString
deriving DecidableEq

inductive VouchMethod where
  | operator
  | pin
deriving DecidableEq

structure DeviceVouch where
  hostKey : JsString
  hostLabel : JsString
  personKey : JsString
  personName : JsString
  deviceKey : JsString
  deviceLabel : JsString
  method : VouchMethod
  firstCertificate : JsString
  vouchedAt : JsString
deriving DecidableEq

/-- What a claim's `deviceCert` can name. -/
inductive DeviceLink where
  | certificate (statement : DeviceCertificate)
  | vouch (statement : DeviceVouch)
deriving DecidableEq

def DeviceLink.deviceKey : DeviceLink → JsString
  | .certificate statement => statement.deviceKey
  | .vouch statement => statement.deviceKey

def DeviceLink.personKey : DeviceLink → JsString
  | .certificate statement => statement.personKey
  | .vouch statement => statement.personKey

inductive RevocationSigner where
  | person
  | host
deriving DecidableEq

inductive RevocationReason where
  | lost
  | retired
  | wrongPerson
deriving DecidableEq

structure DeviceRevocation where
  signerKey : JsString
  signedBy : RevocationSigner
  deviceKey : JsString
  deviceLink : JsString
  reason : RevocationReason
  revokedAt : JsString
deriving DecidableEq

/-! ## Type names -/

def recordingClaimType : JsString := js "tapes/recording@1"
def deviceCertificateType : JsString := js "tapes/device-cert@1"
def deviceVouchType : JsString := js "tapes/device-vouch@1"
def deviceRevocationType : JsString := js "tapes/revocation@1"
def hostReceiptType : JsString := js "tapes/receipt@1"
def sessionRecordType : JsString := js "tapes/session@1"

/-! ## Shape checks

Each guard of the source is read as a partial function, so that a value that
passes comes with the fields the guard looked at.
-/

def hasType (payload : JsValue) (type : JsString) : Bool :=
  (payload.get (js "type")).string? = some type

def stringField (value : JsValue) (key : String) : Option JsString := (value.get (js key)).string?

/-- A field that may be absent but, when there, is a string. -/
def optionalStringField (value : JsValue) (key : String) : Option (Option JsString) :=
  match value.get (js key) with
  | .undefined => some none
  | .string text => some (some text)
  | _ => none

def recordingClaim? (payload : JsValue) : Option RecordingClaim := do
  guard (hasType payload recordingClaimType)
  let blob := payload.get (js "blob")
  let hash ← stringField blob "hash"
  let size ← (blob.get (js "size")).number?
  let mimeType ← stringField blob "mimeType"
  let startedAt ← stringField payload "startedAt"
  let endedAt ← stringField payload "endedAt"
  let sessionId ← stringField payload "sessionId"
  let deviceKey ← stringField payload "deviceKey"
  let deviceCert ← optionalStringField payload "deviceCert"
  return ⟨⟨hash, size⟩, mimeType, startedAt, endedAt, sessionId, deviceKey, deviceCert⟩

def hostReceipt? (payload : JsValue) : Option HostReceipt := do
  guard (hasType payload hostReceiptType)
  let claim ← stringField payload "claim"
  let receivedAt ← stringField payload "receivedAt"
  let hostKey ← stringField payload "hostKey"
  return ⟨claim, receivedAt, hostKey⟩

def sessionSpan? (value : JsValue) : Option SessionSpan := do
  let joinedAt ← stringField value "joinedAt"
  let leftAt ← stringField value "leftAt"
  return ⟨joinedAt, leftAt⟩

def sessionDevice? (value : JsValue) : Option SessionDevice := do
  let deviceKey ← stringField value "deviceKey"
  let label ← optionalStringField value "label"
  let spans ← (value.get (js "spans")).array?
  let spans ← spans.mapM sessionSpan?
  return ⟨deviceKey, label, spans⟩

def sessionRecord? (payload : JsValue) : Option SessionRecord := do
  guard (hasType payload sessionRecordType)
  let sessionId ← stringField payload "sessionId"
  let openedAt ← stringField payload "openedAt"
  let closedAt ← stringField payload "closedAt"
  let hostKey ← stringField payload "hostKey"
  let claims ← (payload.get (js "claims")).array?
  let claims ← claims.mapM JsValue.string?
  let devices ← (payload.get (js "devices")).array?
  let devices ← devices.mapM sessionDevice?
  return ⟨sessionId, openedAt, closedAt, devices, claims, hostKey⟩

def deviceCertificate? (payload : JsValue) : Option DeviceCertificate := do
  guard (hasType payload deviceCertificateType)
  let personKey ← stringField payload "personKey"
  let deviceKey ← stringField payload "deviceKey"
  let deviceLabel ← stringField payload "deviceLabel"
  let issuedAt ← stringField payload "issuedAt"
  return ⟨personKey, deviceKey, deviceLabel, issuedAt⟩

def vouchMethod? (value : JsValue) : Option VouchMethod :=
  if value.string? = some (js "operator") then some .operator
  else if value.string? = some (js "pin") then some .pin
  else none

def deviceVouch? (payload : JsValue) : Option DeviceVouch := do
  guard (hasType payload deviceVouchType)
  let hostKey ← stringField payload "hostKey"
  let hostLabel ← stringField payload "hostLabel"
  let personKey ← stringField payload "personKey"
  let personName ← stringField payload "personName"
  let deviceKey ← stringField payload "deviceKey"
  let deviceLabel ← stringField payload "deviceLabel"
  let method ← vouchMethod? (payload.get (js "method"))
  let firstCertificate ← stringField payload "firstCertificate"
  let vouchedAt ← stringField payload "vouchedAt"
  return ⟨hostKey, hostLabel, personKey, personName, deviceKey, deviceLabel, method,
    firstCertificate, vouchedAt⟩

def revocationSigner? (value : JsValue) : Option RevocationSigner :=
  if value.string? = some (js "person") then some .person
  else if value.string? = some (js "host") then some .host
  else none

def revocationReason? (value : JsValue) : Option RevocationReason :=
  if value.string? = some (js "lost") then some .lost
  else if value.string? = some (js "retired") then some .retired
  else if value.string? = some (js "wrong-person") then some .wrongPerson
  else none

def deviceRevocation? (payload : JsValue) : Option DeviceRevocation := do
  guard (hasType payload deviceRevocationType)
  let signerKey ← stringField payload "signerKey"
  let signedBy ← revocationSigner? (payload.get (js "signedBy"))
  let deviceKey ← stringField payload "deviceKey"
  let deviceLink ← stringField payload "deviceLink"
  let reason ← revocationReason? (payload.get (js "reason"))
  let revokedAt ← stringField payload "revokedAt"
  return ⟨signerKey, signedBy, deviceKey, deviceLink, reason, revokedAt⟩

/-! ## Checks -/

/-- Why a listed statement failed. -/
inductive StatementProblem where
  | addressMismatch
  | notCanonical
  | claimNotListed
  | sessionMismatch
  | claimNotInSession
  | certificateNotClaimed
  | certificateDeviceMismatch
  | revocationNotClaimed
  | revocationNotPermitted
  | malformed
  | hashMismatch
  | sizeMismatch
  | badSignature
deriving DecidableEq

def checkRecordingClaim (platform : Platform) (signed : Signed JsValue)
    (received : BlobDescriptor) : Except StatementProblem (Signed RecordingClaim) :=
  match recordingClaim? signed.payload with
  | none => .error .malformed
  | some claim =>
      if claim.blob.hash ≠ received.hash then .error .hashMismatch
      else if claim.blob.size.strictEquals received.size = false then .error .sizeMismatch
      else if verifyStatement platform signed claim.deviceKey = false then .error .badSignature
      else .ok ⟨claim, signed.signature⟩

/-- The shape, then the signature under the key the payload itself names. -/
def checkShapeAndSignature (guard : JsValue → Option α) (signer : α → JsString)
    (platform : Platform) (signed : Signed JsValue) : Except StatementProblem (Signed α) :=
  match guard signed.payload with
  | none => .error .malformed
  | some payload =>
      if verifyStatement platform signed (signer payload) = false then .error .badSignature
      else .ok ⟨payload, signed.signature⟩

def checkHostReceipt := checkShapeAndSignature hostReceipt? HostReceipt.hostKey

def checkSessionRecord := checkShapeAndSignature sessionRecord? SessionRecord.hostKey

def checkDeviceCertificate := checkShapeAndSignature deviceCertificate? DeviceCertificate.personKey

def checkDeviceVouch := checkShapeAndSignature deviceVouch? DeviceVouch.hostKey

def checkDeviceRevocation := checkShapeAndSignature deviceRevocation? DeviceRevocation.signerKey

theorem checkRecordingClaim_eq_ok_iff {platform : Platform} {signed : Signed JsValue}
    {received : BlobDescriptor} {claim : Signed RecordingClaim} :
    checkRecordingClaim platform signed received = .ok claim ↔
      recordingClaim? signed.payload = some claim.payload ∧
      claim.signature = signed.signature ∧
      claim.payload.blob.hash = received.hash ∧
      claim.payload.blob.size.strictEquals received.size = true ∧
      verifyStatement platform signed claim.payload.deviceKey = true := by
  obtain ⟨payload, signature⟩ := claim
  unfold checkRecordingClaim
  cases shape : recordingClaim? signed.payload with
  | none => simp
  | some found =>
      dsimp only
      split_ifs with hash size valid <;> simp_all <;> grind

theorem checkShapeAndSignature_eq_ok_iff {shape : JsValue → Option α} {signer : α → JsString}
    {platform : Platform} {signed : Signed JsValue} {checked : Signed α} :
    checkShapeAndSignature shape signer platform signed = .ok checked ↔
      shape signed.payload = some checked.payload ∧
      checked.signature = signed.signature ∧
      verifyStatement platform signed (signer checked.payload) = true := by
  obtain ⟨payload, signature⟩ := checked
  unfold checkShapeAndSignature
  cases found : shape signed.payload with
  | none => simp
  | some held =>
      dsimp only
      split_ifs with valid <;> simp_all <;> grind

/-- Whether the revocation withdraws that certificate or vouch. -/
def revocationCovers (revocation : DeviceRevocation) (link : DeviceLink)
    (linkAddress : JsString) : Bool :=
  if revocation.deviceLink ≠ linkAddress ∨ revocation.deviceKey ≠ link.deviceKey then false
  else
    match revocation.signedBy, link with
    | .person, link => revocation.signerKey = link.personKey
    | .host, .vouch statement => revocation.signerKey = statement.hostKey
    | .host, .certificate _ => false

end Tapes.Provenance
