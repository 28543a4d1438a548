import Tapes.Provenance.RecordingProvenance

namespace Tapes.Uploads

open Tapes.Js Tapes.Provenance

/-! The host's checks of a statement sent to `/blobs`: it has to be sound, and to bind to
what the host already holds. -/

def maxStatementBytes : Nat := 64 * 1024

/-! ## The store as the checks read it -/

/-- The objects, and the types in their meta files. -/
structure StoreView where
  object : JsString → Option Bytes
  mimeType : JsString → Option JsString

def isHexUnit (unit : UInt16) : Bool :=
  (0x30 ≤ unit && unit ≤ 0x39) || (0x61 ≤ unit && unit ≤ 0x66)

def isValidBlobHash (hash : JsString) : Bool := hash.length = 64 && hash.all isHexUnit

def StoreView.has (view : StoreView) (hash : JsString) : Bool :=
  isValidBlobHash hash && (view.object hash).isSome

/-- The number of bytes, as a Number value. -/
def sizeOfBytes (bytes : Bytes) : JsNumber :=
  match ofDecimal bytes.length 0 with
  | some magnitude => .finite false magnitude
  | none => .infinite false

structure BlobStat where
  blob : BlobDescriptor
  mimeType : JsString
deriving DecidableEq

def StoreView.stat (view : StoreView) (hash : JsString) : Option BlobStat :=
  if isValidBlobHash hash then
    match view.mimeType hash, view.object hash with
    | some mimeType, some bytes => some ⟨⟨hash, sizeOfBytes bytes⟩, mimeType⟩
    | _, _ => none
  else none

/-! ## Checks -/

/-- Why an uploaded statement was not stored. -/
inductive UploadProblem where
  | statement (problem : StatementProblem)
  | notCanonical
  | unknownType
  | audioMissing
  | claimMissing
  | certificateMismatch
  | certificateMissing
  | revocationNotPermitted
deriving DecidableEq

abbrev StatementCheck := Except UploadProblem Unit

/-- The statement types by name. -/
inductive StatementType where
  | claim
  | receipt
  | session
  | certificate
  | vouch
  | revocation
deriving DecidableEq

def statementTypeOf (signed : Signed JsValue) : Option StatementType :=
  let type := (statementType signed).string?
  if type = some recordingClaimType then some .claim
  else if type = some hostReceiptType then some .receipt
  else if type = some sessionRecordType then some .session
  else if type = some deviceCertificateType then some .certificate
  else if type = some deviceVouchType then some .vouch
  else if type = some deviceRevocationType then some .revocation
  else none

/-- None for a statement of another type. -/
def checkDeviceLink (platform : Platform) (signed : Signed JsValue) :
    Option (Except StatementProblem DeviceLink) :=
  match statementTypeOf signed with
  | some .certificate =>
      some ((checkDeviceCertificate platform signed).map fun link => .certificate link.payload)
  | some .vouch => some ((checkDeviceVouch platform signed).map fun link => .vouch link.payload)
  | _ => none

/-- A statement from the store, or none if it is absent or not a statement. -/
def readStoredStatement (view : StoreView) (hash : JsString) : Option (Signed JsValue) :=
  if view.has hash then (view.object hash).bind parseSignedStatement else none

/-- The claim stored under this address. Its signature is not looked at. -/
def storedClaim (view : StoreView) (address : JsString) : Option (Signed JsValue) :=
  if (view.stat address).any fun stat => stat.mimeType = statementMimeType then
    (readStoredStatement view address).filter fun stored =>
      statementTypeOf stored = some .claim
  else none

def storedLink (platform : Platform) (view : StoreView) (address : JsString) : Option DeviceLink :=
  if (view.stat address).any fun stat => stat.mimeType = statementMimeType then
    match (readStoredStatement view address).bind (checkDeviceLink platform) with
    | some (.ok link) => some link
    | _ => none
  else none

def holdsClaim (view : StoreView) (address : JsString) : Bool := (storedClaim view address).isSome

def checkClaim (platform : Platform) (view : StoreView) (signed : Signed JsValue) :
    StatementCheck :=
  match (((signed.payload.get (js "blob")).get (js "hash")).string?).bind view.stat with
  | none => .error .audioMissing
  | some audio =>
      match checkRecordingClaim platform signed audio.blob with
      | .error problem => .error (.statement problem)
      | .ok _ => .ok ()

def checkReceipt (platform : Platform) (view : StoreView) (signed : Signed JsValue) :
    StatementCheck :=
  match checkHostReceipt platform signed with
  | .error problem => .error (.statement problem)
  | .ok receipt =>
      if holdsClaim view receipt.payload.claim then .ok () else .error .claimMissing

def checkSession (platform : Platform) (view : StoreView) (signed : Signed JsValue) :
    StatementCheck :=
  match checkSessionRecord platform signed with
  | .error problem => .error (.statement problem)
  | .ok record =>
      if record.payload.claims.any (holdsClaim view) then .ok () else .error .claimMissing

/-- Whether the stored claim names the link at `address` for its own device key. -/
def claimNames (claim : Signed JsValue) (address : JsString) (link : DeviceLink) : Bool :=
  (claim.payload.get (js "deviceCert")).string? = some address &&
    (claim.payload.get (js "deviceKey")).string? = some link.deviceKey

/-- `address` is the statement address of the upload itself. -/
def checkDeviceLinkUpload (platform : Platform) (view : StoreView) (signed : Signed JsValue)
    (address : JsString) (forClaim : Option JsString) : StatementCheck :=
  match checkDeviceLink platform signed with
  | none => .error .unknownType
  | some (.error problem) => .error (.statement problem)
  | some (.ok link) =>
      match (forClaim.filter (· ≠ [])).bind (storedClaim view) with
      | none => .error .claimMissing
      | some claim =>
          if claimNames claim address link then .ok () else .error .certificateMismatch

def checkRevocationUpload (platform : Platform) (view : StoreView) (signed : Signed JsValue) :
    StatementCheck :=
  match checkDeviceRevocation platform signed with
  | .error problem => .error (.statement problem)
  | .ok revocation =>
      match storedLink platform view revocation.payload.deviceLink with
      | none => .error .certificateMissing
      | some link =>
          if revocationCovers revocation.payload link revocation.payload.deviceLink then .ok ()
          else .error .revocationNotPermitted

/-- The check of the statement's type, once it is known to be canonical. -/
def checkByUploadType (platform : Platform) (view : StoreView) (signed : Signed JsValue)
    (address : JsString) (forClaim : Option JsString) : StatementCheck :=
  match statementTypeOf signed with
  | some .claim => checkClaim platform view signed
  | some .receipt => checkReceipt platform view signed
  | some .session => checkSession platform view signed
  | some .certificate | some .vouch =>
      checkDeviceLinkUpload platform view signed address forClaim
  | some .revocation => checkRevocationUpload platform view signed
  | none => .error .unknownType

def checkUploadedStatement (platform : Platform) (bytes : Bytes) (view : StoreView)
    (forClaim : Option JsString) : StatementCheck :=
  match parseSignedStatement bytes with
  | none => .error (.statement .malformed)
  | some signed =>
      match statementBytes signed with
      | none => .error (.statement .malformed)
      | some canonical =>
          if canonical ≠ bytes then .error .notCanonical
          else checkByUploadType platform view signed (sha256Hex platform bytes) forClaim

section

variable {platform : Platform} {view : StoreView} {bytes : Bytes} {signed : Signed JsValue}
  {forClaim : Option JsString}

/-! ## What an upload that passed is -/

/-- The bytes are the canonical JSON of the statement. -/
structure IsStatement (bytes : Bytes) (signed : Signed JsValue) : Prop where
  read : parseSignedStatement bytes = some signed
  canonical : statementBytes signed = some bytes

theorem IsStatement.unique {other : Signed JsValue} (is : IsStatement bytes signed)
    (also : parseSignedStatement bytes = some other) : other = signed := by
  rw [is.read, Option.some.injEq] at also
  exact also.symm

theorem checkUploadedStatement_ok_iff :
    checkUploadedStatement platform bytes view forClaim = .ok () ↔
      ∃ signed, IsStatement bytes signed ∧
        checkByUploadType platform view signed (sha256Hex platform bytes) forClaim = .ok () := by
  unfold checkUploadedStatement
  constructor
  · intro passed
    split at passed
    · cases passed
    · rename_i signed read
      split at passed
      · cases passed
      · rename_i canonical written
        split at passed
        · cases passed
        · rename_i same
          rw [not_not] at same
          subst same
          exact ⟨signed, ⟨read, written⟩, passed⟩
  · rintro ⟨signed, ⟨read, canonical⟩, passed⟩
    simp only [read, canonical, ne_eq, not_true, if_false]
    exact passed

theorem checkUploadedStatement_eq (is : IsStatement bytes signed) :
    checkUploadedStatement platform bytes view forClaim =
      checkByUploadType platform view signed (sha256Hex platform bytes) forClaim := by
  simp only [checkUploadedStatement, is.read, is.canonical, ne_eq, not_true, if_false]

theorem IsStatement.of_accepted (accepted : checkUploadedStatement platform bytes view forClaim = .ok ())
    (read : parseSignedStatement bytes = some signed) :
    IsStatement bytes signed ∧
      checkByUploadType platform view signed (sha256Hex platform bytes) forClaim = .ok () := by
  obtain ⟨found, is, checked⟩ := checkUploadedStatement_ok_iff.mp accepted
  cases is.unique read
  exact ⟨is, checked⟩

theorem statementTypeOf_of_hasType {type : JsString} (tagged : hasType signed.payload type = true) :
    (statementType signed).string? = some type :=
  of_decide_eq_true tagged

end

end Tapes.Uploads
