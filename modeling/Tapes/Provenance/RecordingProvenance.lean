import Tapes.Provenance.Statements

namespace Tapes.Provenance

open Tapes.Js

/-! `verifyRecordingStatements`: what a recording's listed statements prove. -/

/-- One address from a recording's statement list, with no bytes when no host
could serve it. -/
structure FetchedStatement where
  hash : JsString
  bytes : Option Bytes
deriving DecidableEq

inductive VerifiedPerson where
  | certificate (personKey deviceLabel issuedAt : JsString)
  | vouch (personKey personName deviceLabel hostKey hostLabel : JsString)
      (method : VouchMethod) (vouchedAt : JsString)
deriving DecidableEq

structure VerifiedSession where
  openedAt : JsString
  closedAt : JsString
  hostKey : JsString
  devices : List (JsString × List SessionSpan)
deriving DecidableEq

structure RevokedDeviceLink where
  signedBy : RevocationSigner
  signerKey : JsString
  reason : RevocationReason
  revokedAt : JsString
  receivedBeforeRevocation : Bool
deriving DecidableEq

structure ClaimedRecording where
  deviceKey : JsString
  startedAt : JsString
  endedAt : JsString
  sessionId : JsString
  session : Option VerifiedSession
  person : Option VerifiedPerson
  deviceLink : Option JsString
  revocation : Option RevokedDeviceLink
deriving DecidableEq

inductive RecordingProvenance where
  | verified (claimed : ClaimedRecording) (receivedAt : JsString) (recordedByHost : Bool)
  | deviceOnly (claimed : ClaimedRecording)
  | unverified
  | failed (failures : List (JsString × StatementProblem))
  | unavailable (missing : List JsString)
deriving DecidableEq

/-- The recording fields of a result that has them. -/
def RecordingProvenance.claimed? : RecordingProvenance → Option ClaimedRecording
  | .verified claimed _ _ => some claimed
  | .deviceOnly claimed => some claimed
  | _ => none

/-! ## One statement -/

inductive Checked where
  | claim (claim : RecordingClaim)
  | receipt (receipt : HostReceipt)
  | session (record : SessionRecord)
  | link (link : DeviceLink)
  | revocation (revocation : DeviceRevocation)
  | unknown
  | failed (problem : StatementProblem)
deriving DecidableEq

def Checked.ofCheck (wrap : α → Checked) : Except StatementProblem (Signed α) → Checked
  | .ok signed => wrap signed.payload
  | .error problem => .failed problem

def isCanonical (bytes : Bytes) (signed : Signed JsValue) : Bool :=
  statementBytes signed = some bytes

/-- The check that a statement of each type gets.  A later type is `unknown`. -/
def checkByType (platform : Platform) (blob : BlobDescriptor) (signed : Signed JsValue) : Checked :=
  let type := (statementType signed).string?
  if type = some recordingClaimType then
    .ofCheck .claim (checkRecordingClaim platform signed blob)
  else if type = some hostReceiptType then
    .ofCheck .receipt (checkHostReceipt platform signed)
  else if type = some sessionRecordType then
    .ofCheck .session (checkSessionRecord platform signed)
  else if type = some deviceCertificateType then
    .ofCheck (.link ∘ .certificate) (checkDeviceCertificate platform signed)
  else if type = some deviceVouchType then
    .ofCheck (.link ∘ .vouch) (checkDeviceVouch platform signed)
  else if type = some deviceRevocationType then
    .ofCheck .revocation (checkDeviceRevocation platform signed)
  else .unknown

def checkStatement (platform : Platform) (blob : BlobDescriptor) (hash : JsString)
    (bytes : Bytes) : Checked :=
  if sha256Hex platform bytes ≠ hash then .failed .addressMismatch
  else
    match parseSignedStatement bytes with
    | none => .failed .malformed
    | some signed =>
        if isCanonical bytes signed = false then .failed .notCanonical
        else checkByType platform blob signed

/-! ## The passes over the list -/

structure Collected where
  failures : List (JsString × StatementProblem)
  missing : List JsString
  claims : OrderedMap JsString RecordingClaim
  receipts : List (JsString × HostReceipt)
  sessions : List (JsString × SessionRecord)
  links : OrderedMap JsString DeviceLink
  revocations : OrderedMap JsString DeviceRevocation

def Collected.empty : Collected := ⟨[], [], .empty, [], [], .empty, .empty⟩

def Collected.add (collected : Collected) (hash : JsString) : Checked → Collected
  | .claim claim => { collected with claims := collected.claims.set hash claim }
  | .receipt receipt => { collected with receipts := collected.receipts ++ [(hash, receipt)] }
  | .session record => { collected with sessions := collected.sessions ++ [(hash, record)] }
  | .link link => { collected with links := collected.links.set hash link }
  | .revocation revocation =>
      { collected with revocations := collected.revocations.set hash revocation }
  | .unknown => collected
  | .failed problem => { collected with failures := collected.failures ++ [(hash, problem)] }

def collectEntry (platform : Platform) (blob : BlobDescriptor) (collected : Collected)
    (entry : JsString × Option Bytes) : Collected :=
  match entry.2 with
  | none => { collected with missing := collected.missing ++ [entry.1] }
  | some bytes => collected.add entry.1 (checkStatement platform blob entry.1 bytes)

/-- The listed addresses, each once.  A repeated address keeps its last bytes. -/
def uniqueStatements (statements : List FetchedStatement) : OrderedMap JsString (Option Bytes) :=
  .ofList (statements.map fun statement => (statement.hash, statement.bytes))

def collect (platform : Platform) (blob : BlobDescriptor) (statements : List FetchedStatement) :
    Collected :=
  (uniqueStatements statements).entries.foldl (collectEntry platform blob) .empty

def receiptFailures (collected : Collected) : List (JsString × StatementProblem) :=
  collected.receipts.filterMap fun (hash, receipt) =>
    if collected.claims.has receipt.claim then none else some (hash, .claimNotListed)

def sessionProblem (record : SessionRecord) (claims : OrderedMap JsString RecordingClaim) :
    Option StatementProblem :=
  let inSession := claims.entries.filter fun (_, claim) => claim.sessionId = record.sessionId
  if inSession = [] then some .sessionMismatch
  else if inSession.any fun (address, _) => address ∈ record.claims then none
  else some .claimNotInSession

def sessionFailures (collected : Collected) : List (JsString × StatementProblem) :=
  collected.sessions.filterMap fun (hash, record) =>
    (sessionProblem record collected.claims).map fun problem => (hash, problem)

/-- The passing claims by the certificate or vouch each one names. -/
def namedLinks (claims : OrderedMap JsString RecordingClaim) :
    OrderedMap JsString (List RecordingClaim) :=
  claims.values.foldl (fun named claim =>
    match claim.deviceCert with
    | none => named
    | some address => named.set address ((named.get? address).getD [] ++ [claim])) .empty

def linkFailures (collected : Collected) : List (JsString × StatementProblem) :=
  collected.links.entries.filterMap fun (hash, link) =>
    match (namedLinks collected.claims).get? hash with
    | none => some (hash, .certificateNotClaimed)
    | some namedBy =>
        if namedBy.any fun claim => claim.deviceKey ≠ link.deviceKey then
          some (hash, .certificateDeviceMismatch)
        else none

def revocationFailures (collected : Collected) : List (JsString × StatementProblem) :=
  collected.revocations.entries.filterMap fun (hash, revocation) =>
    match collected.links.get? revocation.deviceLink with
    | none => some (hash, .revocationNotClaimed)
    | some link =>
        if revocationCovers revocation link revocation.deviceLink then none
        else some (hash, .revocationNotPermitted)

def allFailures (collected : Collected) : List (JsString × StatementProblem) :=
  collected.failures ++ receiptFailures collected ++ sessionFailures collected ++
    linkFailures collected ++ revocationFailures collected

/-- The addresses without bytes, then the named links that are not listed. -/
def allMissing (statements : List FetchedStatement) (collected : Collected) : List JsString :=
  collected.missing ++
    (namedLinks collected.claims).keys.filter fun address =>
      !(uniqueStatements statements).has address

/-! ## What is shown -/

/-- `timeOf(a) - timeOf(b) <= 0`, with unparseable times last. -/
def timeOrder (platform : Platform) (left right : JsString) : Bool :=
  match platform.dateParse left, platform.dateParse right with
  | some left, some right => left ≤ right
  | _, none => true
  | none, some _ => false

/-- `[...items].sort(by time)[0]`: the sort is stable. -/
def firstByTime (platform : Platform) (timeText : α → JsString) (items : List α) : Option α :=
  (items.insertionSort fun left right =>
    timeOrder platform (timeText left) (timeText right)).head?

def firstRevocation (platform : Platform) (linkAddress : JsString) (link : DeviceLink)
    (revocations : OrderedMap JsString DeviceRevocation) : Option DeviceRevocation :=
  firstByTime platform DeviceRevocation.revokedAt
    (revocations.values.filter fun revocation => revocationCovers revocation link linkAddress)

def revokedDeviceLink (platform : Platform) (revocation : DeviceRevocation)
    (receivedAt : Option JsString) : RevokedDeviceLink where
  signedBy := revocation.signedBy
  signerKey := revocation.signerKey
  reason := revocation.reason
  revokedAt := revocation.revokedAt
  receivedBeforeRevocation :=
    match receivedAt.bind platform.dateParse, platform.dateParse revocation.revokedAt with
    | some received, some revoked => received < revoked
    | _, _ => false

def verifiedSession (record : SessionRecord) : VerifiedSession where
  openedAt := record.openedAt
  closedAt := record.closedAt
  hostKey := record.hostKey
  devices := record.devices.map fun device => (device.deviceKey, device.spans)

def verifiedPerson : DeviceLink → VerifiedPerson
  | .vouch statement =>
      .vouch statement.personKey statement.personName statement.deviceLabel statement.hostKey
        statement.hostLabel statement.method statement.vouchedAt
  | .certificate statement =>
      .certificate statement.personKey statement.deviceLabel statement.issuedAt

/-- The certificate or vouch at the address the claim names. -/
def namedLink (collected : Collected) (claim : RecordingClaim) : Option (JsString × DeviceLink) :=
  claim.deviceCert.bind fun address => (collected.links.get? address).map (address, ·)

def earliestReceipt (platform : Platform) (collected : Collected) : Option HostReceipt :=
  firstByTime platform HostReceipt.receivedAt (collected.receipts.map Prod.snd)

def claimed (platform : Platform) (collected : Collected) (claim : RecordingClaim) :
    ClaimedRecording where
  deviceKey := claim.deviceKey
  startedAt := claim.startedAt
  endedAt := claim.endedAt
  sessionId := claim.sessionId
  session := (collected.sessions.head?).map fun (_, record) => verifiedSession record
  person := (namedLink collected claim).map fun (_, link) => verifiedPerson link
  deviceLink := (namedLink collected claim).map Prod.fst
  revocation := do
    let (address, link) ← namedLink collected claim
    let revocation ← firstRevocation platform address link collected.revocations
    return revokedDeviceLink platform revocation
      ((earliestReceipt platform collected).map HostReceipt.receivedAt)

/-- None where reading the claim a receipt names would throw. -/
def verifyRecordingStatements (platform : Platform) (blob : BlobDescriptor)
    (statements : List FetchedStatement) : Option RecordingProvenance :=
  let collected := collect platform blob statements
  let failures := allFailures collected
  let missing := allMissing statements collected
  if failures ≠ [] then some (.failed failures)
  else if missing ≠ [] then some (.unavailable missing)
  else
    match earliestReceipt platform collected with
    | some earliest =>
        match collected.claims.get? earliest.claim with
        | none => none
        | some claim =>
            some (.verified (claimed platform collected claim) earliest.receivedAt
              (earliest.hostKey = claim.deviceKey))
    | none =>
        match collected.claims.values with
        | claim :: _ => some (.deviceOnly (claimed platform collected claim))
        | [] => some .unverified

end Tapes.Provenance
