import Tapes.Provenance.PersonKeyBackup
import Tapes.Provenance.Statements

namespace Tapes.Challenges

open Tapes.Js Tapes.Provenance

/-! The requests that a guest signs over a host's challenge, and their checks. -/

def syncProofType : JsString := js "tapes/sync-proof@1"
def joinRequestType : JsString := js "tapes/join@1"
def passkeyRecordWriteType : JsString := js "tapes/passkey-record@1"

/-- `certificate` is the address of the certificate that comes with the request. -/
structure JoinRequest where
  personKey : JsString
  personName : JsString
  certificate : JsString
  challenge : JsString
deriving DecidableEq

/-- `record` is the digest of the record. -/
structure PasskeyRecordWrite where
  personKey : JsString
  credentialId : JsString
  record : JsString
  challenge : JsString
deriving DecidableEq

def joinRequest? (payload : JsValue) : Option JoinRequest := do
  guard (hasType payload joinRequestType)
  let personKey ← stringField payload "personKey"
  let personName ← stringField payload "personName"
  let certificate ← stringField payload "certificate"
  let challenge ← stringField payload "challenge"
  return ⟨personKey, personName, certificate, challenge⟩

def passkeyRecordWrite? (payload : JsValue) : Option PasskeyRecordWrite := do
  guard (hasType payload passkeyRecordWriteType)
  let personKey ← stringField payload "personKey"
  let credentialId ← stringField payload "credentialId"
  let record ← stringField payload "record"
  let challenge ← stringField payload "challenge"
  return ⟨personKey, credentialId, record, challenge⟩

inductive RequestProblem where
  | malformed
  | badSignature
  | wrongRecord
deriving DecidableEq

def checkJoinRequest (platform : Platform) (signed : Signed JsValue) :
    Except RequestProblem JoinRequest :=
  match joinRequest? signed.payload with
  | none => .error .malformed
  | some request =>
      if verifyStatement platform signed request.personKey then .ok request
      else .error .badSignature

def passkeyRecordDigest (platform : Platform) (text : JsString) : JsString :=
  sha256Hex platform (utf8Encode text)

def checkPasskeyRecordWrite (platform : Platform) (signed : Signed JsValue) (record : JsString) :
    Except RequestProblem PasskeyRecordWrite :=
  match passkeyRecordWrite? signed.payload with
  | none => .error .malformed
  | some write =>
      if verifyStatement platform signed write.personKey = false then .error .badSignature
      else if write.record ≠ passkeyRecordDigest platform record then .error .wrongRecord
      else .ok write

/-- The device key that the proof is for. -/
def checkSyncProof (platform : Platform) (signed : Signed JsValue) (challenge : JsString) :
    Option JsString := do
  guard (hasType signed.payload syncProofType)
  guard ((signed.payload.get (js "challenge")).string? = some challenge)
  let deviceKey ← stringField signed.payload "deviceKey"
  if verifyStatement platform signed deviceKey then some deviceKey else none

/-- Whether the record is a passkey record for the credential id that the write names, of the
person who signed the write. -/
def isRecordFor (write : PasskeyRecordWrite) (record : JsString) : Bool :=
  match parseBackupText record with
  | .error _ => false
  | .ok backup =>
      match backup.unlock with
      | .passphrase _ => false
      | .passkey _ credentialId =>
          toBase64Url credentialId = write.credentialId ∧
            toBase64Url backup.publicKey = write.personKey

end Tapes.Challenges
