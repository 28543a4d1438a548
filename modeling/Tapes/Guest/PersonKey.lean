import Tapes.Machine.Run
import Tapes.Machine.Table
import Tapes.Provenance.Statements

namespace Tapes.Guest

open Tapes.Js Tapes.Provenance Tapes.Machine

/-! The person key on a guest, in an IndexedDB store that every tab of the guest shares.

A call reads in one transaction and writes in a later one.  Each stretch between two awaits is a
step, so a run is an interleaving of calls from any number of tabs.
-/

abbrev CallId := Nat

/-- A `Signed<DeviceCertificate>`. -/
abbrev Certificate := Signed DeviceCertificate

/-- What WebCrypto and the statement code supply.  A key pair is what IndexedDB keeps of one. -/
structure Crypto (KeyPair : Type) where
  exportPublicKey : KeyPair → JsString
  sign : KeyPair → DeviceCertificate → JsString
  statementAddress : Certificate → JsString
  toISOString : Int → JsString

structure StoredIdentity (KeyPair : Type) where
  keyPair : KeyPair
  certificate : Certificate
  backedUpAt : Option JsString
  passkeyRecordedAt : Option JsString
  joinedAt : Option JsString
deriving DecidableEq

structure PersonIdentity (KeyPair : Type) extends StoredIdentity KeyPair where
  publicKey : JsString
  certificateAddress : JsString
deriving DecidableEq

/-- What the store holds under the person's id.  `other` is a value that `isStoredIdentity` refuses. -/
inductive StoredValue (KeyPair : Type) where
  | identity (stored : StoredIdentity KeyPair)
  | other
deriving DecidableEq

/-- The fields that a call sets.  A field that is none is left as it is. -/
structure Stamps where
  backedUpAt : Option JsString := none
  passkeyRecordedAt : Option JsString := none
  joinedAt : Option JsString := none
deriving DecidableEq

variable {KeyPair : Type}

/-- `{ ...stored, ...stamps }`. -/
def StoredIdentity.stamp (stored : StoredIdentity KeyPair) (stamps : Stamps) :
    StoredIdentity KeyPair :=
  { stored with
    backedUpAt := stamps.backedUpAt <|> stored.backedUpAt
    passkeyRecordedAt := stamps.passkeyRecordedAt <|> stored.passkeyRecordedAt
    joinedAt := stamps.joinedAt <|> stored.joinedAt }

def toIdentity (crypto : Crypto KeyPair) (stored : StoredIdentity KeyPair) :
    PersonIdentity KeyPair :=
  { stored with
    publicKey := crypto.exportPublicKey stored.keyPair
    certificateAddress := crypto.statementAddress stored.certificate }

structure Device (KeyPair : Type) where
  keyPair : KeyPair
  label : JsString

def createDeviceCertificate (crypto : Crypto KeyPair) (device : Device KeyPair) (person : KeyPair)
    (issuedAt : Int) : Certificate :=
  let payload : DeviceCertificate :=
    { personKey := crypto.exportPublicKey person
      deviceKey := crypto.exportPublicKey device.keyPair
      deviceLabel := device.label
      issuedAt := crypto.toISOString issuedAt }
  ⟨payload, crypto.sign person payload⟩

/-! ## Calls -/

inductive UnlockedBy where
  | passphrase
  | passkey

structure Restored (KeyPair : Type) where
  keyPair : KeyPair
  unlockedBy : UnlockedBy
  unlockedAt : Int
  joinedAt : Option JsString

def Restored.unlockedStamp (crypto : Crypto KeyPair) (restored : Restored KeyPair) : Stamps :=
  match restored.unlockedBy with
  | .passkey => { passkeyRecordedAt := some (crypto.toISOString restored.unlockedAt) }
  | .passphrase => { backedUpAt := some (crypto.toISOString restored.unlockedAt) }

inductive Request (KeyPair : Type) where
  | create (device : Device KeyPair)
  | restore (device : Device KeyPair) (restored : Restored KeyPair)
  /-- `updateStored`, which every mark call is. -/
  | mark (publicKey : JsString) (fields : Stamps) (mismatch : JsString)

def markPersonKeyBackedUp (crypto : Crypto KeyPair) (publicKey : JsString) (time : Int) :
    Request KeyPair :=
  .mark publicKey { backedUpAt := some (crypto.toISOString time) }
    (js "The backup is for a different person key")

def markPersonKeyRecorded (crypto : Crypto KeyPair) (publicKey : JsString) (time : Int) :
    Request KeyPair :=
  .mark publicKey { passkeyRecordedAt := some (crypto.toISOString time) }
    (js "The record is for a different person key")

def markPersonKeyJoined (crypto : Crypto KeyPair) (publicKey : JsString) (time : Int) :
    Request KeyPair :=
  .mark publicKey { joinedAt := some (crypto.toISOString time) }
    (js "The join was for a different person key")

inductive Answer (KeyPair : Type) where
  | identity (identity : PersonIdentity KeyPair)
  | otherPersonKey
  | marked
  | threw (message : JsString)
deriving DecidableEq

/-- What a call does next. -/
inductive Phase (KeyPair : Type) where
  | reading
  /-- The read found a key, and its public key is compared with the call's. -/
  | comparing (stored : StoredIdentity KeyPair)
  | generating
  | certifying (keyPair : KeyPair)
  | adding (created : StoredIdentity KeyPair)
  /-- Another tab stored a key first. -/
  | rereading
  | putting (updated : StoredIdentity KeyPair)
  | answering (stored : StoredIdentity KeyPair)

structure Call (KeyPair : Type) where
  request : Request KeyPair
  phase : Phase KeyPair

structure Tabs (KeyPair : Type) where
  store : Option (StoredValue KeyPair)
  calls : Table CallId (Call KeyPair)
  answers : List (CallId × Answer KeyPair)

def start (store : Option (StoredValue KeyPair)) : Tabs KeyPair := ⟨store, Table.empty, []⟩

inductive Action (KeyPair : Type) where
  | begin (call : CallId) (request : Request KeyPair)
  /-- The next await of the call resolves. -/
  | resume (call : CallId)
  | generate (call : CallId) (keyPair : KeyPair)
  | certify (call : CallId) (now : Int)
  /-- The next await of the call rejects. -/
  | reject (call : CallId) (message : JsString)

namespace Tabs

/-- The call goes on to another phase. -/
def park (tabs : Tabs KeyPair) (call : CallId) (request : Request KeyPair)
    (phase : Phase KeyPair) : Tabs KeyPair :=
  { tabs with calls := tabs.calls.put call ⟨request, phase⟩ }

def answer (tabs : Tabs KeyPair) (call : CallId) (result : Answer KeyPair) : Tabs KeyPair :=
  { tabs with calls := tabs.calls.remove call, answers := tabs.answers ++ [(call, result)] }

def write (tabs : Tabs KeyPair) (stored : StoredIdentity KeyPair) : Tabs KeyPair :=
  { tabs with store := some (.identity stored) }

end Tabs

def notAnIdentity : JsString := js "The stored person key is not a key pair and certificate"

/-- What a call does with the key its first read found. -/
def found (tabs : Tabs KeyPair) (call : CallId) (request : Request KeyPair)
    (stored : StoredIdentity KeyPair) : Tabs KeyPair :=
  match request with
  | .create _ => tabs.park call request (.answering stored)
  | .restore _ _ | .mark _ _ _ => tabs.park call request (.comparing stored)

/-- What a call does when its first read found nothing. -/
def missed (tabs : Tabs KeyPair) (call : CallId) (request : Request KeyPair) : Tabs KeyPair :=
  match request with
  | .create _ => tabs.park call request .generating
  | .restore _ restored => tabs.park call request (.certifying restored.keyPair)
  | .mark _ _ mismatch => tabs.answer call (.threw mismatch)

def compared (crypto : Crypto KeyPair) (tabs : Tabs KeyPair) (call : CallId)
    (request : Request KeyPair) (stored : StoredIdentity KeyPair) : Tabs KeyPair :=
  match request with
  | .create _ => tabs
  | .restore _ restored =>
      if crypto.exportPublicKey stored.keyPair = crypto.exportPublicKey restored.keyPair then
        tabs.park call request (.putting (stored.stamp (restored.unlockedStamp crypto)))
      else tabs.answer call .otherPersonKey
  | .mark publicKey fields mismatch =>
      if crypto.exportPublicKey stored.keyPair = publicKey then
        tabs.park call request (.putting (stored.stamp fields))
      else tabs.answer call (.threw mismatch)

/-- The identity a call makes for a device that has none. -/
def newIdentity (crypto : Crypto KeyPair) (request : Request KeyPair) (keyPair : KeyPair)
    (now : Int) : Option (StoredIdentity KeyPair) :=
  match request with
  | .create device =>
      some ⟨keyPair, createDeviceCertificate crypto device keyPair now, none, none, none⟩
  | .restore device restored =>
      let created : StoredIdentity KeyPair :=
        ⟨keyPair, createDeviceCertificate crypto device keyPair now, none, none, none⟩
      some ((created.stamp (restored.unlockedStamp crypto)).stamp
        { joinedAt := restored.joinedAt.filter (· ≠ []) })
  | .mark _ _ _ => none

/-- `addRecord` found a record there. -/
def lost (tabs : Tabs KeyPair) (call : CallId) (request : Request KeyPair) : Tabs KeyPair :=
  match request with
  | .create _ => tabs.park call request .rereading
  | .restore _ _ | .mark _ _ _ => tabs.answer call .otherPersonKey

/-- `putRecord` resolved. -/
def wrote (tabs : Tabs KeyPair) (call : CallId) (request : Request KeyPair)
    (updated : StoredIdentity KeyPair) : Tabs KeyPair :=
  match request with
  | .create _ | .restore _ _ => tabs.park call request (.answering updated)
  | .mark _ _ _ => tabs.answer call .marked

def resume (crypto : Crypto KeyPair) (tabs : Tabs KeyPair) (call : CallId)
    (request : Request KeyPair) : Phase KeyPair → Option (Tabs KeyPair)
  | .reading =>
      match tabs.store with
      | none => some (missed tabs call request)
      | some .other => some (tabs.answer call (.threw notAnIdentity))
      | some (.identity stored) => some (found tabs call request stored)
  | .comparing stored => some (compared crypto tabs call request stored)
  | .adding created =>
      match tabs.store with
      | none => some ((tabs.write created).park call request (.answering created))
      | some _ => some (lost tabs call request)
  | .rereading =>
      match tabs.store with
      | none => some (tabs.answer call (.threw (js "The person key vanished while being created")))
      | some .other => some (tabs.answer call (.threw notAnIdentity))
      | some (.identity stored) => some (tabs.park call request (.answering stored))
  | .putting updated => some (wrote (tabs.write updated) call request updated)
  | .answering stored => some (tabs.answer call (.identity (toIdentity crypto stored)))
  | .generating | .certifying _ => none

def step (crypto : Crypto KeyPair) (tabs : Tabs KeyPair) : Action KeyPair → Option (Tabs KeyPair)
  | .begin call request =>
      if (tabs.calls call).isNone then some (tabs.park call request .reading) else none
  | .resume call =>
      (tabs.calls call).bind fun running => resume crypto tabs call running.request running.phase
  | .generate call keyPair =>
      match tabs.calls call with
      | some ⟨request, .generating⟩ => some (tabs.park call request (.certifying keyPair))
      | _ => none
  | .certify call now =>
      match tabs.calls call with
      | some ⟨request, .certifying keyPair⟩ =>
          (newIdentity crypto request keyPair now).map fun created =>
            tabs.park call request (.adding created)
      | _ => none
  | .reject call message =>
      (tabs.calls call).map fun _ => tabs.answer call (.threw message)

end Tapes.Guest
