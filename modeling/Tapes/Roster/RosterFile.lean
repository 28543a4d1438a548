import Tapes.Js.JsonIndent
import Tapes.Provenance.RereadData
import Tapes.Roster.RosterEntry

namespace Tapes.Roster

open Tapes.Js Tapes.Provenance

/-! The JSON file of a roster: what the host writes, and the reader that checks it. -/

/-! ## Writing -/

def wholeNumber (value : Nat) : JsValue :=
  .number ((ofDecimal value 0).elim (.infinite false) (.finite false))

def optionalValue (write : α → JsValue) (value : Option α) : JsValue := value.elim .undefined write

def pinHashMembers (pin : PinHash) : List (JsString × JsValue) :=
  [(js "salt", .string pin.salt), (js "hash", .string pin.hash),
    (js "iterations", wholeNumber pin.iterations)]

def methodText : VouchMethod → JsString
  | .operator => js "operator"
  | .pin => js "pin"

def signedVouchMembers (vouch : SignedVouch) : List (JsString × JsValue) :=
  [(js "address", .string vouch.address), (js "deviceKey", .string vouch.deviceKey),
    (js "deviceLabel", .string vouch.deviceLabel),
    (js "deviceFingerprint", .string vouch.deviceFingerprint),
    (js "method", .string (methodText vouch.method)), (js "vouchedAt", .string vouch.vouchedAt),
    (js "revokedAt", optionalValue .string vouch.revokedAt),
    (js "revocation", optionalValue .string vouch.revocation)]

def passkeyRecordMembers (stored : StoredPasskeyRecord) : List (JsString × JsValue) :=
  [(js "credentialId", .string stored.credentialId), (js "tokenHash", .string stored.tokenHash),
    (js "record", .string stored.record), (js "storedAt", .string stored.storedAt)]

def firstCertificateMembers (certificate : FirstCertificate) : List (JsString × JsValue) :=
  [(js "address", .string certificate.address), (js "signed", certificate.signed.toValue)]

/-- The members of an entry's object. -/
inductive Field where
  | personKey
  | name
  | firstCertificate
  | pin
  | pinFailures
  | vouches
  | passkeyRecords
  | joinedAt
deriving DecidableEq

def Field.all : List Field :=
  [.personKey, .name, .firstCertificate, .pin, .pinFailures, .vouches, .passkeyRecords, .joinedAt]

def Field.key : Field → JsString
  | .personKey => js "personKey"
  | .name => js "name"
  | .firstCertificate => js "firstCertificate"
  | .pin => js "pin"
  | .pinFailures => js "pinFailures"
  | .vouches => js "vouches"
  | .passkeyRecords => js "passkeyRecords"
  | .joinedAt => js "joinedAt"

def Field.value (entry : RosterEntry) : Field → JsValue
  | .personKey => .string entry.personKey
  | .name => .string entry.name
  | .firstCertificate => .object (firstCertificateMembers entry.firstCertificate)
  | .pin => optionalValue (fun pin => .object (pinHashMembers pin)) entry.pin
  | .pinFailures => optionalValue wholeNumber entry.pinFailures
  | .vouches => optionalValue
      (fun vouches => .array (vouches.map fun vouch => .object (signedVouchMembers vouch)))
      entry.vouches
  | .passkeyRecords => optionalValue
      (fun records => .array (records.map fun stored => .object (passkeyRecordMembers stored)))
      entry.passkeyRecords
  | .joinedAt => .string entry.joinedAt

/-- The order in which the entry's object came by its members. A change adds the ones it sets
at the end, so the order is that of the changes. -/
structure Order (order : List Field) (entry : RosterEntry) : Prop where
  distinct : order.Nodup
  present : ∀ field ∈ Field.all, (field.value entry).isUndefined = false → field ∈ order

instance (order : List Field) (entry : RosterEntry) : Decidable (Order order entry) :=
  decidable_of_iff (order.Nodup ∧
      ∀ field ∈ Field.all, (field.value entry).isUndefined = false → field ∈ order)
    ⟨fun ⟨distinct, present⟩ => ⟨distinct, present⟩, fun order => ⟨order.distinct, order.present⟩⟩

def entryMembers (order : List Field) (entry : RosterEntry) : List (JsString × JsValue) :=
  order.map fun field => (field.key, field.value entry)

def rosterValue (layout : RosterEntry → List Field) (people : List RosterEntry) : JsValue :=
  .object [(js "people",
    .array (people.map fun entry => .object (entryMembers (layout entry) entry)))]

/-- What `writeRoster` puts in the file. -/
def rosterText (layout : RosterEntry → List Field) (people : List RosterEntry) : JsString :=
  stringifyIndented (js "  ") [] (rosterValue layout people) ++ js "\n"

/-! ## Reading -/

def isString (value : JsValue) : Bool := value.string?.isSome

/-- Whether a magnitude is a whole number. One is `2 ^ 1074` units. -/
def isWhole (magnitude : Magnitude) : Bool :=
  magnitude.mantissa % 2 ^ (1074 - magnitude.scale) = 0

def wholeOf (magnitude : Magnitude) : Nat :=
  magnitude.mantissa * 2 ^ (magnitude.scale - 1074) / 2 ^ (1074 - magnitude.scale)

/-- `Number.isInteger`. -/
def isInteger : JsValue → Bool
  | .number (.finite _ magnitude) => isWhole magnitude
  | _ => false

def isPinHash (pin : JsValue) : Bool :=
  pin.isObjectLike && isString (pin.get (js "salt")) && isString (pin.get (js "hash")) &&
    isInteger (pin.get (js "iterations"))

def isOptionalString (value : JsValue) : Bool := value.isUndefined || isString value

def isStoredPasskeyRecord (record : JsValue) : Bool :=
  record.isObjectLike && isString (record.get (js "credentialId")) &&
    isString (record.get (js "tokenHash")) && isString (record.get (js "record")) &&
    isString (record.get (js "storedAt"))

def isSignedVouch (vouch : JsValue) : Bool :=
  vouch.isObjectLike && isString (vouch.get (js "address")) &&
    isString (vouch.get (js "deviceKey")) && isString (vouch.get (js "deviceLabel")) &&
    isString (vouch.get (js "deviceFingerprint")) &&
    (vouchMethod? (vouch.get (js "method"))).isSome && isString (vouch.get (js "vouchedAt")) &&
    isOptionalString (vouch.get (js "revokedAt")) && isOptionalString (vouch.get (js "revocation"))

/-- `value === undefined || value.every(holds)`, none where the call throws. -/
def everyItem (holds : JsValue → Bool) : JsValue → Option Bool
  | .undefined => some true
  | .array items => some (items.all holds)
  | _ => none

/-- None where the check throws. -/
def isRosterEntry (entry : JsValue) : Option Bool :=
  let certificate := entry.get (js "firstCertificate")
  let pin := entry.get (js "pin")
  let failures := entry.get (js "pinFailures")
  if entry.isObjectLike && isString (entry.get (js "personKey")) &&
      isString (entry.get (js "name")) && isString (certificate.get (js "address")) &&
      isString ((certificate.get (js "signed")).get (js "signature")) &&
      (pin.isUndefined || isPinHash pin) && (failures.isUndefined || isInteger failures) then do
    let vouches ← everyItem isSignedVouch (entry.get (js "vouches"))
    if vouches = false then return false
    let records ← everyItem isStoredPasskeyRecord (entry.get (js "passkeyRecords"))
    return records && isString (entry.get (js "joinedAt"))
  else some false

/-! An entry that passes the check, as the host's code reads it. A number that is negative
or no integer is not read: no host writes one. -/

def readNumber : JsValue → Option Nat
  | .number (.finite false magnitude) =>
      if isWhole magnitude then some (wholeOf magnitude) else none
  | _ => none

def readOptional (read : JsValue → Option α) (value : JsValue) : Option (Option α) :=
  if value.isUndefined then some none else (read value).map some

def readItems (read : JsValue → Option α) (value : JsValue) : Option (List α) :=
  value.array?.bind (List.mapM read)

def readPinHash (value : JsValue) : Option PinHash := do
  let salt ← stringField value "salt"
  let hash ← stringField value "hash"
  let iterations ← readNumber (value.get (js "iterations"))
  return ⟨salt, hash, iterations⟩

def readSignedVouch (value : JsValue) : Option SignedVouch := do
  let address ← stringField value "address"
  let deviceKey ← stringField value "deviceKey"
  let deviceLabel ← stringField value "deviceLabel"
  let deviceFingerprint ← stringField value "deviceFingerprint"
  let method ← vouchMethod? (value.get (js "method"))
  let vouchedAt ← stringField value "vouchedAt"
  let revokedAt ← optionalStringField value "revokedAt"
  let revocation ← optionalStringField value "revocation"
  return ⟨address, deviceKey, deviceLabel, deviceFingerprint, method, vouchedAt, revokedAt,
    revocation⟩

def readPasskeyRecord (value : JsValue) : Option StoredPasskeyRecord := do
  let credentialId ← stringField value "credentialId"
  let tokenHash ← stringField value "tokenHash"
  let record ← stringField value "record"
  let storedAt ← stringField value "storedAt"
  return ⟨credentialId, tokenHash, record, storedAt⟩

def readFirstCertificate (value : JsValue) : Option FirstCertificate := do
  let signed := value.get (js "signed")
  let address ← stringField value "address"
  let signature ← stringField signed "signature"
  return ⟨address, ⟨signed.get (js "payload"), signature⟩⟩

def readEntry (value : JsValue) : Option RosterEntry := do
  let personKey ← stringField value "personKey"
  let name ← stringField value "name"
  let firstCertificate ← readFirstCertificate (value.get (js "firstCertificate"))
  let pin ← readOptional readPinHash (value.get (js "pin"))
  let pinFailures ← readOptional readNumber (value.get (js "pinFailures"))
  let vouches ← readOptional (readItems readSignedVouch) (value.get (js "vouches"))
  let passkeyRecords ← readOptional (readItems readPasskeyRecord) (value.get (js "passkeyRecords"))
  let joinedAt ← stringField value "joinedAt"
  return ⟨personKey, name, firstCertificate, pin, pinFailures, vouches, passkeyRecords, joinedAt⟩

/-- The items that pass, none where a check throws. -/
def filterItems (holds : JsValue → Option Bool) : List JsValue → Option (List JsValue)
  | [] => some []
  | item :: rest => do
      let kept ← holds item
      let others ← filterItems holds rest
      return if kept then item :: others else others

/-- `parsed.people`, none where the text is no JSON or has no list of people. -/
def filePeople (text : JsString) : Option (List JsValue) := do
  let parsed ← parse text
  (parsed.get (js "people")).array?

/-- `readRoster` of a file's text, with its entries as they are in the file; none where it throws. -/
def readPeople (text : JsString) : Option (List JsValue) :=
  (filePeople text).bind (filterItems isRosterEntry)

/-- `readRoster`, with its entries as the host's code reads them. -/
def readRoster (text : JsString) : Option (List RosterEntry) :=
  (readPeople text).bind (List.mapM readEntry)

/-- Without a file the roster is empty. -/
def readFile (file : Option JsString) : Option (List RosterEntry) :=
  file.elim (some []) readRoster

theorem readFile_some (text : JsString) : readFile (some text) = readRoster text := rfl

end Tapes.Roster
