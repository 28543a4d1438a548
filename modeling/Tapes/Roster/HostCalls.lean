import Tapes.Machine.Run
import Tapes.Machine.Table
import Tapes.Vouching.HostVouching

namespace Tapes.Roster

open Tapes.Js Tapes.Provenance Tapes.Machine
open Tapes.Vouching (VouchRequest VouchDetails HostPlatform CallId RequestId createDeviceVouch
  isValidPin pinMatches)

/-! The calls of the host that write the roster, between their awaits. The roster is one atomic
map: a write at the head of its queue is made or it fails, and then its call goes on. -/

/-- A device that waits to be vouched for. A call holds it, so it goes on when the request is
answered or dropped. -/
structure PendingRequest where
  request : VouchRequest
  deviceFingerprint : JsString
deriving DecidableEq

/-- Which method checks the PIN, with the new PIN of a `changePin` (none removes it). -/
inductive Guess where
  | enterPin (request : PendingRequest)
  | changePin (newPin : Option JsString)
deriving DecidableEq

/-- A call that awaits the hash of a new PIN. `compared` is the hash that the old PIN of a
`changePin` was compared with. -/
inductive Hashing where
  | join (personKey name : JsString) (certificate : FirstCertificate) (pin : JsString)
  | setPin (personKey pin : JsString)
  | changePin (personKey pin : JsString) (compared : PinHash)

def Hashing.pin : Hashing → JsString
  | .join _ _ _ pin | .setPin _ pin | .changePin _ pin _ => pin

/-- A queued task, with what its call has at hand for when it is done. -/
inductive CallTask where
  | countGuess (call : CallId) (pin : JsString) (guess : Guess)
  | clearFailures (call : CallId) (pin : JsString) (compared : PinHash) (guess : Guess)
  | savePin (call : CallId) (hash : Option PinHash) (compared : Option PinHash)
  | rename (call : CallId) (name : JsString) (certificate : FirstCertificate)
      (pin : Option (Option PinHash))
  | put (call : CallId) (name : JsString) (certificate : FirstCertificate)
      (pin : Option PinHash) (joinedAt : JsString)
  | unlock (call : CallId)
  | addVouch (call : CallId) (record : SignedVouch)
  | keepRecord (call : CallId) (stored : StoredPasskeyRecord)
  | markRevoked (address revokedAt revocation : JsString)

structure Write where
  personKey : JsString
  task : CallTask

/-- A call between two awaits when it has no write in the queue. A `joining` one has found its
person not on the roster, and a `removing` one is about to save that there is no PIN. -/
inductive Waiting where
  | hashing (next : Hashing)
  | joining (personKey name : JsString) (certificate : FirstCertificate) (pin : Option PinHash)
  | findingPerson (personKey oldPin : JsString) (newPin : Option JsString)
  | findingPin (personKey : JsString)
  | matching (personKey pin : JsString) (stored : PinHash) (failures : Nat) (guess : Guess)
  | removing (personKey : JsString) (compared : PinHash)
  | vouching (request : PendingRequest) (method : VouchMethod)
  | signing (request : PendingRequest) (personKey : JsString) (details : VouchDetails)
  | unlocking (personKey : JsString)
  | listing (personKey : JsString) (stored : StoredPasskeyRecord)
  | storing (personKey : JsString) (stored : StoredPasskeyRecord)

inductive CallAnswer where
  | ok
  | undefined
  | threw
  | badPin
  | unknownPerson
  | wrongPin (attemptsLeft : Nat)
  | locked
  | noPin
  | notPending
  | notYours
  | tooManyRecords
deriving DecidableEq

/-- `cleared` is the clearing of the count after the typed PIN matched `compared`, with the
person's PIN at that moment and the hashes that the cleared failures were counted against.
`changed` is the write of a `changePin`, with the PIN that it replaces. -/
inductive CallEvent where
  | cleared (call : CallId) (personKey pin : JsString) (compared : PinHash)
      (held : Option PinHash) (erased : List PinHash)
  | changed (call : CallId) (personKey : JsString) (compared : PinHash) (held : Option PinHash)
  | vouched (call : CallId) (personKey : JsString) (record : SignedVouch)
  | answered (call : CallId) (answer : CallAnswer)
deriving DecidableEq

/-- `waiting` holds each call at most once. `counted` are the hashes that each person's failures were
counted against, and `pinWrites` the new PINs that were written (none for a removal), newest
first. -/
structure CallHost where
  people : List RosterEntry
  writes : List Write
  requests : Table RequestId PendingRequest
  waiting : List (CallId × Waiting)
  nextCall : CallId
  counted : JsString → List PinHash
  pinWrites : List (JsString × Option PinHash)
  log : List CallEvent

def CallHost.opened : CallHost :=
  ⟨[], [], Table.empty, [], 0, fun _ => [], [], []⟩

def CallHost.enqueue (host : CallHost) (personKey : JsString) (task : CallTask) : CallHost :=
  { host with writes := host.writes ++ [⟨personKey, task⟩] }

def CallHost.unpark (host : CallHost) (call : CallId) : CallHost :=
  { host with waiting := host.waiting.filter fun other => other.1 ≠ call }

def CallHost.park (host : CallHost) (call : CallId) (waiting : Waiting) : CallHost :=
  { host.unpark call with waiting := (call, waiting) :: (host.unpark call).waiting }

def CallHost.waitingOf (host : CallHost) (call : CallId) : Option Waiting :=
  (host.waiting.find? fun other => other.1 = call).map Prod.snd

def CallHost.note (host : CallHost) (event : CallEvent) : CallHost :=
  { host with log := event :: host.log }

def CallHost.answer (host : CallHost) (call : CallId) (answer : CallAnswer) : CallHost :=
  (host.unpark call).note (.answered call answer)

/-! ## Writes -/

def CallTask.toTask (personKey : JsString) : CallTask → Task
  | .countGuess .. => .update personKey Roster.countGuess
  | .clearFailures .. => .update personKey Roster.clearFailures
  | .savePin _ hash _ => .update personKey (Roster.savePin hash)
  | .rename _ name _ pin => .update personKey (Roster.rename name pin)
  | .put _ name certificate pin joinedAt =>
      .put (joinEntry personKey name certificate pin joinedAt)
  | .unlock _ => .update personKey Roster.unlock
  | .addVouch _ record => .update personKey (Roster.addVouch record)
  | .keepRecord _ stored => .update personKey (Roster.keepRecord stored)
  | .markRevoked address revokedAt revocation =>
      .update personKey (Roster.markRevoked address revokedAt revocation)

def CallTask.isPut : CallTask → Bool
  | .put .. => true
  | _ => false

/-- The new PIN that the update carries, or its removal. -/
def CallTask.carriedPin : CallTask → Option (Option PinHash)
  | .savePin _ hash _ => some hash
  | .rename _ _ _ pin => pin
  | _ => none

/-- The write sets or removes the person's PIN. -/
def CallTask.setsPin (task : CallTask) : Bool := task.isPut || task.carriedPin.isSome

/-- The write clears the count of failures. -/
def CallTask.resets : CallTask → Bool
  | .clearFailures .. | .unlock _ => true
  | task => task.setsPin

/-- The hashes behind the count, after a write that gave the entry. -/
def countedAfter (task : CallTask) (written : Option RosterEntry) (before : List PinHash) :
    List PinHash :=
  match written, task with
  | none, _ => before
  | some entry, .countGuess .. => entry.pin.toList ++ before
  | some _, task => if task.resets then [] else before

/-- The roster after the write, with what the results speak about. -/
def CallHost.apply (host : CallHost) (personKey : JsString) (task : CallTask) : CallHost :=
  let written := (task.toTask personKey).written host.people
  { host with
    people := (task.toTask personKey).apply host.people
    counted := Function.update host.counted personKey
      (countedAfter task written (host.counted personKey))
    pinWrites :=
      match written, task.carriedPin with
      | some _, some pin => (personKey, pin) :: host.pinWrites
      | _, _ => host.pinWrites }

def CallHost.pinOf (host : CallHost) (personKey : JsString) : Option PinHash :=
  (findPerson host.people personKey).bind RosterEntry.pin

/-- The write at the head of the queue is made, and its call goes on. -/
def perform (host : CallHost) (personKey : JsString) (task : CallTask) : CallHost :=
  let written := (task.toTask personKey).written host.people
  let after := host.apply personKey task
  match task with
  | .countGuess call pin guess =>
      match written with
      | some { pin := some stored, pinFailures, .. } =>
          after.park call (.matching personKey pin stored (pinFailures.getD 0) guess)
      | _ => after.park call (.findingPin personKey)
  | .clearFailures call pin compared guess =>
      let cleared := after.note
        (.cleared call personKey pin compared (host.pinOf personKey) (host.counted personKey))
      match guess with
      | .enterPin request => cleared.park call (.vouching request .pin)
      | .changePin none => cleared.park call (.removing personKey compared)
      | .changePin (some newPin) =>
          cleared.park call (.hashing (.changePin personKey newPin compared))
  | .savePin call _ compared =>
      match written, compared with
      | none, _ => after.answer call .unknownPerson
      | some _, none => after.answer call .ok
      | some _, some compared =>
          (after.note (.changed call personKey compared (host.pinOf personKey))).answer call .ok
  | .rename call name certificate pin =>
      match written with
      | some _ => after.answer call .ok
      | none => after.park call (.joining personKey name certificate pin.join)
  | .put call .. => after.answer call .ok
  | .unlock call => after.answer call .ok
  | .addVouch call record =>
      match written with
      | some _ => (after.note (.vouched call personKey record)).answer call .ok
      | none => after.answer call .ok
  | .keepRecord call _ =>
      match written, findPerson host.people personKey with
      | some _, _ => after.answer call .ok
      | none, some _ => after.answer call .tooManyRecords
      | none, none => after.answer call .unknownPerson
  | .markRevoked .. => after

/-! ## The other awaits -/

/-- A call goes on with the hash of its new PIN. -/
def afterHash (host : CallHost) (call : CallId) (hash : PinHash) : Hashing → CallHost
  | .join personKey name certificate _ =>
      host.enqueue personKey (.rename call name certificate (some (some hash)))
  | .setPin personKey _ => host.enqueue personKey (.savePin call (some hash) none)
  | .changePin personKey _ compared =>
      host.enqueue personKey (.savePin call (some hash) (some compared))

def vouchRecord (platform : HostPlatform) (request : PendingRequest) (details : VouchDetails) :
    SignedVouch :=
  let vouch := createDeviceVouch platform details
  { address := platform.statementAddress vouch
    deviceKey := vouch.payload.deviceKey
    deviceLabel := vouch.payload.deviceLabel
    deviceFingerprint := request.deviceFingerprint
    method := vouch.payload.method
    vouchedAt := vouch.payload.vouchedAt
    revokedAt := none
    revocation := none }

/-- Whether a person keeps a record under the credential id. -/
def keepsRecord (credentialId : JsString) (entry : RosterEntry) : Bool :=
  (entry.passkeyRecords.getD []).any fun held => held.credentialId = credentialId

/-- One await of a call that has no write in the queue resolves, other than that of a hash. -/
def resumeWaiting (platform : HostPlatform) (host : CallHost) (call : CallId)
    (hostLabel : JsString) (now : Int) : Waiting → Option CallHost
  | .hashing _ => none
  | .joining personKey name certificate pin =>
      some ((host.unpark call).enqueue personKey
        (.put call name certificate pin (platform.toISOString now)))
  | .findingPerson personKey oldPin newPin =>
      match findPerson host.people personKey with
      | none => some (host.answer call .unknownPerson)
      | some _ => some ((host.unpark call).enqueue personKey
          (.countGuess call oldPin (.changePin newPin)))
  | .findingPin personKey =>
      if (host.pinOf personKey).isSome then some (host.answer call .locked)
      else some (host.answer call .noPin)
  | .matching personKey pin stored failures guess =>
      if pinMatches platform pin stored then
        some ((host.unpark call).enqueue personKey (.clearFailures call pin stored guess))
      else if maxPinFailures ≤ failures then some (host.answer call .locked)
      else some (host.answer call (.wrongPin (maxPinFailures - failures)))
  | .removing personKey compared =>
      some ((host.unpark call).enqueue personKey (.savePin call none (some compared)))
  | .vouching request method =>
      match findPerson host.people request.request.personKey with
      | none => some (host.answer call .threw)
      | some person => some (host.park call (.signing request person.personKey
          { request := request.request
            hostLabel
            personName := person.name
            method
            firstCertificate := person.firstCertificate.address
            vouchedAt := now }))
  | .signing request personKey details =>
      some ((host.unpark call).enqueue personKey
        (.addVouch call (vouchRecord platform request details)))
  | .unlocking personKey =>
      match findPerson host.people personKey with
      | none => some (host.answer call .unknownPerson)
      | some _ => some ((host.unpark call).enqueue personKey (.unlock call))
  | .listing personKey stored =>
      match host.people.find? (keepsRecord stored.credentialId) with
      | none => some (host.park call (.storing personKey stored))
      | some owner =>
          if owner.personKey = personKey then some (host.park call (.storing personKey stored))
          else some (host.answer call .notYours)
  | .storing personKey stored =>
      some ((host.unpark call).enqueue personKey (.keepRecord call stored))

/-- A `join` and a `keepRecord` (the `put` of the passkey records) have passed their checks of
what was sent, and a `markRevoked` has delivered its revocation. -/
inductive CallAction where
  | ask (id : RequestId) (request : PendingRequest)
  | close (id : RequestId)
  | join (personKey name : JsString) (certificate : FirstCertificate)
      (pin : Option (Option JsString))
  | confirm (id : RequestId)
  | enterPin (id : RequestId) (pin : JsString)
  | changePin (personKey oldPin : JsString) (newPin : Option JsString)
  | setPin (personKey : JsString) (newPin : Option JsString)
  | unlockPin (personKey : JsString)
  | keepRecord (personKey : JsString) (stored : StoredPasskeyRecord)
  | markRevoked (personKey address revokedAt revocation : JsString)
  | resume (call : CallId) (hostLabel : JsString) (now : Int)
  | hashed (call : CallId) (hash : PinHash)
  | write
  | failWrite
  | throw (call : CallId)
  | restart

/-- The host with a new call's id used up. -/
def CallHost.started (host : CallHost) : CallHost := { host with nextCall := host.nextCall + 1 }

/-- A write that fails, and an await that does, throws in its call. -/
def callStep (platform : HostPlatform) (host : CallHost) : CallAction → Option CallHost
  | .ask id request =>
      if (findPerson host.people request.request.personKey).isSome && (host.requests id).isNone then
        some { host with requests := host.requests.put id request }
      else none
  | .close id => some { host with requests := host.requests.remove id }
  | .join personKey name certificate pin =>
      match pin with
      | none => some (host.started.enqueue personKey (.rename host.nextCall name certificate none))
      | some none =>
          some (host.started.enqueue personKey (.rename host.nextCall name certificate (some none)))
      | some (some pin) =>
          if isValidPin pin then
            some (host.started.park host.nextCall (.hashing (.join personKey name certificate pin)))
          else none
  | .confirm id =>
      match host.requests id with
      | none => some (host.started.answer host.nextCall .undefined)
      | some request => some (host.started.park host.nextCall (.vouching request .operator))
  | .enterPin id pin =>
      match host.requests id with
      | none => some (host.started.answer host.nextCall .notPending)
      | some request => some (host.started.enqueue request.request.personKey
          (.countGuess host.nextCall pin (.enterPin request)))
  | .changePin personKey oldPin newPin =>
      if newPin.all isValidPin then
        some (host.started.park host.nextCall (.findingPerson personKey oldPin newPin))
      else some (host.started.answer host.nextCall .badPin)
  | .setPin personKey newPin =>
      match newPin with
      | none => some (host.started.enqueue personKey (.savePin host.nextCall none none))
      | some pin =>
          if isValidPin pin then
            some (host.started.park host.nextCall (.hashing (.setPin personKey pin)))
          else some (host.started.answer host.nextCall .badPin)
  | .unlockPin personKey => some (host.started.park host.nextCall (.unlocking personKey))
  | .keepRecord personKey stored =>
      some (host.started.park host.nextCall (.listing personKey stored))
  | .markRevoked personKey address revokedAt revocation =>
      some (host.enqueue personKey (.markRevoked address revokedAt revocation))
  | .resume call hostLabel now =>
      (host.waitingOf call).bind (resumeWaiting platform host call hostLabel now)
  | .hashed call hash =>
      match host.waitingOf call with
      | some (.hashing next) =>
          if platform.derives next.pin hash then some (afterHash (host.unpark call) call hash next)
          else none
      | _ => none
  | .write =>
      match host.writes with
      | [] => none
      | first :: rest => some (perform { host with writes := rest } first.personKey first.task)
  | .failWrite =>
      match host.writes with
      | [] => none
      | _ :: rest => some { host with writes := rest }
  | .throw call =>
      match host.waitingOf call with
      | none => none
      | some _ => some (host.answer call .threw)
  | .restart => some { host with
      writes := [], requests := Table.empty, waiting := [] }

end Tapes.Roster
