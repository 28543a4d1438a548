import Tapes.Machine.Run
import Tapes.Machine.Table
import Tapes.Vouching.VouchRevocation
import Tapes.Vouching.RevokedDeviceKeys

namespace Tapes.Vouching

open Tapes.Js Tapes.Machine
open Tapes.Roster (FirstCertificate PinHash RosterEntry SignedVouch clearFailures countGuess failuresOf
  joinEntry maxPinFailures rename savePin unlock)

/-! Guessing a PIN on a host whose roster writes run one at a time. A write in the queue
holds the rest of the call that waits for it, up to that call's next await. -/

/-- Which method checks the PIN, with the new PIN of a `changePin` (none removes it). -/
inductive Guess where
  | enterPin
  | changePin (newPin : Option JsString)
deriving DecidableEq

inductive Amendment where
  | addVouch (record : SignedVouch)
  | markRevoked (address revokedAt revocation : JsString)
  | passkeys

/-- A queued task of `createPersonRoster`, for one person. A `savePin` without a call is that of
`setPin`, and `amend` is any write that leaves the name, the PIN and the count alone. -/
inductive Task where
  | countGuess (call : CallId) (pin : JsString) (guess : Guess)
  | clearFailures (call : CallId) (guess : Guess)
  | savePin (call : Option (CallId × Guess)) (hash : Option PinHash)
  | rename (name : JsString) (firstCertificate : FirstCertificate) (pin : Option (Option PinHash))
      (joinedAt : JsString)
  | put (name : JsString) (firstCertificate : FirstCertificate) (pin : Option PinHash)
      (joinedAt : JsString)
  | unlock
  | amend (amendment : Amendment)

structure Write where
  personKey : JsString
  task : Task

/-- A call between two awaits when it has no write in the queue. -/
inductive Waiting where
  | findingPerson (personKey oldPin : JsString) (newPin : Option JsString)
  | findingPin (personKey : JsString) (guess : Guess)
  | matching (personKey pin : JsString) (stored : PinHash) (failures : Nat) (guess : Guess)
  | hashing (personKey newPin : JsString)
deriving DecidableEq

inductive PinAnswer where
  | badPin
  | unknownPerson
  | wrongPin (attemptsLeft : Nat)
  | locked
  | noPin
  | ok
deriving DecidableEq

/-- `compared` is a call of `pinMatches`, and `answered` has the guess that the call was made with.
An `enterPin` answers `ok` here when its PIN is right, and goes on in `vouchFor`. -/
inductive PinEvent where
  | compared (call : CallId) (personKey : JsString)
  | answered (call : CallId) (personKey : JsString) (guess : Guess) (answer : PinAnswer)
  | notPending (call : CallId)
deriving DecidableEq

/-- `people` is the roster on disk, and `requests` the person of each pending request. -/
structure PinHost where
  people : PersonRoster
  writes : List Write
  requests : Table RequestId JsString
  waiting : Table CallId Waiting
  nextCall : CallId
  log : List PinEvent

def PinHost.opened : PinHost := ⟨fun _ => none, [], Table.empty, Table.empty, 0, []⟩

def PinHost.enqueue (host : PinHost) (personKey : JsString) (task : Task) : PinHost :=
  { host with writes := host.writes ++ [⟨personKey, task⟩] }

def PinHost.park (host : PinHost) (call : CallId) (waiting : Waiting) : PinHost :=
  { host with waiting := host.waiting.put call waiting }

def PinHost.note (host : PinHost) (event : PinEvent) : PinHost :=
  { host with log := event :: host.log }

def PinHost.answer (host : PinHost) (call : CallId) (personKey : JsString) (guess : Guess)
    (answer : PinAnswer) : PinHost :=
  { host with waiting := host.waiting.remove call }.note (.answered call personKey guess answer)

def Amendment.apply : Amendment → RosterEntry → Option RosterEntry
  | .addVouch record => Roster.addVouch record
  | .markRevoked address revokedAt revocation => Roster.markRevoked address revokedAt revocation
  | .passkeys => some

/-- The host after an update of the person's entry, and what was written. -/
def PinHost.update (host : PinHost) (personKey : JsString)
    (change : RosterEntry → Option RosterEntry) : PinHost × Option RosterEntry :=
  let (people, written) := host.people.update personKey change
  ({ host with people }, written)

/-- The task at the head of the queue runs, and the call that waited for it goes on. -/
def perform (host : PinHost) (personKey : JsString) : Task → PinHost
  | .countGuess call pin guess =>
      match host.update personKey countGuess with
      | (counted, some { pin := some stored, pinFailures, .. }) =>
          (counted.note (.compared call personKey)).park call
            (.matching personKey pin stored (pinFailures.getD 0) guess)
      | (counted, _) => counted.park call (.findingPin personKey guess)
  | .clearFailures call guess =>
      let cleared := (host.update personKey clearFailures).1
      match guess with
      | .enterPin => cleared.answer call personKey guess .ok
      | .changePin none => cleared.enqueue personKey (.savePin (some (call, guess)) none)
      | .changePin (some newPin) => cleared.park call (.hashing personKey newPin)
  | .savePin call hash =>
      match host.update personKey (savePin hash), call with
      | (saved, _), none => saved
      | (saved, some _), some (call, guess) => saved.answer call personKey guess .ok
      | (saved, none), some (call, guess) => saved.answer call personKey guess .unknownPerson
  | .rename name firstCertificate pin joinedAt =>
      match host.update personKey (rename name pin) with
      | (renamed, some _) => renamed
      | (same, none) => same.enqueue personKey (.put name firstCertificate pin.join joinedAt)
  | .put name firstCertificate pin joinedAt =>
      { host with
        people := Function.update host.people personKey
          (some (joinEntry personKey name firstCertificate pin joinedAt)) }
  | .unlock => (host.update personKey unlock).1
  | .amend amendment => (host.update personKey amendment.apply).1

inductive PinAction where
  | ask (id : RequestId) (personKey : JsString)
  | close (id : RequestId)
  | enterPin (id : RequestId) (pin : JsString)
  | changePin (personKey oldPin : JsString) (newPin : Option JsString)
  | resume (call : CallId)
  | hashed (call : CallId) (hash : PinHash)
  | setPin (personKey : JsString) (hash : Option PinHash)
  | unlockPin (personKey : JsString)
  | join (personKey name : JsString) (firstCertificate : FirstCertificate)
      (pin : Option (Option PinHash)) (joinedAt : JsString)
  | amend (personKey : JsString) (amendment : Amendment)
  | write
  | failWrite
  | restart

/-- One await of a call that has no write in the queue resolves. -/
def resumeWaiting (platform : HostPlatform) (host : PinHost) (call : CallId) :
    Waiting → Option PinHost
  | .findingPerson personKey oldPin newPin =>
      if (host.people personKey).isNone then
        some (host.answer call personKey (.changePin newPin) .unknownPerson)
      else some ({ host with waiting := host.waiting.remove call }.enqueue personKey
        (.countGuess call oldPin (.changePin newPin)))
  | .findingPin personKey guess =>
      if (host.people personKey).any fun person => person.pin.isSome then
        some (host.answer call personKey guess .locked)
      else some (host.answer call personKey guess .noPin)
  | .matching personKey pin stored failures guess =>
      if pinMatches platform pin stored then
        some ({ host with waiting := host.waiting.remove call }.enqueue personKey
          (.clearFailures call guess))
      else if maxPinFailures ≤ failures then some (host.answer call personKey guess .locked)
      else some (host.answer call personKey guess (.wrongPin (maxPinFailures - failures)))
  | .hashing .. => none

/-- `setPin`, `unlockPin`, `join` and `amend` put their write in the queue, `join` once its
checks have passed. A write that fails throws in the call that waits for it. -/
def pinStep (platform : HostPlatform) (host : PinHost) : PinAction → Option PinHost
  | .ask id personKey =>
      if (host.people personKey).isSome && (host.requests id).isNone then
        some { host with requests := host.requests.put id personKey }
      else none
  | .close id => some { host with requests := host.requests.remove id }
  | .enterPin id pin =>
      let started := { host with nextCall := host.nextCall + 1 }
      match host.requests id with
      | none => some (started.note (.notPending host.nextCall))
      | some personKey => some (started.enqueue personKey (.countGuess host.nextCall pin .enterPin))
  | .changePin personKey oldPin newPin =>
      let started := { host with nextCall := host.nextCall + 1 }
      if newPin.all isValidPin then
        some (started.park host.nextCall (.findingPerson personKey oldPin newPin))
      else some (started.answer host.nextCall personKey (.changePin newPin) .badPin)
  | .resume call => (host.waiting call).bind (resumeWaiting platform host call)
  | .hashed call hash =>
      match host.waiting call with
      | some (.hashing personKey newPin) =>
          some ({ host with waiting := host.waiting.remove call }.enqueue personKey
            (.savePin (some (call, .changePin (some newPin))) (some hash)))
      | _ => none
  | .setPin personKey hash => some (host.enqueue personKey (.savePin none hash))
  | .unlockPin personKey => some (host.enqueue personKey .unlock)
  | .join personKey name firstCertificate pin joinedAt =>
      some (host.enqueue personKey (.rename name firstCertificate pin joinedAt))
  | .amend personKey amendment => some (host.enqueue personKey (.amend amendment))
  | .write =>
      match host.writes with
      | [] => none
      | first :: rest => some (perform { host with writes := rest } first.personKey first.task)
  | .failWrite =>
      match host.writes with
      | [] => none
      | _ :: rest => some { host with writes := rest }
  | .restart => some { host with
      writes := [], requests := Table.empty, waiting := Table.empty }

/-! ## What the bound speaks about -/

def PinHost.failures (host : PinHost) (personKey : JsString) : Nat :=
  (host.people personKey).elim 0 failuresOf

def PinEvent.compares (personKey : JsString) : PinEvent → Bool
  | .compared _ of => of = personKey
  | _ => false

/-- How many guesses at the person's PIN have reached `pinMatches`. -/
def PinHost.comparisons (host : PinHost) (personKey : JsString) : Nat :=
  host.log.countP (PinEvent.compares personKey)

def Task.resets : Task → Bool
  | .clearFailures .. | .savePin .. | .unlock => true
  | .rename _ _ pin _ => pin.isSome
  | .countGuess .. | .put .. | .amend _ => false

def Task.caller : Task → Option CallId
  | .countGuess call .. | .clearFailures call _ => some call
  | .savePin call _ => call.map Prod.fst
  | .rename .. | .put .. | .unlock | .amend _ => none

def Waiting.personKey : Waiting → JsString
  | .findingPerson personKey _ _ | .findingPin personKey _ | .matching personKey .. |
    .hashing personKey _ => personKey

/-- The call's guess has been counted. -/
def Waiting.compared : Waiting → Bool
  | .findingPerson .. | .findingPin .. => false
  | .matching .. | .hashing .. => true

/-- The host has not met the call. -/
structure PinHost.Unmet (host : PinHost) (call : CallId) : Prop where
  waiting : host.waiting call = none
  writes : ∀ write ∈ host.writes, write.task.caller ≠ some call
  log : ∀ personKey guess answer, PinEvent.answered call personKey guess answer ∉ host.log

/-- The step does not write a reset of the person's count. -/
def KeepsCount (personKey : JsString) (host : PinHost) : PinAction → Prop
  | .write => ∀ task, host.writes.head? = some ⟨personKey, task⟩ → task.resets = false
  | _ => True

instance (personKey : JsString) (host : PinHost) (action : PinAction) :
    Decidable (KeepsCount personKey host action) :=
  match action with
  | .write =>
      match head : host.writes.head? with
      | none => isTrue (by intro task found; simp [head] at found)
      | some write =>
          decidable_of_iff (write.personKey = personKey → write.task.resets = false) (by
            simp only [KeepsCount, head, Option.some.injEq]
            constructor
            · rintro keeps task rfl
              exact keeps rfl
            · rintro keeps rfl
              exact keeps write.task rfl)
  | .ask .. | .close _ | .enterPin .. | .changePin .. | .resume _ | .hashed .. | .setPin ..
  | .unlockPin _ | .join .. | .amend .. | .failWrite | .restart => isTrue trivial

end Tapes.Vouching
