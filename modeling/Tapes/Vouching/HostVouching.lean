import Tapes.Machine.Table
import Tapes.Roster.RosterEntry

namespace Tapes.Vouching

open Tapes.Js Tapes.Provenance Tapes.Machine
open Tapes.Roster (PinHash RosterEntry SignedVouch addVouch clearFailures countGuess maxPinFailures)

/-! The host's side of vouching: one step for each stretch of code between two
awaits, so that a run of the machine is an interleaving of calls. -/

def maxPending : Nat := 16

def pendingTtlMs : Int := 10 * 60000

abbrev RequestId := JsString

abbrev CallId := Nat

structure VouchRequest where
  deviceKey : JsString
  personKey : JsString
  deviceLabel : JsString
  requestedAt : JsString
deriving DecidableEq

/-- A `Signed<DeviceVouch>`. -/
structure Vouch where
  payload : DeviceVouch
  signature : JsString
deriving DecidableEq

/-! ## The roster -/

abbrev PersonRoster := JsString → Option RosterEntry

/-- The roster after an update, and what the update resolves with. -/
def PersonRoster.update (roster : PersonRoster) (personKey : JsString)
    (change : RosterEntry → Option RosterEntry) : PersonRoster × Option RosterEntry :=
  match (roster personKey).bind change with
  | none => (roster, none)
  | some next => (Function.update roster next.personKey (some next), some next)

/-- Each person is under their own key. -/
def Keyed (roster : PersonRoster) : Prop :=
  Table.All roster fun personKey entry => entry.personKey = personKey

theorem keyed_update {roster : PersonRoster} {change : RosterEntry → Option RosterEntry}
    (keyed : Keyed roster) (personKey : JsString) : Keyed (roster.update personKey change).1 := by
  unfold PersonRoster.update
  split
  · exact keyed
  · exact Table.All.put keyed rfl

/-! ## Signing -/

/-- What the host's keys and the platform supply.  `derives` says whether
PBKDF2 of the PIN under the stored salt gives the stored hash. -/
structure HostPlatform where
  hostKey : JsString
  sign : DeviceVouch → JsString
  statementAddress : Vouch → JsString
  derives : JsString → PinHash → Bool
  toISOString : Int → JsString

def isDigit (unit : UInt16) : Bool := 0x30 ≤ unit && unit ≤ 0x39

def isValidPin (pin : JsString) : Bool :=
  4 ≤ pin.length && pin.length ≤ 6 && pin.all isDigit

def pinMatches (platform : HostPlatform) (pin : JsString) (stored : PinHash) : Bool :=
  isValidPin pin && platform.derives pin stored

structure VouchDetails where
  request : VouchRequest
  hostLabel : JsString
  personName : JsString
  method : VouchMethod
  firstCertificate : JsString
  vouchedAt : Int
deriving DecidableEq

def createDeviceVouch (platform : HostPlatform) (details : VouchDetails) : Vouch :=
  let payload : DeviceVouch :=
    { hostKey := platform.hostKey
      hostLabel := details.hostLabel
      personKey := details.request.personKey
      personName := details.personName
      deviceKey := details.request.deviceKey
      deviceLabel := details.request.deviceLabel
      method := details.method
      firstCertificate := details.firstCertificate
      vouchedAt := platform.toISOString details.vouchedAt }
  ⟨payload, platform.sign payload⟩

/-! ## Waiting requests and calls in flight -/

inductive EntryStatus where
  | pending
  | rejected
  | vouched
deriving DecidableEq

structure Entry where
  request : VouchRequest
  personName : JsString
  deviceFingerprint : JsString
  receivedAt : Int
  status : EntryStatus
  vouch : Option Vouch
deriving DecidableEq

/-- A confirm or an enterPin between two of its steps, named for what it awaits.
The call holds its entry's object, so it goes on when the entry is dropped. -/
inductive Call where
  | countingGuess (id : RequestId) (pin : JsString)
  | findingPin (id : RequestId)
  | matchingPin (id : RequestId) (pin : JsString) (stored : PinHash) (failures : Nat)
  | clearingFailures (id : RequestId)
  | findingPerson (id : RequestId) (method : VouchMethod)
  | signing (id : RequestId) (personKey : JsString) (details : VouchDetails)
  | addressing (id : RequestId) (personKey : JsString) (vouch : Vouch)
  | recording (id : RequestId) (personKey : JsString) (vouch : Vouch) (record : SignedVouch)
  | recorded (id : RequestId) (vouch : Vouch)
deriving DecidableEq

/-- What a confirm or an enterPin resolves with. -/
inductive Answer where
  | undefined
  | vouched (vouch : Vouch)
  | wrongPin (attemptsLeft : Nat)
  | locked
  | noPin
  | notPending
  | threw
deriving DecidableEq

/-- What has happened on the host, for the results to speak about.  `lost` is a
vouch that was signed by a call that then failed before the roster had it. -/
inductive Event where
  | signed (id : RequestId) (vouch : Vouch)
  | recorded (id : RequestId) (record : SignedVouch)
  | lost (id : RequestId)
  | answered (id : RequestId) (answer : Answer)
deriving DecidableEq

/-- `entries` is the map's ids in order, `heap` every entry object ever made. -/
structure Host where
  now : Int
  hostLabel : JsString
  roster : PersonRoster
  entries : List RequestId
  heap : RequestId → Option Entry
  calls : CallId → Option Call
  history : List Event

def Host.opened (now : Int) (hostLabel : JsString) (roster : PersonRoster) : Host :=
  ⟨now, hostLabel, roster, [], fun _ => none, fun _ => none, []⟩

def isStale (now : Int) (entry : Entry) : Bool := entry.receivedAt < now - pendingTtlMs

def dropStale (host : Host) : Host :=
  { host with entries := host.entries.filter fun id =>
      (host.heap id).any fun entry => !isStale host.now entry }

/-- `entries.get(id)`. -/
def Host.entryOf (host : Host) (id : RequestId) : Option Entry :=
  if id ∈ host.entries then host.heap id else none

def pendingEntry (host : Host) (id : RequestId) : Option Entry :=
  ((dropStale host).entryOf id).filter fun entry => entry.status = .pending

inductive Reading where
  | pending
  | rejected
  | vouched (vouch : Option Vouch)
deriving DecidableEq

def Entry.reading (entry : Entry) : Reading :=
  match entry.status with
  | .pending => .pending
  | .rejected => .rejected
  | .vouched => .vouched entry.vouch

/-- Where a request stands, for the guest that waits on it. -/
def status (host : Host) (id : RequestId) : Option Reading :=
  ((dropStale host).entryOf id).map Entry.reading

/-! ## Steps -/

def Host.park (host : Host) (call : CallId) (phase : Call) : Host :=
  { host with calls := Function.update host.calls call (some phase) }

def Host.answer (host : Host) (call : CallId) (id : RequestId) (answer : Answer) : Host :=
  { host with
    calls := Function.update host.calls call none
    history := .answered id answer :: host.history }

def Host.note (host : Host) (event : Event) : Host :=
  { host with history := event :: host.history }

def Host.setEntry (host : Host) (id : RequestId) (entry : Entry) : Host :=
  { host with heap := Function.update host.heap id (some entry) }

/-- The part of `request` after its last await. -/
def request (host : Host) (id : RequestId) (request : VouchRequest)
    (personName deviceFingerprint : JsString) : Host :=
  let pending := host.entries.filterMap fun id =>
    (host.heap id).filter fun entry => entry.status = .pending
  if pending.any fun entry => entry.request.deviceKey = request.deviceKey &&
      entry.request.personKey = request.personKey then host
  else if maxPending ≤ pending.length then host
  else
    let entry : Entry :=
      { request, personName, deviceFingerprint
        receivedAt := host.now, status := .pending, vouch := none }
    { host.setEntry id entry with entries := host.entries ++ [id] }

def confirm (host : Host) (call : CallId) (id : RequestId) : Host :=
  match pendingEntry host id with
  | none => (dropStale host).answer call id .undefined
  | some _ => (dropStale host).park call (.findingPerson id .operator)

def reject (host : Host) (id : RequestId) : Host :=
  match pendingEntry host id with
  | none => dropStale host
  | some entry => (dropStale host).setEntry id { entry with status := .rejected }

def enterPin (host : Host) (call : CallId) (id : RequestId) (pin : JsString) : Host :=
  match pendingEntry host id with
  | none => (dropStale host).answer call id .notPending
  | some _ => (dropStale host).park call (.countingGuess id pin)

/-- One await of `checkPin` resolves. -/
def resumeCheckPin (platform : HostPlatform) (host : Host) (call : CallId) (entry : Entry) :
    Call → Host
  | .countingGuess id pin =>
      match host.roster.update entry.request.personKey countGuess with
      | (roster, some { pin := some stored, pinFailures, .. }) =>
          { host with roster }.park call (.matchingPin id pin stored (pinFailures.getD 0))
      | (roster, _) => { host with roster }.park call (.findingPin id)
  | .findingPin id =>
      if (host.roster entry.request.personKey).any fun person => person.pin.isSome then
        host.answer call id .locked
      else host.answer call id .noPin
  | .matchingPin id pin stored failures =>
      if pinMatches platform pin stored then host.park call (.clearingFailures id)
      else if maxPinFailures ≤ failures then host.answer call id .locked
      else host.answer call id (.wrongPin (maxPinFailures - failures))
  | .clearingFailures id =>
      { host with roster := (host.roster.update entry.request.personKey clearFailures).1 }.park
        call (.findingPerson id .pin)
  | _ => host

/-- One await of `vouchFor` resolves. -/
def resumeVouchFor (platform : HostPlatform) (host : Host) (call : CallId) (entry : Entry) :
    Call → Host
  | .findingPerson id method =>
      match host.roster entry.request.personKey with
      | none => host.answer call id .threw
      | some person =>
          host.park call <| .signing id person.personKey
            { request := entry.request
              hostLabel := host.hostLabel
              personName := person.name
              method
              firstCertificate := person.firstCertificate.address
              vouchedAt := host.now }
  | .signing id personKey details =>
      let vouch := createDeviceVouch platform details
      (host.note (.signed id vouch)).park call (.addressing id personKey vouch)
  | .addressing id personKey vouch =>
      host.park call <| .recording id personKey vouch
        { address := platform.statementAddress vouch
          deviceKey := vouch.payload.deviceKey
          deviceLabel := vouch.payload.deviceLabel
          deviceFingerprint := entry.deviceFingerprint
          method := vouch.payload.method
          vouchedAt := vouch.payload.vouchedAt
          revokedAt := none
          revocation := none }
  | .recording id personKey vouch record =>
      match host.roster.update personKey (addVouch record) with
      | (roster, some _) =>
          ({ host with roster }.note (.recorded id record)).park call (.recorded id vouch)
      | (_, none) => host.park call (.recorded id vouch)
  | .recorded id vouch =>
      (host.setEntry id { entry with status := .vouched, vouch := some vouch }).answer call id
        (.vouched vouch)
  | _ => host

def Call.id : Call → RequestId
  | .countingGuess id _ => id
  | .findingPin id => id
  | .matchingPin id _ _ _ => id
  | .clearingFailures id => id
  | .findingPerson id _ => id
  | .signing id _ _ => id
  | .addressing id _ _ => id
  | .recording id _ _ _ => id
  | .recorded id _ => id

/-- The calls inside `vouchFor`. -/
def Call.inVouchFor : Call → Bool
  | .countingGuess .. | .findingPin .. | .matchingPin .. | .clearingFailures .. => false
  | .findingPerson .. | .signing .. | .addressing .. | .recording .. | .recorded .. => true

def resume (platform : HostPlatform) (host : Host) (call : CallId) (phase : Call) (entry : Entry) :
    Host :=
  if phase.inVouchFor then resumeVouchFor platform host call entry phase
  else resumeCheckPin platform host call entry phase

/-- What a call awaits fails. Once the roster has the vouch nothing is awaited. -/
def throwIn (host : Host) (call : CallId) : Call → Option Host
  | .recorded _ _ => none
  | .addressing id _ _ | .recording id _ _ _ => some ((host.note (.lost id)).answer call id .threw)
  | phase => some (host.answer call phase.id .threw)

inductive Action where
  | tick (elapsed : Nat)
  | renameHost (label : JsString)
  | editRoster (roster : PersonRoster)
  | poll
  | request (id : RequestId) (request : VouchRequest) (personName deviceFingerprint : JsString)
  | confirm (call : CallId) (id : RequestId)
  | reject (id : RequestId)
  | enterPin (call : CallId) (id : RequestId) (pin : JsString)
  | resume (call : CallId)
  | throw (call : CallId)

/-- `poll` is any of `status`, `pending` and the start of a `request`, and
`editRoster` whatever else writes the roster. A new id or call is a fresh one. -/
def step (platform : HostPlatform) (host : Host) : Action → Option Host
  | .tick elapsed => some { host with now := host.now + elapsed }
  | .renameHost label => some { host with hostLabel := label }
  | .editRoster roster => some { host with roster }
  | .poll => some (dropStale host)
  | .request id wanted personName deviceFingerprint =>
      if (host.heap id).isNone then some (request host id wanted personName deviceFingerprint)
      else none
  | .confirm call id => if (host.calls call).isNone then some (confirm host call id) else none
  | .reject id => some (reject host id)
  | .enterPin call id pin =>
      if (host.calls call).isNone then some (enterPin host call id pin) else none
  | .resume call =>
      match host.calls call with
      | none => none
      | some phase => (host.heap phase.id).map (resume platform host call phase)
  | .throw call => (host.calls call).bind (throwIn host call)

end Tapes.Vouching
