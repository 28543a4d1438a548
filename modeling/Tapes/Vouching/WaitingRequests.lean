import Mathlib.Data.List.Pairwise
import Tapes.Machine.Run
import Tapes.Machine.Table
import Tapes.Vouching.ResolvedOnce

namespace Tapes.Vouching.Waiting

open Tapes.Js Tapes.Provenance Tapes.Machine
open Tapes.Roster (RosterEntry SignedVouch addVouch clearFailures countGuess)

/-! The requests that wait on the host: calls of `request`, one step for each await, beside the
calls and readings that deal with what waits. -/

/-! ## The machine -/

inductive CheckProblem where
  | malformed
  | badSignature
deriving DecidableEq

inductive RequestError where
  | check (problem : CheckProblem)
  | unknownPerson
  | tooManyPending
deriving DecidableEq

/-- The id of the entry that waits for the request, or why none does. -/
abbrev RequestResult := Except RequestError RequestId

/-- A `request`, named for what it awaits. `check` is what `checkVouchRequest` makes of it. -/
inductive Asking where
  | checking (check : Except CheckProblem VouchRequest)
  | findingPerson (request : VouchRequest)
  | fingerprinting (request : VouchRequest) (personName : JsString)

/-- The entries of the map that are pending, oldest first. -/
def pendingOf (host : Host) : List (RequestId × Entry) :=
  host.entries.filterMap fun id =>
    ((host.heap id).filter fun entry => entry.status = .pending).map (id, ·)

def sameKeys (entry : Entry) (request : VouchRequest) : Bool :=
  entry.request.deviceKey = request.deviceKey && entry.request.personKey = request.personKey

/-- `existing` in the source. -/
def waitingFor (host : Host) (request : VouchRequest) : Option (RequestId × Entry) :=
  (pendingOf host).find? fun each => sameKeys each.2 request

/-- What the part of `request` after its last await resolves with. -/
def requestResult (host : Host) (id : RequestId) (request : VouchRequest) : RequestResult :=
  match waitingFor host request with
  | some existing => .ok existing.1
  | none => if maxPending ≤ (pendingOf host).length then .error .tooManyPending else .ok id

structure PendingVouch where
  id : RequestId
  personName : JsString
  deviceLabel : JsString
  deviceFingerprint : JsString
  receivedAt : JsString

/-- Requests waiting for the operator, oldest first. -/
def pending (platform : HostPlatform) (host : Host) : List PendingVouch :=
  (pendingOf (dropStale host)).map fun (id, entry) =>
    ⟨id, entry.personName, entry.request.deviceLabel, entry.deviceFingerprint,
      platform.toISOString entry.receivedAt⟩

/-- Nobody leaves the roster, and nobody loses a vouch. -/
def Grows (before after : PersonRoster) : Prop :=
  ∀ personKey entry, before personKey = some entry →
    ∃ next, after personKey = some next ∧
      ∀ record ∈ entry.vouches.getD [], ∃ kept ∈ next.vouches.getD [], kept.address = record.address

/-- A roster that has each person under their own key. -/
structure KeyedRoster where
  people : PersonRoster
  keyed : Keyed people

/-- A write of the roster by a call that gives or takes no vouch: a PIN set, changed, removed or
unlocked, or a vouch marked as withdrawn. -/
structure Edit where
  apply : PersonRoster → PersonRoster
  keyed : ∀ roster, Keyed roster → Keyed (apply roster)
  grows : ∀ roster, Keyed roster → Grows roster (apply roster)

/-- `begun` has the time at which each `confirm` or `enterPin` began, and `answered` the request
that the last step resolved, if it resolved one that passed its check. -/
structure State where
  host : Host
  asking : Table CallId Asking
  begun : Table CallId Int
  answered : Option (VouchRequest × RequestResult)

def State.opened (now : Int) (hostLabel : JsString) (roster : KeyedRoster) : State :=
  ⟨.opened now hostLabel roster.people, .empty, .empty, none⟩

def State.respond (state : State) (call : CallId) (request : VouchRequest)
    (result : RequestResult) : State :=
  { state with asking := state.asking.remove call, answered := some (request, result) }

def State.parkAsking (state : State) (call : CallId) (phase : Asking) : State :=
  { state with asking := state.asking.put call phase, answered := none }

/-- `id` and `fingerprint` are what `randomUUID` and `keyFingerprint` give a call that gets to
them. -/
def resumeRequest (state : State) (call : CallId) (id : RequestId)
    (fingerprint : Option JsString) : Asking → Option State
  | .checking (.error _) =>
      some { state with asking := state.asking.remove call, answered := none }
  | .checking (.ok request) => some (state.parkAsking call (.findingPerson request))
  | .findingPerson request =>
      match state.host.roster request.personKey with
      | none => some (state.respond call request (.error .unknownPerson))
      | some person => some (state.parkAsking call (.fingerprinting request person.name))
  | .fingerprinting asked personName =>
      if (state.host.heap id).isSome then none
      else
        some <| { state with
          host := request state.host id asked personName (fingerprint.getD (js "?")) }.respond
            call asked (requestResult state.host id asked)

inductive Action where
  | tick (elapsed : Nat)
  | renameHost (label : JsString)
  | edit (edit : Edit)
  | request (call : CallId) (check : Except CheckProblem VouchRequest)
  | resumeRequest (call : CallId) (id : RequestId) (fingerprint : Option JsString)
  | throwRequest (call : CallId)
  /-- `status` or `pending`. -/
  | read
  | confirm (call : CallId) (id : RequestId)
  | reject (id : RequestId)
  | enterPin (call : CallId) (id : RequestId) (pin : JsString)
  | resume (call : CallId)
  | throw (call : CallId)

def State.onHost (platform : HostPlatform) (state : State) (action : Vouching.Action) :
    Option State :=
  (Vouching.step platform state.host action).map fun host => { state with host, answered := none }

def State.begin (state : State) (call : CallId) : State :=
  { state with begun := state.begun.put call state.host.now }

def step (platform : HostPlatform) (state : State) : Action → Option State
  | .tick elapsed => state.onHost platform (.tick elapsed)
  | .renameHost label => state.onHost platform (.renameHost label)
  | .edit edit => state.onHost platform (.editRoster (edit.apply state.host.roster))
  | .request call check =>
      if (state.asking call).isSome then none
      else some ({ state with host := dropStale state.host }.parkAsking call (.checking check))
  | .resumeRequest call id fingerprint =>
      (state.asking call).bind (resumeRequest state call id fingerprint)
  | .throwRequest call =>
      (state.asking call).map fun _ =>
        { state with asking := state.asking.remove call, answered := none }
  | .read => state.onHost platform .poll
  | .confirm call id => (state.begin call).onHost platform (.confirm call id)
  | .reject id => state.onHost platform (.reject id)
  | .enterPin call id pin => (state.begin call).onHost platform (.enterPin call id pin)
  | .resume call => state.onHost platform (.resume call)
  | .throw call => state.onHost platform (.throw call)

/-! ## The property -/

/-- The vouch is on the roster, in the entry of the person it names. -/
def Recorded (platform : HostPlatform) (roster : PersonRoster) (vouch : Vouch) : Prop :=
  ∃ entry, roster vouch.payload.personKey = some entry ∧
    ∃ record ∈ entry.vouches.getD [], record.address = platform.statementAddress vouch

/-- At `time` the entry is not older than the TTL. -/
def FreshAt (host : Host) (time : Int) (id : RequestId) : Prop :=
  ∃ entry, host.heap id = some entry ∧ isStale time entry = false

structure InOrder (platform : HostPlatform) (state : State) : Prop where
  bounded : (pendingOf state.host).length ≤ maxPending
  distinct : (pendingOf state.host).Pairwise fun first second =>
    sameKeys first.2 second.2.request = false
  /-- A request that is answered has the id of the entry that waits for its keys. -/
  answered : ∀ request result, state.answered = some (request, result) →
    ∀ id, result = .ok id ↔ ∃ entry, (id, entry) ∈ pendingOf state.host ∧ sameKeys entry request
  freshStatus : ∀ id reading, status state.host id = some reading →
    FreshAt state.host state.host.now id
  freshPending : ∀ shown ∈ pending platform state.host,
    FreshAt state.host state.host.now shown.id
  /-- Calls of `confirm` and `enterPin` that have taken on an entry. -/
  freshCalls : ∀ call phase, state.host.calls call = some phase →
    ∃ time, state.begun call = some time ∧ FreshAt state.host time phase.id
  returned : ∀ id vouch, .answered id (.vouched vouch) ∈ state.host.history →
    Recorded platform state.host.roster vouch
  readable : ∀ id reading, status state.host id = some (.vouched reading) →
    ∃ vouch, reading = some vouch ∧ Recorded platform state.host.roster vouch

/-! ## The roster only grows -/

variable {platform : HostPlatform} {roster later : PersonRoster} {vouch : Vouch}

theorem Grows.refl (roster : PersonRoster) : Grows roster roster :=
  fun _ entry held => ⟨entry, held, fun record member => ⟨record, member, rfl⟩⟩

theorem Grows.isSome (grows : Grows roster later) {personKey : JsString}
    (there : (roster personKey).isSome) : (later personKey).isSome := by
  obtain ⟨entry, held⟩ := Option.isSome_iff_exists.mp there
  obtain ⟨next, found, _⟩ := grows personKey entry held
  rw [found]
  rfl

theorem Recorded.grows (recorded : Recorded platform roster vouch) (grows : Grows roster later) :
    Recorded platform later vouch := by
  obtain ⟨entry, held, record, member, address⟩ := recorded
  obtain ⟨next, found, keeps⟩ := grows _ entry held
  obtain ⟨kept, there, same⟩ := keeps record member
  exact ⟨next, found, kept, there, same.trans address⟩

/-- A change that leaves a person their key and their vouches. -/
def Keeps (change : RosterEntry → Option RosterEntry) : Prop :=
  ∀ entry next, change entry = some next → next.personKey = entry.personKey ∧
    ∀ record ∈ entry.vouches.getD [], ∃ kept ∈ next.vouches.getD [], kept.address = record.address

theorem keeps_countGuess : Keeps countGuess := by
  intro entry next changed
  unfold countGuess at changed
  split at changed
  · cases changed
    exact ⟨rfl, fun record member => ⟨record, member, rfl⟩⟩
  · cases changed

theorem keeps_clearFailures : Keeps clearFailures := by
  intro entry next changed
  cases changed
  exact ⟨rfl, fun record member => ⟨record, member, rfl⟩⟩

/-- The record an address has before is replaced by one with the same address. -/
theorem keeps_addVouch (record : SignedVouch) : Keeps (addVouch record) := by
  intro entry next changed
  cases changed
  refine ⟨rfl, fun old member => ?_⟩
  by_cases same : old.address = record.address
  · exact ⟨record, by simp, same.symm⟩
  · exact ⟨old, by simp [member, same], rfl⟩

variable {change : RosterEntry → Option RosterEntry}

theorem grows_update (keyed : Keyed roster) (keeps : Keeps change) (personKey : JsString) :
    Grows roster (roster.update personKey change).1 := by
  unfold PersonRoster.update
  split
  · exact Grows.refl roster
  · rename_i next changed
    obtain ⟨entry, held, became⟩ := Option.bind_eq_some_iff.mp changed
    obtain ⟨key, vouches⟩ := keeps entry next became
    have here : next.personKey = personKey := key.trans (keyed personKey entry held)
    intro other found there
    by_cases same : other = personKey
    · subst same
      rw [held, Option.some.injEq] at there
      subst there
      exact ⟨next, by simp [here], vouches⟩
    · refine ⟨found, ?_, fun record member => ⟨record, member, rfl⟩⟩
      have elsewhere : other ≠ next.personKey := fun equal => same (equal.trans here)
      simpa [Function.update_of_ne elsewhere] using there

theorem update_unchanged {personKey : JsString}
    (nothing : (roster.update personKey change).2 = none) :
    (roster.update personKey change).1 = roster := by
  unfold PersonRoster.update at nothing ⊢
  split
  · rfl
  · rename_i next changed
    simp [changed] at nothing

/-- The update that records a vouch, of a person who is on the roster. -/
theorem recorded_addVouch (keyed : Keyed roster) {record : SignedVouch}
    (there : (roster vouch.payload.personKey).isSome)
    (address : record.address = platform.statementAddress vouch) :
    Recorded platform (roster.update vouch.payload.personKey (addVouch record)).1 vouch := by
  obtain ⟨entry, held⟩ := Option.isSome_iff_exists.mp there
  have key := keyed _ entry held
  exact ⟨{ entry with
    vouches := some
      ((entry.vouches.getD []).filter (fun each => each.address != record.address) ++ [record]) },
    by simp [PersonRoster.update, held, addVouch, key], record, by simp, address⟩

/-! ## What the host keeps -/

/-- What a call in flight has to do with the roster. -/
def CallKept (platform : HostPlatform) (roster : PersonRoster) : Call → Prop
  | .signing _ personKey details =>
      personKey = details.request.personKey ∧ (roster personKey).isSome
  | .addressing _ personKey vouch =>
      personKey = vouch.payload.personKey ∧ (roster personKey).isSome
  | .recording _ personKey vouch record =>
      personKey = vouch.payload.personKey ∧ (roster personKey).isSome ∧
        record.address = platform.statementAddress vouch
  | .recorded _ vouch => Recorded platform roster vouch
  | _ => True

structure EntryKept (platform : HostPlatform) (roster : PersonRoster) (entry : Entry) : Prop where
  person : (roster entry.request.personKey).isSome
  vouched : entry.status = .vouched →
    ∃ vouch, entry.vouch = some vouch ∧ Recorded platform roster vouch

structure Kept (platform : HostPlatform) (begun : Table CallId Int) (host : Host) : Prop where
  keyed : Keyed host.roster
  listed : ∀ id ∈ host.entries, (host.heap id).isSome
  entries : ∀ id entry, host.heap id = some entry → EntryKept platform host.roster entry
  calls : ∀ call phase, host.calls call = some phase → CallKept platform host.roster phase
  freshCalls : ∀ call phase, host.calls call = some phase →
    ∃ time, begun call = some time ∧ FreshAt host time phase.id
  returned : ∀ id vouch, .answered id (.vouched vouch) ∈ host.history →
    Recorded platform host.roster vouch
  bounded : (pendingOf host).length ≤ maxPending
  distinct : (pendingOf host).Pairwise fun first second =>
    sameKeys first.2 second.2.request = false

theorem CallKept.grows {phase : Call} (kept : CallKept platform roster phase)
    (grows : Grows roster later) : CallKept platform later phase := by
  cases phase with
  | signing id personKey details => exact ⟨kept.1, grows.isSome kept.2⟩
  | addressing id personKey vouch => exact ⟨kept.1, grows.isSome kept.2⟩
  | recording id personKey vouch record => exact ⟨kept.1, grows.isSome kept.2.1, kept.2.2⟩
  | recorded id vouch => exact Recorded.grows kept grows
  | countingGuess | findingPin | matchingPin | clearingFailures | findingPerson => trivial

theorem EntryKept.grows {entry : Entry} (kept : EntryKept platform roster entry)
    (grows : Grows roster later) : EntryKept platform later entry where
  person := grows.isSome kept.person
  vouched := fun status =>
    let ⟨vouch, held, recorded⟩ := kept.vouched status
    ⟨vouch, held, recorded.grows grows⟩

variable {begun : Table CallId Int} {host : Host} {call : CallId} {id : RequestId} {entry : Entry}
  {phase : Call}

theorem Kept.editRoster (kept : Kept platform begun host) (grows : Grows host.roster later)
    (keyed : Keyed later) : Kept platform begun { host with roster := later } where
  keyed := keyed
  listed := kept.listed
  entries := fun id entry held => (kept.entries id entry held).grows grows
  calls := fun call phase held => (kept.calls call phase held).grows grows
  freshCalls := kept.freshCalls
  returned := fun id vouch member => (kept.returned id vouch member).grows grows
  bounded := kept.bounded
  distinct := kept.distinct

theorem Kept.update (kept : Kept platform begun host) (keeps : Keeps change)
    (personKey : JsString) :
    Kept platform begun { host with roster := (host.roster.update personKey change).1 } :=
  kept.editRoster (grows_update kept.keyed keeps personKey) (keyed_update kept.keyed personKey)

theorem Kept.park (kept : Kept platform begun host) (phaseKept : CallKept platform host.roster phase)
    {time : Int} (began : begun call = some time) (fresh : FreshAt host time phase.id) :
    Kept platform begun (host.park call phase) where
  keyed := kept.keyed
  listed := kept.listed
  entries := kept.entries
  calls := Table.All.put kept.calls phaseKept
  freshCalls := Table.All.put kept.freshCalls ⟨time, began, fresh⟩
  returned := kept.returned
  bounded := kept.bounded
  distinct := kept.distinct

/-- A call goes on to its next await. -/
theorem Kept.goOn (kept : Kept platform begun host) (parked : host.calls call = some phase)
    (next : Call) (same : next.id = phase.id) (nextKept : CallKept platform host.roster next) :
    Kept platform begun (host.park call next) := by
  obtain ⟨time, began, fresh⟩ := kept.freshCalls call phase parked
  exact kept.park nextKept began (same ▸ fresh)

theorem Kept.note (kept : Kept platform begun host) (event : Event)
    (returned : ∀ id vouch, event = .answered id (.vouched vouch) →
      Recorded platform host.roster vouch) : Kept platform begun (host.note event) where
  keyed := kept.keyed
  listed := kept.listed
  entries := kept.entries
  calls := kept.calls
  freshCalls := kept.freshCalls
  returned := fun id vouch member => by
    rcases List.mem_cons.mp member with new | old
    · exact returned id vouch new.symm
    · exact kept.returned id vouch old
  bounded := kept.bounded
  distinct := kept.distinct

theorem Kept.answer (kept : Kept platform begun host) (id : RequestId) {answer : Answer}
    (returned : ∀ vouch, answer = .vouched vouch → Recorded platform host.roster vouch) :
    Kept platform begun (host.answer call id answer) := by
  have noted : Kept platform begun (host.note (.answered id answer)) := by
    refine kept.note _ fun other vouch same => ?_
    cases same
    exact returned vouch rfl
  exact
    { noted with
      calls := Table.All.remove noted.calls
      freshCalls := Table.All.remove noted.freshCalls }

/-! ## What the map of entries keeps -/

theorem mem_pendingOf : (id, entry) ∈ pendingOf host ↔
    id ∈ host.entries ∧ host.heap id = some entry ∧ entry.status = .pending := by
  simp only [pendingOf, List.mem_filterMap, Option.map_eq_some_iff, Option.filter_eq_some_iff,
    Prod.mk.injEq, decide_eq_true_eq]
  constructor
  · rintro ⟨_, listed, _, found, rfl, rfl⟩
    exact ⟨listed, found⟩
  · rintro ⟨listed, found⟩
    exact ⟨id, listed, entry, found, rfl, rfl⟩

theorem pendingOf_dropStale (host : Host) :
    (pendingOf (dropStale host)).Sublist (pendingOf host) :=
  List.filter_sublist.filterMap _

theorem FreshAt.setEntry {time : Int} {other : RequestId} (fresh : FreshAt host time id)
    {changed : Entry} (held : host.heap other = some entry)
    (same : changed.receivedAt = entry.receivedAt) :
    FreshAt (host.setEntry other changed) time id := by
  obtain ⟨found, there, young⟩ := fresh
  by_cases here : id = other
  · subst here
    rw [held, Option.some.injEq] at there
    subst there
    exact ⟨changed, Function.update_self .., by rw [isStale, same]; exact young⟩
  · exact ⟨found, (Function.update_of_ne here ..).trans there, young⟩

theorem Kept.dropStale (kept : Kept platform begun host) :
    Kept platform begun (dropStale host) where
  keyed := kept.keyed
  listed := fun id member => kept.listed id (List.mem_filter.mp member).1
  entries := kept.entries
  calls := kept.calls
  freshCalls := kept.freshCalls
  returned := kept.returned
  bounded := (pendingOf_dropStale host).length_le.trans kept.bounded
  distinct := kept.distinct.sublist (pendingOf_dropStale host)

/-- Of each element nothing more is read. -/
theorem filterMap_sublist {α β : Type} {read less : α → Option β}
    (no_more : ∀ value, less value = none ∨ less value = read value) (values : List α) :
    (values.filterMap less).Sublist (values.filterMap read) := by
  induction values with
  | nil => exact .slnil
  | cons value rest induction =>
      rcases no_more value with gone | same
      · rw [List.filterMap_cons_none gone]
        exact induction.trans ((List.sublist_cons_self value rest).filterMap read)
      · cases found : read value with
        | none =>
            rw [List.filterMap_cons_none found, List.filterMap_cons_none (same.trans found)]
            exact induction
        | some result =>
            rw [List.filterMap_cons_some found, List.filterMap_cons_some (same.trans found)]
            exact induction.cons_cons result

/-- An entry that no longer waits. -/
theorem pendingOf_setEntry {changed : Entry} (settled : changed.status ≠ .pending) :
    (pendingOf (host.setEntry id changed)).Sublist (pendingOf host) := by
  apply filterMap_sublist
  intro other
  by_cases same : other = id
  · subst same
    left
    simp [Host.setEntry, settled]
  · right
    simp [Host.setEntry, Function.update_of_ne same]

/-- An entry is answered: it keeps its request, and it was there before. -/
theorem Kept.settle (kept : Kept platform begun host) (held : host.heap id = some entry)
    (changed : Entry) (settled : changed.status ≠ .pending)
    (request : changed.request = entry.request) (received : changed.receivedAt = entry.receivedAt)
    (vouched : changed.status = .vouched →
      ∃ vouch, changed.vouch = some vouch ∧ Recorded platform host.roster vouch) :
    Kept platform begun (host.setEntry id changed) where
  keyed := kept.keyed
  listed := fun other member => by
    by_cases same : other = id
    · simp [Host.setEntry, same]
    · simpa [Host.setEntry, Function.update_of_ne same] using kept.listed other member
  entries := Table.All.put kept.entries
    ⟨by rw [request]; exact (kept.entries id entry held).person, vouched⟩
  calls := kept.calls
  freshCalls := fun call phase parked => by
    obtain ⟨time, began, fresh⟩ := kept.freshCalls call phase parked
    exact ⟨time, began, fresh.setEntry held received⟩
  returned := kept.returned
  bounded := (pendingOf_setEntry settled).length_le.trans kept.bounded
  distinct := kept.distinct.sublist (pendingOf_setEntry settled)

/-! ## What a request adds -/

variable {asked : VouchRequest} {personName fingerprint : JsString}

def newEntry (host : Host) (asked : VouchRequest) (personName fingerprint : JsString) : Entry where
  request := asked
  personName := personName
  deviceFingerprint := fingerprint
  receivedAt := host.now
  status := .pending
  vouch := none

def added (host : Host) (id : RequestId) (entry : Entry) : Host :=
  { host.setEntry id entry with entries := host.entries ++ [id] }

theorem request_eq (host : Host) (id : RequestId) (asked : VouchRequest)
    (personName fingerprint : JsString) :
    request host id asked personName fingerprint =
      if (waitingFor host asked).isSome ∨ maxPending ≤ (pendingOf host).length then host
      else added host id (newEntry host asked personName fingerprint) := by
  have entries : (host.entries.filterMap fun id =>
      (host.heap id).filter fun entry => entry.status = .pending) =
        (pendingOf host).map Prod.snd := by
    simp [pendingOf, List.map_filterMap, Function.comp_def]
  have any : ((pendingOf host).map Prod.snd).any (fun entry =>
      entry.request.deviceKey = asked.deviceKey && entry.request.personKey = asked.personKey) =
        (waitingFor host asked).isSome := by
    rw [List.any_map, waitingFor, List.isSome_find?]
    rfl
  simp only [request, entries, any, List.length_map]
  by_cases waits : (waitingFor host asked).isSome
  · simp [waits]
  · by_cases full : maxPending ≤ (pendingOf host).length
    · simp [waits, full]
    · simp only [waits, full]
      rfl

theorem pendingOf_added (fresh : host.heap id = none)
    (listed : ∀ other ∈ host.entries, (host.heap other).isSome) (new : entry.status = .pending) :
    pendingOf (added host id entry) = pendingOf host ++ [(id, entry)] := by
  have others : ∀ other ∈ host.entries, Function.update host.heap id (some entry) other =
      host.heap other := by
    intro other member
    refine Function.update_of_ne (fun same => ?_) ..
    have there := listed other member
    rw [same, fresh] at there
    cases there
  simp only [pendingOf, added, Host.setEntry, List.filterMap_append]
  congr 1
  · exact List.filterMap_congr fun other member => by rw [others other member]
  · simp [new]

theorem sameKeys_comm (first second : Entry) :
    sameKeys first second.request = sameKeys second first.request := by
  simp only [sameKeys, eq_comm]

theorem Kept.request (kept : Kept platform begun host) (fresh : host.heap id = none)
    (person : (host.roster asked.personKey).isSome) :
    Kept platform begun (request host id asked personName fingerprint) := by
  rw [request_eq]
  split
  · exact kept
  · rename_i waits
    obtain ⟨nobody, room⟩ := not_or.mp waits
    have entries : pendingOf (added host id (newEntry host asked personName fingerprint)) =
        pendingOf host ++ [(id, newEntry host asked personName fingerprint)] :=
      pendingOf_added fresh kept.listed rfl
    exact
      { keyed := kept.keyed
        listed := fun other member => by
          by_cases same : other = id
          · simp [added, Host.setEntry, same]
          · rcases List.mem_append.mp member with old | new
            · simpa [added, Host.setEntry, Function.update_of_ne same] using
                kept.listed other old
            · exact absurd (List.mem_singleton.mp new) same
        entries := Table.All.put kept.entries ⟨person, fun vouched => nomatch vouched⟩
        calls := kept.calls
        freshCalls := fun call phase parked => by
          obtain ⟨time, began, held, there, young⟩ := kept.freshCalls call phase parked
          have other : phase.id ≠ id := fun same => by
            rw [same, fresh] at there
            cases there
          exact ⟨time, began, held, (Function.update_of_ne other ..).trans there, young⟩
        returned := kept.returned
        bounded := by
          rw [entries, List.length_append, List.length_singleton]
          omega
        distinct := by
          rw [entries, List.pairwise_append]
          refine ⟨kept.distinct, List.pairwise_singleton .., ?_⟩
          intro old member new only
          rw [List.mem_singleton.mp only]
          have different := List.find?_eq_none.mp (Option.not_isSome_iff_eq_none.mp nobody)
          exact Bool.eq_false_of_not_eq_true (different old member) }

theorem Kept.only (kept : Kept platform begun host) {first second : RequestId × Entry}
    (one : first ∈ pendingOf host) (other : second ∈ pendingOf host)
    (firstKeys : sameKeys first.2 asked) (secondKeys : sameKeys second.2 asked) :
    first = second := by
  by_contra different
  have symmetric : Std.Symm fun first second : RequestId × Entry =>
      sameKeys first.2 second.2.request = false :=
    ⟨fun first second apart => (sameKeys_comm second.2 first.2).trans apart⟩
  have apart := kept.distinct.forall one other different
  simp only [sameKeys, Bool.and_eq_true, decide_eq_true_eq] at firstKeys secondKeys
  simp [sameKeys, firstKeys, secondKeys] at apart

/-- The entry that waits for a request's keys is the one its answer names. -/
theorem requestResult_iff (kept : Kept platform begun host) (fresh : host.heap id = none)
    (other : RequestId) : requestResult host id asked = .ok other ↔
      ∃ entry, (other, entry) ∈ pendingOf (request host id asked personName fingerprint) ∧
        sameKeys entry asked := by
  rw [request_eq, requestResult]
  cases waits : waitingFor host asked with
  | some existing =>
      have member := List.mem_of_find?_eq_some waits
      have same : sameKeys existing.2 asked = true :=
        List.find?_some (p := fun each : RequestId × Entry => sameKeys each.2 asked) waits
      simp only [Option.isSome_some, true_or, if_true, Except.ok.injEq]
      constructor
      · rintro rfl
        exact ⟨existing.2, member, same⟩
      · rintro ⟨entry, also, keys⟩
        exact congrArg Prod.fst (kept.only member also same keys)
  | none =>
      have nobody := List.find?_eq_none.mp waits
      simp only [Option.isSome_none, Bool.false_eq_true, false_or]
      split
      · simp only [reduceCtorEq, false_iff]
        rintro ⟨entry, member, keys⟩
        exact nobody _ member keys
      · rw [pendingOf_added fresh kept.listed rfl]
        simp only [Except.ok.injEq]
        constructor
        · rintro rfl
          exact ⟨newEntry host asked personName fingerprint, by simp,
            by simp [sameKeys, newEntry]⟩
        · rintro ⟨entry, member, keys⟩
          rcases List.mem_append.mp member with old | new
          · exact absurd keys (nobody _ old)
          · exact (congrArg Prod.fst (List.mem_singleton.mp new)).symm

/-! ## What each step keeps -/

theorem Kept.weaken {later : Table CallId Int} (kept : Kept platform begun host)
    (same : ∀ call phase, host.calls call = some phase → later call = begun call) :
    Kept platform later host :=
  { kept with
    freshCalls := fun call phase parked => by
      rw [same call phase parked]
      exact kept.freshCalls call phase parked }

theorem pendingEntry_fresh (found : pendingEntry host id = some entry) :
    FreshAt (Vouching.dropStale host) host.now id := by
  simp only [pendingEntry, Host.entryOf, Option.filter_eq_some_iff] at found
  obtain ⟨held, -⟩ := found
  split at held
  · rename_i listed
    have young := (List.mem_filter.mp listed).2
    rw [show host.heap id = some entry from held] at young
    exact ⟨entry, held, by simpa using young⟩
  · cases held

theorem Kept.confirm (kept : Kept platform begun host) (call : CallId) (id : RequestId)
    (began : begun call = some host.now) : Kept platform begun (confirm host call id) := by
  unfold Vouching.confirm
  split
  · exact kept.dropStale.answer id fun vouch same => nomatch same
  · rename_i entry found
    exact kept.dropStale.park trivial began (pendingEntry_fresh found)

theorem Kept.enterPin (kept : Kept platform begun host) (call : CallId) (id : RequestId)
    (pin : JsString) (began : begun call = some host.now) :
    Kept platform begun (enterPin host call id pin) := by
  unfold Vouching.enterPin
  split
  · exact kept.dropStale.answer id fun vouch same => nomatch same
  · rename_i entry found
    exact kept.dropStale.park trivial began (pendingEntry_fresh found)

theorem Kept.reject (kept : Kept platform begun host) (id : RequestId) :
    Kept platform begun (reject host id) := by
  unfold Vouching.reject
  split
  · exact kept.dropStale
  · rename_i entry found
    have held : (Vouching.dropStale host).heap id = some entry := (pendingEntry_eq_some found).1
    exact kept.dropStale.settle held _ (by simp) rfl rfl fun vouched => nomatch vouched

theorem Kept.resumeCheckPin (kept : Kept platform begun host)
    (parked : host.calls call = some phase) (entry : Entry) :
    Kept platform begun (resumeCheckPin platform host call entry phase) := by
  cases phase with
  | countingGuess id pin =>
      have counted := kept.update keeps_countGuess entry.request.personKey
      simp only [Vouching.resumeCheckPin]
      split
      · rename_i roster stored failures same
        rw [same] at counted
        exact counted.goOn parked (.matchingPin ..) rfl trivial
      · rename_i roster result same
        rw [same] at counted
        exact counted.goOn parked (.findingPin ..) rfl trivial
  | findingPin id =>
      simp only [Vouching.resumeCheckPin]
      split
      all_goals exact kept.answer id fun vouch same => by cases same
  | matchingPin id pin stored failures =>
      simp only [Vouching.resumeCheckPin]
      split
      · exact kept.goOn parked _ rfl trivial
      · split
        all_goals exact kept.answer id fun vouch same => by cases same
  | clearingFailures id =>
      have cleared := kept.update keeps_clearFailures entry.request.personKey
      exact cleared.goOn parked (.findingPerson ..) rfl trivial
  | findingPerson | signing | addressing | recording | recorded => exact kept

theorem Kept.resumeVouchFor (kept : Kept platform begun host)
    (parked : host.calls call = some phase) (held : host.heap phase.id = some entry) :
    Kept platform begun (resumeVouchFor platform host call entry phase) := by
  have phaseKept := kept.calls call phase parked
  cases phase with
  | findingPerson id method =>
      simp only [Vouching.resumeVouchFor]
      split
      · exact kept.answer id fun vouch same => by cases same
      · rename_i person found
        have key := kept.keyed _ person found
        refine kept.goOn parked _ rfl ⟨key, ?_⟩
        rw [key, found]
        rfl
  | signing id personKey details =>
      have noted := kept.note (.signed id (createDeviceVouch platform details))
        fun _ _ same => by cases same
      exact noted.goOn parked (.addressing ..) rfl phaseKept
  | addressing id personKey vouch =>
      exact kept.goOn parked (.recording ..) rfl ⟨phaseKept.1, phaseKept.2, rfl⟩
  | recording id personKey vouch record =>
      obtain ⟨rfl, there, address⟩ := phaseKept
      have recorded := recorded_addVouch kept.keyed there address
      have updated := kept.update (keeps_addVouch record) vouch.payload.personKey
      simp only [Vouching.resumeVouchFor]
      split
      · rename_i roster saved same
        rw [same] at updated recorded
        have noted := updated.note (.recorded id record) fun _ _ same => by cases same
        exact noted.goOn parked (.recorded ..) rfl recorded
      · rename_i roster same
        have unchanged := update_unchanged (congrArg Prod.snd same)
        rw [unchanged] at recorded
        exact kept.goOn parked (.recorded ..) rfl recorded
  | recorded id vouch =>
      have settled := kept.settle held
        { entry with status := .vouched, vouch := some vouch } (by simp) rfl rfl
          fun _ => ⟨vouch, rfl, phaseKept⟩
      exact settled.answer id fun other same => by
        cases same
        exact phaseKept
  | countingGuess | findingPin | matchingPin | clearingFailures => exact kept

theorem Kept.resume (kept : Kept platform begun host) (parked : host.calls call = some phase)
    (held : host.heap phase.id = some entry) :
    Kept platform begun (resume platform host call phase entry) := by
  unfold Vouching.resume
  split
  · exact kept.resumeVouchFor parked held
  · exact kept.resumeCheckPin parked entry

theorem Kept.throwIn (kept : Kept platform begun host) {next : Host}
    (thrown : throwIn host call phase = some next) : Kept platform begun next := by
  cases phase with
  | recorded => cases thrown
  | addressing id | recording id =>
      cases thrown
      have noted := kept.note (.lost id) fun _ _ same => nomatch same
      exact noted.answer id fun _ same => nomatch same
  | countingGuess id | findingPin id | matchingPin id | clearingFailures id | findingPerson id
  | signing id =>
      cases thrown
      exact kept.answer id fun _ same => nomatch same

/-- The roster of the host after one of its own steps, for the requests that wait on it. -/
theorem grows_resume (kept : Kept platform begun host) (entry : Entry) (phase : Call) :
    Grows host.roster (resume platform host call phase entry).roster := by
  have same := Grows.refl host.roster
  cases phase with
  | countingGuess id pin =>
      have grows := grows_update kept.keyed keeps_countGuess entry.request.personKey
      simp only [Vouching.resume, Call.inVouchFor, Bool.false_eq_true, if_false,
        Vouching.resumeCheckPin]
      split
      all_goals
        rename_i updated
        rw [updated] at grows
        exact grows
  | clearingFailures id => exact grows_update kept.keyed keeps_clearFailures entry.request.personKey
  | recording id personKey vouch record =>
      have grows := grows_update kept.keyed (keeps_addVouch record) personKey
      simp only [Vouching.resume, Call.inVouchFor, if_true, Vouching.resumeVouchFor]
      split
      · rename_i updated
        rw [updated] at grows
        exact grows
      · exact same
  | findingPin | matchingPin | findingPerson =>
      simp only [Vouching.resume, Call.inVouchFor, Bool.false_eq_true, if_false, if_true,
        Vouching.resumeCheckPin, Vouching.resumeVouchFor]
      repeat' split
      all_goals exact same
  | signing | addressing | recorded => exact same

/-- A request that has found its person finds them there to the end. -/
def AskingKept (roster : PersonRoster) : Asking → Prop
  | .fingerprinting request _ => (roster request.personKey).isSome
  | .checking _ | .findingPerson _ => True

theorem AskingKept.grows {asking : Asking} (kept : AskingKept roster asking)
    (grows : Grows roster later) : AskingKept later asking := by
  cases asking with
  | fingerprinting => exact grows.isSome kept
  | checking | findingPerson => trivial

structure StateKept (platform : HostPlatform) (state : State) : Prop where
  host : Kept platform state.begun state.host
  asking : state.asking.All fun _ phase => AskingKept state.host.roster phase
  answered : ∀ request result, state.answered = some (request, result) →
    ∀ id, result = .ok id ↔ ∃ entry, (id, entry) ∈ pendingOf state.host ∧ sameKeys entry request

variable {state next : State} {action : Action}

/-- A step that answers no request. -/
theorem StateKept.quiet (kept : StateKept platform state)
    (host : Kept platform next.begun next.host) (grows : Grows state.host.roster next.host.roster)
    (asking : next.asking.All fun call phase => state.asking call = some phase ∨
      AskingKept next.host.roster phase) (answered : next.answered = none) :
    StateKept platform next where
  host := host
  asking := fun call phase held => by
    rcases asking call phase held with old | new
    · exact (kept.asking call phase old).grows grows
    · exact new
  answered := fun request result given => by
    rw [answered] at given
    cases given

theorem all_same {table : Table CallId Asking} {holds : CallId → Asking → Prop} :
    table.All fun call phase => table call = some phase ∨ holds call phase :=
  fun _ _ held => .inl held

theorem StateKept.onHost (kept : StateKept platform state) {host : Host}
    (hostKept : Kept platform state.begun host)
    (grows : Grows state.host.roster host.roster) :
    StateKept platform { state with host, answered := none } :=
  kept.quiet hostKept grows all_same rfl

theorem StateKept.parkAsking (kept : StateKept platform state) {asking : Asking}
    (askingKept : AskingKept state.host.roster asking) (call : CallId) :
    StateKept platform (state.parkAsking call asking) :=
  kept.quiet kept.host (Grows.refl _) (Table.All.put all_same (.inr askingKept)) rfl

theorem StateKept.resumeRequest (kept : StateKept platform state) {call : CallId} {id : RequestId}
    {fingerprint : Option JsString} {asking : Asking}
    (parked : state.asking call = some asking)
    (taken : resumeRequest state call id fingerprint asking = some next) :
    StateKept platform next := by
  cases asking with
  | checking check =>
      cases check with
      | error problem =>
          cases taken
          exact kept.quiet kept.host (Grows.refl _) (Table.All.remove all_same) rfl
      | ok request =>
          cases taken
          have finding : AskingKept state.host.roster (.findingPerson request) := trivial
          exact kept.parkAsking finding call
  | findingPerson request =>
      simp only [Waiting.resumeRequest] at taken
      split at taken
      · rename_i unknown
        cases taken
        refine ⟨kept.host, Table.All.remove kept.asking, fun asked result given other => ?_⟩
        cases given
        simp only [reduceCtorEq, false_iff]
        rintro ⟨entry, member, keys⟩
        have person := (kept.host.entries other entry (mem_pendingOf.mp member).2.1).person
        simp only [sameKeys, Bool.and_eq_true, decide_eq_true_eq] at keys
        rw [keys.2, unknown] at person
        cases person
      · rename_i person found
        cases taken
        exact kept.parkAsking (by simp [AskingKept, found]) call
  | fingerprinting asked personName =>
      simp only [Waiting.resumeRequest] at taken
      split at taken
      · cases taken
      · rename_i new
        cases taken
        have fresh := Option.not_isSome_iff_eq_none.mp new
        have roster (fingerprint : JsString) :
            (request state.host id asked personName fingerprint).roster = state.host.roster := by
          rw [request_eq]
          split <;> rfl
        refine ⟨kept.host.request fresh (kept.asking call _ parked),
          Table.All.remove fun other phase held => ?_, fun request result given other => ?_⟩
        · rw [State.respond, roster]
          exact kept.asking other phase held
        · cases given
          exact requestResult_iff kept.host fresh other

theorem StateKept.begin (kept : StateKept platform state) {call : CallId}
    (free : state.host.calls call = none) : StateKept platform (state.begin call) where
  host := kept.host.weaken fun other phase parked => by
    have different : other ≠ call := by
      rintro rfl
      rw [free] at parked
      cases parked
    exact Table.put_other different
  asking := kept.asking
  answered := kept.answered

/-- None of the three touches the roster itself. -/
theorem confirm_roster (host : Host) (call : CallId) (id : RequestId) :
    (confirm host call id).roster = host.roster := by
  unfold confirm
  split <;> rfl

theorem enterPin_roster (host : Host) (call : CallId) (id : RequestId) (pin : JsString) :
    (enterPin host call id pin).roster = host.roster := by
  unfold enterPin
  split <;> rfl

theorem reject_roster (host : Host) (id : RequestId) : (reject host id).roster = host.roster := by
  unfold reject
  split <;> rfl

theorem StateKept.step (kept : StateKept platform state)
    (taken : step platform state action = some next) : StateKept platform next := by
  have same := Grows.refl state.host.roster
  cases action with
  | tick | renameHost =>
      cases taken
      exact kept.onHost { kept.host with } same
  | edit edit =>
      cases taken
      have grows := edit.grows state.host.roster kept.host.keyed
      exact kept.onHost (kept.host.editRoster grows (edit.keyed _ kept.host.keyed)) grows
  | request call check =>
      simp only [Waiting.step] at taken
      split at taken
      · cases taken
      · cases taken
        have checking : AskingKept state.host.roster (.checking check) := trivial
        exact (kept.onHost kept.host.dropStale same).parkAsking checking call
  | resumeRequest call id fingerprint =>
      obtain ⟨asking, parked, resumed⟩ := Option.bind_eq_some_iff.mp taken
      exact kept.resumeRequest parked resumed
  | throwRequest call =>
      obtain ⟨asking, -, rfl⟩ := Option.map_eq_some_iff.mp taken
      exact kept.quiet kept.host same (Table.All.remove all_same) rfl
  | read =>
      cases taken
      exact kept.onHost kept.host.dropStale same
  | confirm call id =>
      obtain ⟨host, stepped, rfl⟩ := Option.map_eq_some_iff.mp taken
      simp only [Vouching.step] at stepped
      split at stepped
      · rename_i free
        cases stepped
        have begins := kept.begin (Option.isNone_iff_eq_none.mp free)
        exact begins.onHost (begins.host.confirm call id Table.put_self)
          ((confirm_roster state.host call id).symm ▸ same)
      · cases stepped
  | reject id =>
      cases taken
      exact kept.onHost (kept.host.reject id) ((reject_roster state.host id).symm ▸ same)
  | enterPin call id pin =>
      obtain ⟨host, stepped, rfl⟩ := Option.map_eq_some_iff.mp taken
      simp only [Vouching.step] at stepped
      split at stepped
      · rename_i free
        cases stepped
        have begins := kept.begin (Option.isNone_iff_eq_none.mp free)
        exact begins.onHost (begins.host.enterPin call id pin Table.put_self)
          ((enterPin_roster state.host call id pin).symm ▸ same)
      · cases stepped
  | resume call =>
      obtain ⟨host, stepped, rfl⟩ := Option.map_eq_some_iff.mp taken
      simp only [Vouching.step] at stepped
      cases parked : state.host.calls call with
      | none => simp [parked] at stepped
      | some phase =>
          simp only [parked, Option.map_eq_some_iff] at stepped
          obtain ⟨entry, held, rfl⟩ := stepped
          exact kept.onHost (kept.host.resume parked held) (grows_resume kept.host entry phase)
  | throw call =>
      obtain ⟨host, stepped, rfl⟩ := Option.map_eq_some_iff.mp taken
      obtain ⟨phase, -, thrown⟩ := Option.bind_eq_some_iff.mp stepped
      have roster : host.roster = state.host.roster := by
        cases phase <;> cases thrown <;> rfl
      exact kept.onHost (kept.host.throwIn thrown) (roster ▸ same)

theorem stateKept_opened (platform : HostPlatform) (now : Int) (hostLabel : JsString)
    (roster : KeyedRoster) : StateKept platform (.opened now hostLabel roster) where
  host :=
    { keyed := roster.keyed
      listed := fun _ member => nomatch member
      entries := fun _ _ held => nomatch held
      calls := fun _ _ held => nomatch held
      freshCalls := fun _ _ held => nomatch held
      returned := fun _ _ member => nomatch member
      bounded := Nat.zero_le _
      distinct := .nil }
  asking := Table.all_empty
  answered := fun _ _ given => nomatch given

/-! ## What the calls may read -/

theorem status_some {reading : Reading} (read : status host id = some reading) :
    FreshAt host host.now id ∧ ∃ entry, host.heap id = some entry ∧ entry.reading = reading := by
  obtain ⟨entry, held, is⟩ := Option.map_eq_some_iff.mp read
  simp only [Host.entryOf] at held
  split at held
  · rename_i listed
    have young := (List.mem_filter.mp listed).2
    rw [show host.heap id = some entry from held] at young
    exact ⟨⟨entry, held, by simpa using young⟩, entry, held, is⟩
  · cases held

theorem fresh_of_pending {shown : PendingVouch} (member : shown ∈ pending platform host) :
    FreshAt host host.now shown.id := by
  obtain ⟨⟨id, entry⟩, waits, rfl⟩ := List.mem_map.mp member
  obtain ⟨listed, held, -⟩ := mem_pendingOf.mp waits
  have young := (List.mem_filter.mp listed).2
  rw [show host.heap id = some entry from held] at young
  exact ⟨entry, held, by simpa using young⟩

theorem StateKept.inOrder (kept : StateKept platform state) : InOrder platform state where
  bounded := kept.host.bounded
  distinct := kept.host.distinct
  answered := kept.answered
  freshStatus := fun id reading read => (status_some read).1
  freshPending := fun shown member => fresh_of_pending member
  freshCalls := kept.host.freshCalls
  returned := kept.host.returned
  readable := fun id reading read => by
    obtain ⟨-, entry, held, is⟩ := status_some read
    have vouched := (kept.host.entries id entry held).vouched
    unfold Entry.reading at is
    split at is
    · cases is
    · cases is
    · rename_i settled
      cases is
      exact vouched settled

theorem waiting_requests_stay_in_order (platform : HostPlatform) (now : Int)
    (hostLabel : JsString) (roster : KeyedRoster) (state : State)
    (reached : Reaches (step platform) anyAction (.opened now hostLabel roster) state) :
    InOrder platform state := by
  have kept := reached.invariant (StateKept platform)
    (stateKept_opened platform now hostLabel roster) fun _ kept _ taken => kept.step taken
  exact kept.inOrder

/-! A phone asks twice at once, and the operator confirms it. -/

def samOnly : KeyedRoster where
  people := sampleHost.roster
  keyed := by
    intro personKey entry held
    simp only [sampleHost, Host.opened] at held
    split at held
    · rename_i same
      cases held
      exact same.symm
    · cases held

def noneYet : State := .opened 0 (js "Studio") samOnly

def askedTwice : List Action :=
  [.request 0 (.ok samRequest), .request 1 (.ok samRequest)] ++
    List.replicate 2 (.resumeRequest 0 (js "r") none) ++
    List.replicate 3 (.resumeRequest 1 (js "r") none) ++ [.resumeRequest 0 (js "s") none]

def confirmed : List Action := .confirm 2 (js "r") :: List.replicate 5 (.resume 2)

theorem phone_is_vouched_for : ∃ state,
    Reaches (step samplePlatform) anyAction noneYet state ∧
      (pendingOf state.host).length = 0 ∧ (status state.host (js "r")).isSome ∧
        InOrder samplePlatform state := by
  have ran : run (step samplePlatform) noneYet (askedTwice ++ confirmed) =
      some ((run (step samplePlatform) noneYet (askedTwice ++ confirmed)).getD noneYet) := by rfl
  have reached := Reaches.of_run ran (meetsAlong_anyAction _ _)
  exact ⟨_, reached, by decide, by decide, waiting_requests_stay_in_order samplePlatform 0
    (js "Studio") samOnly _ reached⟩

/-- Both requests of the phone are told the one id. -/
example : ((run (step samplePlatform) noneYet askedTwice).bind State.answered).map Prod.snd =
    some (.ok (js "r")) := by rfl

end Tapes.Vouching.Waiting
