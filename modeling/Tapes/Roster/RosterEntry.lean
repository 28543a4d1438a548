import Tapes.Provenance.Statements

namespace Tapes.Roster

open Tapes.Js Tapes.Provenance

/-! The entries of the people on a host's roster, and every change that the host makes
to one. -/

def maxPinFailures : Nat := 5

structure PinHash where
  salt : JsString
  hash : JsString
  iterations : Nat
deriving DecidableEq

/-- The last two are there once the host has signed a revocation. -/
structure SignedVouch where
  address : JsString
  deviceKey : JsString
  deviceLabel : JsString
  deviceFingerprint : JsString
  method : VouchMethod
  vouchedAt : JsString
  revokedAt : Option JsString
  revocation : Option JsString
deriving DecidableEq

structure StoredPasskeyRecord where
  credentialId : JsString
  tokenHash : JsString
  record : JsString
  storedAt : JsString
deriving DecidableEq

structure FirstCertificate where
  address : JsString
  signed : Signed JsValue

structure RosterEntry where
  personKey : JsString
  name : JsString
  firstCertificate : FirstCertificate
  pin : Option PinHash
  pinFailures : Option Nat
  vouches : Option (List SignedVouch)
  passkeyRecords : Option (List StoredPasskeyRecord)
  joinedAt : JsString

def maxRecordsPerPerson : Nat := 5

/-! ## Changes -/

def failuresOf (entry : RosterEntry) : Nat := entry.pinFailures.getD 0

def isLocked (entry : RosterEntry) : Bool := maxPinFailures ≤ failuresOf entry

def countGuess (entry : RosterEntry) : Option RosterEntry :=
  if entry.pin.isSome && !isLocked entry then
    some { entry with pinFailures := some (failuresOf entry + 1) }
  else none

def clearFailures (entry : RosterEntry) : Option RosterEntry :=
  some { entry with pinFailures := none }

def savePin (hash : Option PinHash) (entry : RosterEntry) : Option RosterEntry :=
  some { entry with pin := hash, pinFailures := none }

def unlock (entry : RosterEntry) : Option RosterEntry :=
  if entry.pinFailures.isNone then none else some { entry with pinFailures := none }

/-- A join of a person who is on the roster. `pin` is none where the join leaves the PIN
alone, and the hash is none where the join removes it. -/
def rename (name : JsString) (pin : Option (Option PinHash)) (entry : RosterEntry) :
    Option RosterEntry :=
  match pin with
  | none => some { entry with name }
  | some hash => some { entry with name, pin := hash, pinFailures := none }

def addVouch (record : SignedVouch) (saved : RosterEntry) : Option RosterEntry :=
  some { saved with
    vouches := some
      ((saved.vouches.getD []).filter (fun each => each.address != record.address) ++ [record]) }

def markEach (address revokedAt revocation : JsString) (each : SignedVouch) : SignedVouch :=
  if each.address = address then
    { each with revokedAt := some revokedAt, revocation := some revocation }
  else each

def markRevoked (address revokedAt revocation : JsString) (saved : RosterEntry) :
    Option RosterEntry :=
  some { saved with
    vouches := some ((saved.vouches.getD []).map (markEach address revokedAt revocation)) }

@[simp] theorem markEach_address (address revokedAt revocation : JsString) (each : SignedVouch) :
    (markEach address revokedAt revocation each).address = each.address := by
  unfold markEach
  split <;> rfl

@[simp] theorem markEach_deviceKey (address revokedAt revocation : JsString) (each : SignedVouch) :
    (markEach address revokedAt revocation each).deviceKey = each.deviceKey := by
  unfold markEach
  split <;> rfl

/-- None where the person keeps too many records already. -/
def keepRecord (stored : StoredPasskeyRecord) (entry : RosterEntry) : Option RosterEntry :=
  let kept := (entry.passkeyRecords.getD []).filter fun record =>
    record.credentialId != stored.credentialId
  if maxRecordsPerPerson ≤ kept.length then none
  else some { entry with passkeyRecords := some (kept ++ [stored]) }

/-- Every change that the host's own code passes to `update`. -/
inductive Change where
  | rename (name : JsString) (pin : Option (Option PinHash))
  | countGuess
  | clearFailures
  | savePin (hash : Option PinHash)
  | unlock
  | addVouch (record : SignedVouch)
  | markRevoked (address revokedAt revocation : JsString)
  | keepRecord (stored : StoredPasskeyRecord)
deriving DecidableEq

def Change.apply : Change → RosterEntry → Option RosterEntry
  | .rename name pin => Roster.rename name pin
  | .countGuess => Roster.countGuess
  | .clearFailures => Roster.clearFailures
  | .savePin hash => Roster.savePin hash
  | .unlock => Roster.unlock
  | .addVouch record => Roster.addVouch record
  | .markRevoked address revokedAt revocation => Roster.markRevoked address revokedAt revocation
  | .keepRecord stored => Roster.keepRecord stored

/-! ## The list of people -/

/-- `firstCertificate` is that of the join, and the entry has no vouches yet. -/
def joinEntry (personKey name : JsString) (firstCertificate : FirstCertificate)
    (pin : Option PinHash) (joinedAt : JsString) : RosterEntry :=
  { personKey, name, firstCertificate, pin
    pinFailures := none, vouches := none, passkeyRecords := none, joinedAt }

def findPerson (entries : List RosterEntry) (personKey : JsString) : Option RosterEntry :=
  entries.find? fun entry => entry.personKey = personKey

/-- The people but the one, in their order. -/
def others (entries : List RosterEntry) (personKey : JsString) : List RosterEntry :=
  entries.filter fun entry => entry.personKey ≠ personKey

/-- The list that `replace` writes. -/
def replace (entries : List RosterEntry) (entry : RosterEntry) : List RosterEntry :=
  others entries entry.personKey ++ [entry]

/-- What `put` or `update` puts in the queue. -/
inductive Task where
  | put (entry : RosterEntry)
  | update (personKey : JsString) (change : RosterEntry → Option RosterEntry)

/-- The entry that the task writes, none where an update has nothing to write. -/
def Task.written (entries : List RosterEntry) : Task → Option RosterEntry
  | .put entry => some entry
  | .update personKey change => (findPerson entries personKey).bind change

/-- What the task makes of the list. -/
def Task.apply (entries : List RosterEntry) (task : Task) : List RosterEntry :=
  (task.written entries).elim entries (replace entries)

def Task.personKey : Task → JsString
  | .put entry => entry.personKey
  | .update personKey _ => personKey

/-- The task writes no entry of another person than its own. -/
def Task.KeepsToPerson : Task → Prop
  | .put _ => True
  | .update personKey change => ∀ entry next, entry.personKey = personKey →
      change entry = some next → next.personKey = personKey

variable {entries : List RosterEntry} {entry next : RosterEntry} {personKey other : JsString}

theorem findPerson_key (found : findPerson entries personKey = some entry) :
    entry.personKey = personKey := by
  have same := List.find?_some found
  simpa using same

theorem others_replace (entries : List RosterEntry) (entry : RosterEntry) :
    others (replace entries entry) entry.personKey = others entries entry.personKey := by
  simp [replace, others]

theorem findPerson_others_self (entries : List RosterEntry) (personKey : JsString) :
    findPerson (others entries personKey) personKey = none := by
  apply List.find?_eq_none.mpr
  intro entry member
  simpa using (List.mem_filter.mp member).2

theorem findPerson_others (different : other ≠ personKey) :
    findPerson (others entries personKey) other = findPerson entries other := by
  simp only [findPerson, others, List.find?_filter]
  congr 1
  funext entry
  by_cases same : entry.personKey = other
  · simp [same, different]
  · simp [same]

theorem findPerson_replace_self (entries : List RosterEntry) (entry : RosterEntry) :
    findPerson (replace entries entry) entry.personKey = some entry := by
  have missing := findPerson_others_self entries entry.personKey
  rw [findPerson] at missing ⊢
  rw [replace, List.find?_append, missing]
  simp

theorem findPerson_replace_other (different : other ≠ entry.personKey) :
    findPerson (replace entries entry) other = findPerson entries other := by
  have unequal : ¬ entry.personKey = other := fun same => different same.symm
  have kept : findPerson (others entries entry.personKey) other = findPerson entries other :=
    findPerson_others different
  rw [← kept, findPerson, replace, List.find?_append]
  simp [findPerson, unequal]

theorem Task.written_key {task : Task} (keeps : task.KeepsToPerson)
    (written : task.written entries = some next) : next.personKey = task.personKey := by
  cases task with
  | put entry =>
      cases written
      rfl
  | update personKey change =>
      obtain ⟨entry, found, changed⟩ := Option.bind_eq_some_iff.mp written
      exact keeps entry next (findPerson_key found) changed

/-- A task on one person leaves the entries and the order of the others alone. -/
theorem Task.others_apply {task : Task} (keeps : task.KeepsToPerson)
    (entries : List RosterEntry) :
    others (task.apply entries) task.personKey = others entries task.personKey := by
  cases written : task.written entries with
  | none => simp [Task.apply, written]
  | some next =>
      have key := task.written_key keeps written
      simp only [Task.apply, written, Option.elim]
      rw [← key]
      exact others_replace entries next

/-- The host's own changes keep the person, the certificate and the time of the join. -/
theorem Change.apply_keeps {change : Change} (changed : change.apply entry = some next) :
    next.personKey = entry.personKey ∧ next.firstCertificate = entry.firstCertificate ∧
      next.joinedAt = entry.joinedAt := by
  cases change with
  | rename name pin =>
      cases pin <;> cases changed <;> exact ⟨rfl, rfl, rfl⟩
  | countGuess =>
      simp only [Change.apply, Roster.countGuess] at changed
      split at changed <;> cases changed
      exact ⟨rfl, rfl, rfl⟩
  | unlock =>
      simp only [Change.apply, Roster.unlock] at changed
      split at changed <;> cases changed
      exact ⟨rfl, rfl, rfl⟩
  | keepRecord stored =>
      simp only [Change.apply, Roster.keepRecord] at changed
      split at changed <;> cases changed
      exact ⟨rfl, rfl, rfl⟩
  | clearFailures | savePin | addVouch | markRevoked =>
      cases changed
      exact ⟨rfl, rfl, rfl⟩

theorem keepsToPerson_change (personKey : JsString) (change : Change) :
    (Task.update personKey change.apply).KeepsToPerson := by
  intro entry next same changed
  rw [(Change.apply_keeps changed).1, same]

end Tapes.Roster
