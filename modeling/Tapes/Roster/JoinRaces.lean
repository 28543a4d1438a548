import Tapes.Roster.HostCalls

namespace Tapes.Roster

open Tapes.Js Tapes.Provenance Tapes.Machine
open Tapes.Vouching (HostPlatform)

/-! What the joins of one person leave of what the roster holds of that person. -/

/-- The put of a join is made only while the person is not on the roster. -/
def PutsNewPeople (host : CallHost) : CallAction → Prop
  | .write =>
      match host.writes with
      | ⟨personKey, .put ..⟩ :: _ => findPerson host.people personKey = none
      | _ => True
  | _ => True

/-- The certificate is the first one still, and no vouch and no record is gone. -/
structure EntryKept (entry later : RosterEntry) : Prop where
  certificate : later.firstCertificate = entry.firstCertificate
  vouches : ∀ vouch ∈ entry.vouches.getD [], ∃ kept ∈ later.vouches.getD [],
    kept.address = vouch.address
  records : ∀ record ∈ entry.passkeyRecords.getD [], ∃ kept ∈ later.passkeyRecords.getD [],
    kept.credentialId = record.credentialId

/-- The person's PIN after some new PINs were written, newest first. -/
def pinAfter (personKey : JsString) (pin : Option PinHash)
    (writes : List (JsString × Option PinHash)) : Option PinHash :=
  (writes.find? fun write => write.1 = personKey).elim pin Prod.snd

/-- What `after` holds of the person is what `before` held, but for additions, and the PIN is
the old one or that of the latest write that carried a PIN or its removal. -/
def PersonKept (personKey : JsString) (before after : CallHost) : Prop :=
  ∃ new, after.pinWrites = new ++ before.pinWrites ∧
    ∀ entry, findPerson before.people personKey = some entry →
      ∃ later, findPerson after.people personKey = some later ∧ EntryKept entry later ∧
        later.pin = pinAfter personKey entry.pin new

section

variable {entry middle later : RosterEntry} {personKey : JsString} {task : CallTask}
  {host next before after : CallHost}

theorem EntryKept.refl (entry : RosterEntry) : EntryKept entry entry :=
  ⟨rfl, fun vouch member => ⟨vouch, member, rfl⟩, fun record member => ⟨record, member, rfl⟩⟩

theorem EntryKept.trans (first : EntryKept entry middle) (second : EntryKept middle later) :
    EntryKept entry later := by
  refine ⟨second.certificate.trans first.certificate, ?_, ?_⟩
  · intro vouch member
    obtain ⟨kept, inside, same⟩ := first.vouches vouch member
    obtain ⟨last, present, equal⟩ := second.vouches kept inside
    exact ⟨last, present, equal.trans same⟩
  · intro record member
    obtain ⟨kept, inside, same⟩ := first.records record member
    obtain ⟨last, present, equal⟩ := second.records kept inside
    exact ⟨last, present, equal.trans same⟩

/-- A change that leaves vouches and records alone. -/
theorem EntryKept.of_same (certificate : later.firstCertificate = entry.firstCertificate)
    (vouches : later.vouches = entry.vouches)
    (records : later.passkeyRecords = entry.passkeyRecords) : EntryKept entry later := by
  refine ⟨certificate, ?_, ?_⟩
  · intro vouch member
    exact ⟨vouch, vouches ▸ member, rfl⟩
  · intro record member
    exact ⟨record, records ▸ member, rfl⟩

theorem addVouch_kept (record : SignedVouch) (changed : addVouch record entry = some later) :
    EntryKept entry later ∧ later.pin = entry.pin := by
  cases changed
  refine ⟨⟨rfl, ?_, fun record member => ⟨record, member, rfl⟩⟩, rfl⟩
  intro vouch member
  by_cases same : vouch.address = record.address
  · exact ⟨record, by simp, same.symm⟩
  · refine ⟨vouch, ?_, rfl⟩
    simp only [Option.getD_some, List.mem_append, List.mem_filter]
    exact .inl ⟨member, by simpa using same⟩

theorem markRevoked_kept {address revokedAt revocation : JsString}
    (changed : markRevoked address revokedAt revocation entry = some later) :
    EntryKept entry later ∧ later.pin = entry.pin := by
  cases changed
  refine ⟨⟨rfl, ?_, fun record member => ⟨record, member, rfl⟩⟩, rfl⟩
  intro vouch member
  exact ⟨markEach address revokedAt revocation vouch, List.mem_map_of_mem member,
    markEach_address address revokedAt revocation vouch⟩

theorem keepRecord_kept {stored : StoredPasskeyRecord}
    (changed : keepRecord stored entry = some later) :
    EntryKept entry later ∧ later.pin = entry.pin := by
  simp only [keepRecord] at changed
  split at changed
  · cases changed
  · cases changed
    refine ⟨⟨rfl, fun vouch member => ⟨vouch, member, rfl⟩, ?_⟩, rfl⟩
    intro record member
    by_cases same : record.credentialId = stored.credentialId
    · exact ⟨stored, by simp, same.symm⟩
    · refine ⟨record, ?_, rfl⟩
      simp only [Option.getD_some, List.mem_append, List.mem_filter]
      exact .inl ⟨member, by simpa using same⟩

/-- What a queued update makes of an entry. -/
theorem update_kept {change : RosterEntry → Option RosterEntry} {of : JsString}
    (updates : task.toTask personKey = .update of change) (changed : change entry = some later) :
    EntryKept entry later ∧ later.pin = task.carriedPin.getD entry.pin := by
  cases task with
  | put => cases updates
  | countGuess call pin guess =>
      cases updates
      simp only [countGuess] at changed
      split at changed
      · cases changed
        exact ⟨.of_same rfl rfl rfl, rfl⟩
      · cases changed
  | unlock call =>
      cases updates
      simp only [unlock] at changed
      split at changed
      · cases changed
      · cases changed
        exact ⟨.of_same rfl rfl rfl, rfl⟩
  | clearFailures call pin compared guess =>
      cases updates
      cases changed
      exact ⟨.of_same rfl rfl rfl, rfl⟩
  | savePin call hash compared =>
      cases updates
      cases changed
      exact ⟨.of_same rfl rfl rfl, rfl⟩
  | rename call name certificate pin =>
      cases updates
      cases pin with
      | none =>
          cases changed
          exact ⟨.of_same rfl rfl rfl, rfl⟩
      | some hash =>
          cases changed
          exact ⟨.of_same rfl rfl rfl, rfl⟩
  | addVouch call record =>
      cases updates
      exact addVouch_kept record changed
  | keepRecord call stored =>
      cases updates
      exact keepRecord_kept changed
  | markRevoked address revokedAt revocation =>
      cases updates
      exact markRevoked_kept changed

/-! ## Writes -/

theorem toTask_personKey (personKey : JsString) (task : CallTask) :
    (task.toTask personKey).personKey = personKey := by
  cases task <;> rfl

theorem toTask_keeps (personKey : JsString) (task : CallTask) :
    (task.toTask personKey).KeepsToPerson := by
  cases task with
  | put => trivial
  | countGuess => exact keepsToPerson_change personKey .countGuess
  | clearFailures => exact keepsToPerson_change personKey .clearFailures
  | savePin _ hash _ => exact keepsToPerson_change personKey (.savePin hash)
  | rename _ name _ pin => exact keepsToPerson_change personKey (.rename name pin)
  | unlock => exact keepsToPerson_change personKey .unlock
  | addVouch _ record => exact keepsToPerson_change personKey (.addVouch record)
  | keepRecord _ stored => exact keepsToPerson_change personKey (.keepRecord stored)
  | markRevoked address revokedAt revocation =>
      exact keepsToPerson_change personKey (.markRevoked address revokedAt revocation)

theorem findPerson_apply_other {task : Task} (keeps : task.KeepsToPerson) {other : JsString}
    (different : other ≠ task.personKey) (entries : List RosterEntry) :
    findPerson (task.apply entries) other = findPerson entries other := by
  cases written : task.written entries with
  | none => simp [Task.apply, written]
  | some next =>
      have key := task.written_key keeps written
      simp only [Task.apply, written, Option.elim]
      exact findPerson_replace_other (by rw [key]; exact different)

theorem findPerson_apply_self {task : Task} (keeps : task.KeepsToPerson)
    {entries : List RosterEntry} (written : task.written entries = some later) :
    findPerson (task.apply entries) task.personKey = some later := by
  rw [← task.written_key keeps written]
  simp only [Task.apply, written, Option.elim]
  exact findPerson_replace_self entries later

theorem apply_pinWrites (host : CallHost) (personKey : JsString) (task : CallTask) :
    ∃ new, (host.apply personKey task).pinWrites = new ++ host.pinWrites ∧
      (∀ write ∈ new, write.1 = personKey) ∧
      (∀ pin later, (task.toTask personKey).written host.people = some later →
        pinAfter personKey pin new = task.carriedPin.getD pin) ∧
      ((task.toTask personKey).written host.people = none → new = []) := by
  cases written : (task.toTask personKey).written host.people with
  | none =>
      refine ⟨[], by simp [CallHost.apply, written], by simp, ?_, fun _ => rfl⟩
      intro pin later same
      cases same
  | some later =>
      cases carried : task.carriedPin with
      | none => exact ⟨[], by simp [CallHost.apply, written, carried], by simp, by simp [pinAfter],
          fun _ => rfl⟩
      | some hash => exact ⟨[(personKey, hash)], by simp [CallHost.apply, written, carried], by simp,
          by simp [pinAfter], fun none => nomatch none⟩

theorem pinAfter_other {person : JsString} {new : List (JsString × Option PinHash)}
    (different : person ≠ personKey) (keys : ∀ write ∈ new, write.1 = personKey)
    (pin : Option PinHash) : pinAfter person pin new = pin := by
  have missing : new.find? (fun write => write.1 = person) = none := by
    apply List.find?_eq_none.mpr
    intro write member same
    exact different ((of_decide_eq_true same).symm.trans (keys write member))
  rw [pinAfter, missing, Option.elim_none]

/-- A write keeps every person who is on the roster, unless it is a put for that person. -/
theorem apply_kept (new : task.isPut = true → findPerson host.people personKey = none)
    (person : JsString) : PersonKept person host (host.apply personKey task) := by
  have keeps := toTask_keeps personKey task
  have of := toTask_personKey personKey task
  obtain ⟨writes, added, keys, pins, unwritten⟩ := apply_pinWrites host personKey task
  refine ⟨writes, added, ?_⟩
  intro entry found
  by_cases same : person = personKey
  · subst same
    cases written : (task.toTask person).written host.people with
    | none =>
        refine ⟨entry, ?_, .refl entry, ?_⟩
        · simpa [CallHost.apply, Task.apply, written] using found
        · rw [unwritten written]
          rfl
    | some later =>
        refine ⟨later, ?_, ?_⟩
        · have last := findPerson_apply_self keeps written
          rwa [of] at last
        · cases shape : task.toTask person with
          | put put =>
              have isPut : task.isPut = true := by
                cases task <;> first | rfl | cases shape
              rw [new isPut] at found
              cases found
          | update whose change =>
              rw [shape] at of
              cases of
              rw [shape] at written
              obtain ⟨held, here, changed⟩ := Option.bind_eq_some_iff.mp written
              cases found.symm.trans here
              obtain ⟨kept, pin⟩ := update_kept shape changed
              refine ⟨kept, ?_⟩
              rw [pins entry.pin later (by rw [shape]; exact written)]
              exact pin
  · refine ⟨entry, ?_, .refl entry, (pinAfter_other same keys entry.pin).symm⟩
    rw [← found]
    exact findPerson_apply_other keeps (by rw [of]; exact same) host.people

end

/-! ## Steps -/

/-- The roster and what is kept about it are those of the other host. -/
structure SameRoster (host next : CallHost) : Prop where
  people : next.people = host.people
  pinWrites : next.pinWrites = host.pinWrites
  counted : next.counted = host.counted

section

variable {platform : HostPlatform} {host next before middle after : CallHost} {action : CallAction}
  {personKey person : JsString} {task : CallTask}

theorem perform_roster : SameRoster (host.apply personKey task) (perform host personKey task) := by
  cases task with
  | countGuess call pin guess =>
      simp only [perform]
      split <;> exact ⟨rfl, rfl, rfl⟩
  | clearFailures call pin compared guess =>
      cases guess with
      | enterPin request => exact ⟨rfl, rfl, rfl⟩
      | changePin newPin => cases newPin <;> exact ⟨rfl, rfl, rfl⟩
  | savePin call hash compared =>
      simp only [perform]
      split <;> exact ⟨rfl, rfl, rfl⟩
  | rename call name certificate pin =>
      simp only [perform]
      split <;> exact ⟨rfl, rfl, rfl⟩
  | addVouch call record =>
      simp only [perform]
      split <;> exact ⟨rfl, rfl, rfl⟩
  | keepRecord call stored =>
      simp only [perform]
      split <;> exact ⟨rfl, rfl, rfl⟩
  | put | unlock | markRevoked => exact ⟨rfl, rfl, rfl⟩

theorem resumeWaiting_roster {call : Vouching.CallId} {hostLabel : JsString} {time : Int}
    {waiting : Waiting} (resumed : resumeWaiting platform host call hostLabel time waiting = some next) :
    SameRoster host next := by
  cases waiting with
  | hashing => cases resumed
  | joining | removing | signing | storing =>
      cases resumed
      exact ⟨rfl, rfl, rfl⟩
  | findingPerson | findingPin | vouching | unlocking =>
      simp only [resumeWaiting] at resumed
      split at resumed <;> cases resumed <;> exact ⟨rfl, rfl, rfl⟩
  | matching =>
      simp only [resumeWaiting] at resumed
      split at resumed
      · cases resumed
        exact ⟨rfl, rfl, rfl⟩
      · split at resumed <;> cases resumed <;> exact ⟨rfl, rfl, rfl⟩
  | listing =>
      simp only [resumeWaiting] at resumed
      split at resumed
      · cases resumed
        exact ⟨rfl, rfl, rfl⟩
      · split at resumed <;> cases resumed <;> exact ⟨rfl, rfl, rfl⟩

/-- Only a write changes the roster. -/
theorem callStep_roster (taken : callStep platform host action = some next)
    (other : action ≠ .write) : SameRoster host next := by
  cases action with
  | write => exact absurd rfl other
  | close | unlockPin | keepRecord | markRevoked | restart =>
      cases taken
      exact ⟨rfl, rfl, rfl⟩
  | ask | confirm | enterPin | changePin | failWrite | throw =>
      simp only [callStep] at taken
      split at taken <;> cases taken <;> exact ⟨rfl, rfl, rfl⟩
  | join personKey name certificate pin =>
      simp only [callStep] at taken
      split at taken
      · cases taken
        exact ⟨rfl, rfl, rfl⟩
      · cases taken
        exact ⟨rfl, rfl, rfl⟩
      · split at taken <;> cases taken
        exact ⟨rfl, rfl, rfl⟩
  | setPin personKey newPin =>
      simp only [callStep] at taken
      split at taken
      · cases taken
        exact ⟨rfl, rfl, rfl⟩
      · split at taken <;> cases taken <;> exact ⟨rfl, rfl, rfl⟩
  | resume call hostLabel time =>
      obtain ⟨waiting, -, resumed⟩ := Option.bind_eq_some_iff.mp taken
      exact resumeWaiting_roster resumed
  | hashed call hash =>
      simp only [callStep] at taken
      split at taken
      · rename_i hashing _
        split at taken <;> cases taken
        cases hashing <;> exact ⟨rfl, rfl, rfl⟩
      · cases taken

theorem PersonKept.of_same (same : SameRoster host next) : PersonKept person host next :=
  ⟨[], same.pinWrites, fun entry found =>
    ⟨entry, same.people ▸ found, .refl entry, rfl⟩⟩

theorem PersonKept.trans (first : PersonKept person before middle)
    (second : PersonKept person middle after) : PersonKept person before after := by
  obtain ⟨early, added, keeps⟩ := first
  obtain ⟨late, more, keeps_on⟩ := second
  refine ⟨late ++ early, by rw [more, added, List.append_assoc], ?_⟩
  intro entry found
  obtain ⟨between, here, kept, pin⟩ := keeps entry found
  obtain ⟨later, there, kept_on, last⟩ := keeps_on between here
  refine ⟨later, there, kept.trans kept_on, ?_⟩
  rw [last, pin]
  simp only [pinAfter, List.find?_append]
  cases late.find? fun write => decide (write.1 = person) with
  | none => rfl
  | some write => rfl

theorem callStep_kept (met : PutsNewPeople host action)
    (taken : callStep platform host action = some next) : PersonKept person host next := by
  by_cases writes : action = .write
  · subst writes
    simp only [callStep] at taken
    split at taken
    · cases taken
    · rename_i first rest queue
      cases taken
      obtain ⟨personKey, task⟩ := first
      have new : task.isPut = true → findPerson host.people personKey = none := by
        intro isPut
        cases task with
        | put => simpa only [PutsNewPeople, queue] using met
        | _ => cases isPut
      let waiting : CallHost := { host with writes := rest }
      have kept : PersonKept person waiting (waiting.apply personKey task) := apply_kept new person
      exact (show PersonKept person host (waiting.apply personKey task) from kept).trans
        (PersonKept.of_same perform_roster)
  · exact PersonKept.of_same (callStep_roster taken writes)

/-- While no join's put finds its person on the roster already, what the roster holds of a
person is kept, from any state on. -/
theorem joins_keep_the_person (reached : Reaches (callStep platform) PutsNewPeople before after)
    (personKey : JsString) : PersonKept personKey before after :=
  reached.invariant (PersonKept personKey before) (PersonKept.of_same ⟨rfl, rfl, rfl⟩)
    fun _ kept met taken => kept.trans (callStep_kept met taken)

end

/-! ## Two first joins at once -/

def plainHost : HostPlatform where
  hostKey := js "host"
  sign _ := js "signature"
  statementAddress _ := js "vouch"
  derives pin stored := pin = stored.hash
  toISOString _ := js "t"

/-- The certificate of one of Sam's devices. -/
def certificateOf (deviceKey : String) : FirstCertificate :=
  ⟨js deviceKey, ⟨.object [(js "type", .string deviceCertificateType),
    (js "personKey", .string (js "sam")), (js "deviceKey", .string (js deviceKey)),
    (js "deviceLabel", .string (js "phone")), (js "issuedAt", .string (js "t"))],
    js "signature"⟩⟩

/-- Sam joins from a phone with a PIN and from a tablet without one, and neither finds Sam on
the roster. The phone's entry is written. -/
def joinTwice : List CallAction :=
  [.join (js "sam") (js "Sam") (certificateOf "phone") (some (some (js "4821"))),
    .hashed 0 ⟨js "salt", js "4821", 100000⟩,
    .join (js "sam") (js "Sam") (certificateOf "tablet") none, .write, .write,
    .resume 0 (js "host") 0, .resume 1 (js "host") 0, .write]

/-- The address of the person's first certificate, and whether there is a PIN. -/
def CallHost.held (host : CallHost) (personKey : JsString) : Option (JsString × Bool) :=
  (findPerson host.people personKey).map fun entry =>
    (entry.firstCertificate.address, entry.pin.isSome)

theorem joinTwice_replaces :
    ((run (callStep plainHost) .opened joinTwice).bind fun before =>
      (run (callStep plainHost) before [.write]).map fun after =>
        (before.held (js "sam"), after.held (js "sam"))) =
      some (some (js "phone", true), some (js "tablet", false)) := by
  decide +kernel

/-- The tablet's put undoes the join from the phone: the certificate is another, and the PIN is
gone though the tablet's join carried none. -/
theorem second_first_join_undoes_the_first :
    ¬ ∀ (platform : HostPlatform) (before after : CallHost) (personKey : JsString),
      Reaches (callStep platform) anyAction .opened before →
      Reaches (callStep platform) anyAction before after → PersonKept personKey before after := by
  intro keeps
  obtain ⟨before, joined, found⟩ := Option.bind_eq_some_iff.mp joinTwice_replaces
  obtain ⟨after, wrote, shows⟩ := Option.map_eq_some_iff.mp found
  obtain ⟨first, last⟩ := Prod.mk.inj shows
  obtain ⟨entry, here, address⟩ := Option.map_eq_some_iff.mp first
  obtain ⟨new, -, kept⟩ := keeps plainHost before after (js "sam")
    (.of_run joined (meetsAlong_anyAction _ _)) (.of_run wrote (meetsAlong_anyAction _ _))
  obtain ⟨later, there, same, -⟩ := kept entry here
  rw [CallHost.held, there, Option.map_some, Option.some.injEq] at last
  have certificate := congrArg FirstCertificate.address same.certificate
  rw [(Prod.mk.inj address).1, (Prod.mk.inj last).1] at certificate
  exact absurd certificate (by decide)

/-- A join from the phone, then a PIN set at the host and a join from the tablet. -/
def joinOneByOne : List CallAction :=
  [.join (js "sam") (js "Sam") (certificateOf "phone") none, .write, .resume 0 (js "host") 0,
    .write]

def setPinAndJoin : List CallAction :=
  [.setPin (js "sam") (some (js "4821")), .hashed 1 ⟨js "salt", js "4821", 100000⟩, .write,
    .join (js "sam") (js "Sam") (certificateOf "tablet") none, .write]

instance (host : CallHost) (action : CallAction) : Decidable (PutsNewPeople host action) := by
  unfold PutsNewPeople
  split
  · split
    · exact decidable_of_iff _ Option.isNone_iff_eq_none
    · exact isTrue trivial
  · exact isTrue trivial

def stepIfNew (host : CallHost) (action : CallAction) : Option CallHost :=
  if PutsNewPeople host action then callStep plainHost host action else none

theorem joinOneByOne_keeps :
    ((run stepIfNew .opened joinOneByOne).bind fun before =>
      (run stepIfNew before setPinAndJoin).map fun after =>
        (before.held (js "sam"), after.held (js "sam"))) =
      some (some (js "phone", false), some (js "phone", true)) := by
  decide +kernel

theorem later_join_keeps_the_certificate :
    ∃ before after, PersonKept (js "sam") before after ∧
      before.held (js "sam") = some (js "phone", false) ∧
      after.held (js "sam") = some (js "phone", true) := by
  obtain ⟨before, joined, found⟩ := Option.bind_eq_some_iff.mp joinOneByOne_keeps
  obtain ⟨after, kept, shows⟩ := Option.map_eq_some_iff.mp found
  obtain ⟨first, last⟩ := Prod.mk.inj shows
  exact ⟨before, after, joins_keep_the_person (.of_guarded_run kept) (js "sam"), first, last⟩

end Tapes.Roster
