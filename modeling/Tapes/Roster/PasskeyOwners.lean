import Tapes.Js.OrderedMap
import Tapes.Js.Utf8
import Tapes.Roster.PinDecisions

namespace Tapes.Roster

open Tapes.Js Tapes.Provenance Tapes.Machine
open Tapes.Vouching (HostPlatform CallId)

/-! Whose record a credential id gives. A put looks through the whole roster for an owner, and its
write, some awaits later, looks at its own person only. -/

/-! ## Fetches -/

def maxFetchesPerWindow : Nat := 10

def fetchWindowMs : Int := 60000

structure FetchWindow where
  count : Nat
  untilMs : Int
deriving DecidableEq

abbrev Fetches := List (JsString × FetchWindow)

def throttled (fetches : Fetches) (credentialId : JsString) (time : Int) : Bool × Fetches :=
  let anew := (setEntry fetches credentialId ⟨1, time + fetchWindowMs⟩).filter fun other =>
    time < other.2.untilMs
  match (fetches.find? fun other => other.1 = credentialId).map Prod.snd with
  | none => (false, anew)
  | some window =>
      if window.untilMs ≤ time then (false, anew)
      else (maxFetchesPerWindow < window.count + 1,
        setEntry fetches credentialId ⟨window.count + 1, window.untilMs⟩)

/-- `none` is the one answer for no record and for a wrong token. -/
def fetch (platform : Platform) (people : List RosterEntry) (fetches : Fetches)
    (credentialId token : JsString) (time : Int) : Option JsString × Fetches :=
  if credentialId = [] then (none, fetches)
  else
    let (refused, fetches) := throttled fetches credentialId time
    if refused then (none, fetches)
    else
      let records := people.flatMap fun entry => entry.passkeyRecords.getD []
      let found := records.find? fun held => held.credentialId = credentialId ∧
        utf8Encode held.tokenHash = utf8Encode (sha256Hex platform (utf8Encode token))
      (found.map StoredPasskeyRecord.record, fetches)

/-! ## The property -/

/-- The credential id of the record that the write keeps. -/
def CallTask.keeps : CallTask → Option JsString
  | .keepRecord _ stored => some stored.credentialId
  | _ => none

/-- A put of the person has found no other owner of the id, and is not written yet. -/
def CallHost.Putting (host : CallHost) (personKey credentialId : JsString) : Prop :=
  (∃ call stored, (call, .storing personKey stored) ∈ host.waiting ∧
    stored.credentialId = credentialId) ∨
  ∃ write ∈ host.writes, write.personKey = personKey ∧ write.task.keeps = some credentialId

structure FirstOwns (platform : HostPlatform) (host : CallHost) : Prop where
  unique : ∀ credentialId, ∀ first ∈ host.people, ∀ second ∈ host.people,
    keepsRecord credentialId first = true → keepsRecord credentialId second = true →
      first.personKey = second.personKey
  /-- An answer changes neither the roster nor what is queued for it. -/
  refused : ∀ owner ∈ host.people, ∀ call personKey stored hostLabel now,
    keepsRecord stored.credentialId owner = true → personKey ≠ owner.personKey →
      host.waitingOf call = some (.listing personKey stored) →
        callStep platform host (.resume call hostLabel now) = some (host.answer call .notYours)
  settled : ∀ owner ∈ host.people, ∀ personKey credentialId,
    keepsRecord credentialId owner = true → personKey ≠ owner.personKey →
      ¬ host.Putting personKey credentialId
  fetched : ∀ owner ∈ host.people, ∀ (crypto : Platform) fetches credentialId token time record,
    keepsRecord credentialId owner = true →
      (fetch crypto host.people fetches credentialId token time).1 = some record →
        ∃ entry ∈ host.people, entry.personKey = owner.personKey ∧
          ∃ held ∈ entry.passkeyRecords.getD [], held.record = record

def FirstPersonOwns (guard : CallHost → CallAction → Prop) : Prop :=
  ∀ platform host, Reaches (callStep platform) guard .opened host → FirstOwns platform host

/-- A put passes the look through the roster only while no one else's put of the same id is between
that look and its write. -/
def PutsApart (host : CallHost) : CallAction → Prop
  | .resume call _ _ => ∀ personKey stored, host.waitingOf call = some (.listing personKey stored) →
      (∀ owner, host.people.find? (keepsRecord stored.credentialId) = some owner →
        owner.personKey = personKey) →
      ∀ other, host.Putting other stored.credentialId → other = personKey
  | _ => True

variable {platform : HostPlatform} {host next middle : CallHost} {action : CallAction} {call : CallId}
  {personKey credentialId : JsString} {task : CallTask} {waiting : Waiting}
  {entry later : RosterEntry}

/-! ## The puts under way -/

/-- No put has come to be under way. -/
def CallHost.Quiet (host next : CallHost) : Prop :=
  ∀ personKey credentialId, next.Putting personKey credentialId → host.Putting personKey credentialId

theorem CallHost.Quiet.trans (first : host.Quiet middle) (second : middle.Quiet next) :
    host.Quiet next :=
  fun _ _ putting => first _ _ (second _ _ putting)

theorem quiet_unpark (host : CallHost) (call : CallId) : host.Quiet (host.unpark call) := by
  intro personKey credentialId putting
  obtain ⟨other, stored, member, same⟩ | queued := putting
  · exact .inl ⟨other, stored, mem_unpark member, same⟩
  · exact .inr queued

theorem quiet_answer (host : CallHost) (call : CallId) (answer : CallAnswer) :
    host.Quiet (host.answer call answer) := quiet_unpark host call

theorem putting_of_park (putting : (host.park call waiting).Putting personKey credentialId) :
    host.Putting personKey credentialId ∨
      ∃ stored, waiting = .storing personKey stored ∧ stored.credentialId = credentialId := by
  obtain ⟨other, stored, member, same⟩ | queued := putting
  · obtain new | old := mem_park member
    · obtain ⟨-, rfl⟩ := Prod.mk.inj new
      exact .inr ⟨stored, rfl, same⟩
    · exact .inl (.inl ⟨other, stored, old, same⟩)
  · exact .inl (.inr queued)

theorem quiet_park (host : CallHost) (call : CallId)
    (other : ∀ personKey stored, waiting ≠ .storing personKey stored) :
    host.Quiet (host.park call waiting) := by
  intro personKey credentialId putting
  obtain old | ⟨stored, new, _⟩ := putting_of_park putting
  · exact old
  · exact absurd new (other personKey stored)

theorem putting_of_enqueue {of : JsString}
    (putting : (host.enqueue of task).Putting personKey credentialId) :
    host.Putting personKey credentialId ∨ of = personKey ∧ task.keeps = some credentialId := by
  obtain parked | ⟨write, member, same, keeps⟩ := putting
  · exact .inl (.inl parked)
  · obtain old | new := List.mem_append.mp member
    · exact .inl (.inr ⟨write, old, same, keeps⟩)
    · rw [List.mem_singleton.mp new] at same keeps
      exact .inr ⟨same, keeps⟩

theorem quiet_enqueue (host : CallHost) (of : JsString) (keeps : task.keeps = none) :
    host.Quiet (host.enqueue of task) := by
  intro personKey credentialId putting
  obtain old | ⟨_, new⟩ := putting_of_enqueue putting
  · exact old
  · rw [keeps] at new
    cases new

theorem quiet_perform (host : CallHost) (personKey : JsString) (task : CallTask) :
    host.Quiet (perform host personKey task) := by
  have applied : host.Quiet (host.apply personKey task) := fun _ _ => id
  cases task with
  | countGuess call pin guess =>
      simp only [perform]
      split
      · exact applied.trans (quiet_park _ call fun _ _ => by simp)
      · exact applied.trans (quiet_park _ call fun _ _ => by simp)
  | clearFailures call pin compared guess =>
      cases guess with
      | enterPin request => exact applied.trans (quiet_park _ call fun _ _ => by simp)
      | changePin newPin =>
          cases newPin with
          | none => exact applied.trans (quiet_park _ call fun _ _ => by simp)
          | some newPin => exact applied.trans (quiet_park _ call fun _ _ => by simp)
  | savePin call hash compared =>
      simp only [perform]
      split
      · exact applied.trans (quiet_answer _ call _)
      · exact applied.trans (quiet_answer _ call _)
      · exact applied.trans (quiet_answer _ call _)
  | rename call name certificate pin =>
      simp only [perform]
      split
      · exact applied.trans (quiet_answer _ call _)
      · exact applied.trans (quiet_park _ call fun _ _ => by simp)
  | put call | unlock call => exact applied.trans (quiet_answer _ call _)
  | addVouch call record =>
      simp only [perform]
      split
      · exact applied.trans (quiet_answer _ call _)
      · exact applied.trans (quiet_answer _ call _)
  | keepRecord call stored =>
      simp only [perform]
      split
      · exact applied.trans (quiet_answer _ call _)
      · exact applied.trans (quiet_answer _ call _)
      · exact applied.trans (quiet_answer _ call _)
  | markRevoked => exact applied

theorem quiet_afterHash {hash : PinHash} (hashing : Hashing) :
    host.Quiet (afterHash host call hash hashing) := by
  cases hashing with
  | join | setPin | changePin => exact quiet_enqueue _ _ rfl

/-- A put that goes on from its look through the roster, which found no other owner. -/
def CallHost.Passes (host : CallHost) (action : CallAction) (personKey credentialId : JsString) :
    Prop :=
  ∃ call hostLabel now stored, action = .resume call hostLabel now ∧
    host.waitingOf call = some (.listing personKey stored) ∧ stored.credentialId = credentialId ∧
    ∀ owner, host.people.find? (keepsRecord credentialId) = some owner → owner.personKey = personKey

theorem putting_of_resume {hostLabel : JsString} {time : Int}
    (found : host.waitingOf call = some waiting)
    (resumed : resumeWaiting platform host call hostLabel time waiting = some next)
    (putting : next.Putting personKey credentialId) : host.Putting personKey credentialId ∨
      host.Passes (.resume call hostLabel time) personKey credentialId := by
  cases waiting with
  | hashing => cases resumed
  | joining | removing | signing =>
      cases resumed
      exact .inl ((quiet_unpark host call).trans (quiet_enqueue _ _ rfl) _ _ putting)
  | findingPerson | unlocking =>
      simp only [resumeWaiting] at resumed
      split at resumed <;> cases resumed
      · exact .inl (quiet_answer host call _ _ _ putting)
      · exact .inl ((quiet_unpark host call).trans (quiet_enqueue _ _ rfl) _ _ putting)
  | findingPin =>
      simp only [resumeWaiting] at resumed
      split at resumed <;> cases resumed
      · exact .inl (quiet_answer host call _ _ _ putting)
      · exact .inl (quiet_answer host call _ _ _ putting)
  | vouching =>
      simp only [resumeWaiting] at resumed
      split at resumed <;> cases resumed
      · exact .inl (quiet_answer host call _ _ _ putting)
      · exact .inl (quiet_park host call (fun _ _ => by simp) _ _ putting)
  | matching =>
      simp only [resumeWaiting] at resumed
      split at resumed
      · cases resumed
        exact .inl ((quiet_unpark host call).trans (quiet_enqueue _ _ rfl) _ _ putting)
      · split at resumed <;> cases resumed
        · exact .inl (quiet_answer host call _ _ _ putting)
        · exact .inl (quiet_answer host call _ _ _ putting)
  | listing of stored =>
      have passes (unowned : ∀ owner, host.people.find? (keepsRecord stored.credentialId) = some owner →
          owner.personKey = of) (parked : (host.park call (.storing of stored)).Putting personKey
          credentialId) : host.Putting personKey credentialId ∨
          host.Passes (.resume call hostLabel time) personKey credentialId := by
        obtain old | ⟨kept, same, rfl⟩ := putting_of_park parked
        · exact .inl old
        · cases same
          exact .inr ⟨call, hostLabel, time, stored, rfl, found, rfl, unowned⟩
      simp only [resumeWaiting] at resumed
      split at resumed
      · rename_i unowned
        cases resumed
        refine passes (fun owner owned => ?_) putting
        rw [unowned] at owned
        cases owned
      · rename_i owner owned
        split at resumed <;> cases resumed
        · rename_i own
          refine passes (fun other same => ?_) putting
          rw [owned, Option.some.injEq] at same
          exact same ▸ own
        · exact .inl (quiet_answer host call _ _ _ putting)
  | storing of stored =>
      cases resumed
      obtain old | ⟨rfl, keeps⟩ := putting_of_enqueue putting
      · exact .inl (quiet_unpark host call _ _ old)
      · cases keeps
        exact .inl (.inl ⟨call, stored, mem_of_waitingOf found, rfl⟩)

theorem putting_of_step (taken : callStep platform host action = some next)
    (putting : next.Putting personKey credentialId) :
    host.Putting personKey credentialId ∨ host.Passes action personKey credentialId := by
  cases action with
  | resume call hostLabel time =>
      obtain ⟨waiting, found, resumed⟩ := Option.bind_eq_some_iff.mp taken
      exact putting_of_resume found resumed putting
  | write =>
      simp only [callStep] at taken
      split at taken <;> cases taken
      rename_i first rest queue
      obtain parked | ⟨write, member, same⟩ := quiet_perform _ _ _ _ _ putting
      · exact .inl (.inl parked)
      · exact .inl (.inr ⟨write, queue ▸ List.mem_cons_of_mem first member, same⟩)
  | failWrite =>
      simp only [callStep] at taken
      split at taken <;> cases taken
      rename_i first rest queue
      obtain parked | ⟨write, member, same⟩ := putting
      · exact .inl (.inl parked)
      · exact .inl (.inr ⟨write, queue ▸ List.mem_cons_of_mem first member, same⟩)
  | restart =>
      cases taken
      obtain ⟨_, _, parked, _⟩ | ⟨_, queued, _⟩ := putting
      · cases parked
      · cases queued
  | ask id request =>
      simp only [callStep] at taken
      split at taken <;> cases taken
      exact .inl putting
  | close id =>
      cases taken
      exact .inl putting
  | confirm id =>
      simp only [callStep] at taken
      split at taken <;> cases taken
      · exact .inl (quiet_answer host.started _ _ _ _ putting)
      · exact .inl (quiet_park host.started _ (fun _ _ => by simp) _ _ putting)
  | enterPin id pin =>
      simp only [callStep] at taken
      split at taken <;> cases taken
      · exact .inl (quiet_answer host.started _ _ _ _ putting)
      · exact .inl (quiet_enqueue host.started _ rfl _ _ putting)
  | changePin of oldPin newPin =>
      simp only [callStep] at taken
      split at taken <;> cases taken
      · exact .inl (quiet_park host.started _ (fun _ _ => by simp) _ _ putting)
      · exact .inl (quiet_answer host.started _ _ _ _ putting)
  | setPin of newPin =>
      simp only [callStep] at taken
      split at taken
      · cases taken
        exact .inl (quiet_enqueue host.started _ rfl _ _ putting)
      · split at taken <;> cases taken
        · exact .inl (quiet_park host.started _ (fun _ _ => by simp) _ _ putting)
        · exact .inl (quiet_answer host.started _ _ _ _ putting)
  | join of name certificate pin =>
      simp only [callStep] at taken
      split at taken
      · cases taken
        exact .inl (quiet_enqueue host.started _ rfl _ _ putting)
      · cases taken
        exact .inl (quiet_enqueue host.started _ rfl _ _ putting)
      · split at taken <;> cases taken
        exact .inl (quiet_park host.started _ (fun _ _ => by simp) _ _ putting)
  | unlockPin of | keepRecord of stored =>
      cases taken
      exact .inl (quiet_park host.started _ (fun _ _ => by simp) _ _ putting)
  | markRevoked of address revokedAt revocation =>
      cases taken
      exact .inl (quiet_enqueue host _ rfl _ _ putting)
  | hashed call hash =>
      simp only [callStep] at taken
      split at taken
      · rename_i hashing _
        split at taken <;> cases taken
        exact .inl ((quiet_unpark host call).trans (quiet_afterHash hashing) _ _ putting)
      · cases taken
  | throw call =>
      simp only [callStep] at taken
      split at taken <;> cases taken
      exact .inl (quiet_answer host call _ _ _ putting)

/-! ## The records on the roster -/

/-- A change of an entry leaves its records alone, or adds the one that the write keeps. -/
theorem update_records {change : RosterEntry → Option RosterEntry} {of : JsString}
    (updates : task.toTask personKey = .update of change) (changed : change entry = some later)
    (kept : keepsRecord credentialId later = true) :
    keepsRecord credentialId entry = true ∨ task.keeps = some credentialId := by
  cases task with
  | put => cases updates
  | keepRecord call stored =>
      cases updates
      simp only [keepRecord] at changed
      split at changed <;> cases changed
      simp only [keepsRecord, Option.getD_some, List.any_append, Bool.or_eq_true] at kept
      obtain old | new := kept
      · obtain ⟨held, inside, same⟩ := List.any_eq_true.mp old
        exact .inl (List.any_eq_true.mpr ⟨held, List.mem_of_mem_filter inside, same⟩)
      · right
        simpa [CallTask.keeps] using new
  | countGuess | unlock =>
      cases updates
      simp only [countGuess, unlock] at changed
      split at changed <;> cases changed
      exact .inl kept
  | rename call name certificate pin =>
      cases updates
      cases pin <;> cases changed <;> exact .inl kept
  | clearFailures | savePin | addVouch | markRevoked =>
      cases updates
      cases changed
      exact .inl kept

theorem record_of_apply (personKey : JsString) (task : CallTask)
    (member : entry ∈ (host.apply personKey task).people)
    (kept : keepsRecord credentialId entry = true) :
    (∃ old ∈ host.people, old.personKey = entry.personKey ∧ keepsRecord credentialId old = true) ∨
      entry.personKey = personKey ∧ task.keeps = some credentialId := by
  have inside : entry ∈ (task.toTask personKey).apply host.people := member
  unfold Task.apply at inside
  cases written : (task.toTask personKey).written host.people with
  | none =>
      rw [written] at inside
      exact .inl ⟨entry, inside, rfl, kept⟩
  | some later =>
      rw [written] at inside
      have key := Task.written_key (toTask_keeps personKey task) written
      rw [toTask_personKey] at key
      obtain other | last := List.mem_append.mp inside
      · exact .inl ⟨entry, List.mem_of_mem_filter other, rfl, kept⟩
      · obtain rfl := List.mem_singleton.mp last
        cases shape : task.toTask personKey with
        | put put =>
            cases task with
            | put call name certificate pin joinedAt =>
                cases written
                cases kept
            | _ => cases shape
        | update of change =>
            have same : (task.toTask personKey).personKey = of := by rw [shape]; rfl
            rw [toTask_personKey] at same
            rw [shape] at written
            obtain ⟨old, found, changed⟩ := Option.bind_eq_some_iff.mp written
            obtain held | new := update_records shape changed kept
            · have mine := (findPerson_key found).trans (same.symm.trans key.symm)
              exact .inl ⟨old, List.mem_of_find?_eq_some found, mine, held⟩
            · exact .inr ⟨key, new⟩

theorem record_of_step (taken : callStep platform host action = some next)
    (member : entry ∈ next.people) (kept : keepsRecord credentialId entry = true) :
    (∃ old ∈ host.people, old.personKey = entry.personKey ∧ keepsRecord credentialId old = true) ∨
      host.Putting entry.personKey credentialId := by
  by_cases writes : action = .write
  · subst writes
    simp only [callStep] at taken
    split at taken <;> cases taken
    rename_i first rest queue
    rw [perform_roster.people] at member
    obtain old | ⟨mine, keeps⟩ := record_of_apply first.personKey first.task member kept
    · exact .inl old
    · exact .inr (.inr ⟨first, queue ▸ List.mem_cons_self, mine.symm, keeps⟩)
  · rw [(callStep_roster taken writes).people] at member
    exact .inl ⟨entry, member, rfl, kept⟩

/-! ## The invariant -/

structure Owned (host : CallHost) : Prop where
  unique : ∀ credentialId, ∀ first ∈ host.people, ∀ second ∈ host.people,
    keepsRecord credentialId first = true → keepsRecord credentialId second = true →
      first.personKey = second.personKey
  own : ∀ owner ∈ host.people, ∀ personKey credentialId, keepsRecord credentialId owner = true →
    host.Putting personKey credentialId → personKey = owner.personKey
  alone : ∀ personKey other credentialId, host.Putting personKey credentialId →
    host.Putting other credentialId → personKey = other

/-- A put that passes goes on alone, and has no owner but its person. -/
theorem Owned.passes (owned : Owned host) (apart : PutsApart host action)
    (passes : host.Passes action personKey credentialId) :
    (∀ other, host.Putting other credentialId → other = personKey) ∧
      ∀ owner ∈ host.people, keepsRecord credentialId owner = true → personKey = owner.personKey := by
  obtain ⟨call, hostLabel, now, stored, rfl, found, rfl, unowned⟩ := passes
  refine ⟨fun other putting => apart personKey stored found unowned other putting, ?_⟩
  intro owner member keeps
  cases first : host.people.find? (keepsRecord stored.credentialId) with
  | none => exact absurd keeps (List.find?_eq_none.mp first owner member)
  | some holder =>
      have held := List.find?_some first
      have same := owned.unique _ holder (List.mem_of_find?_eq_some first) owner member held keeps
      exact (unowned holder first).symm.trans same

theorem Owned.step (owned : Owned host) (apart : PutsApart host action)
    (taken : callStep platform host action = some next) : Owned next := by
  refine ⟨?_, ?_, ?_⟩
  · intro credentialId first here second there firstKeeps secondKeeps
    obtain ⟨left, inside, same, held⟩ | putting := record_of_step taken here firstKeeps
    · obtain ⟨right, present, equal, keeps⟩ | also := record_of_step taken there secondKeeps
      · rw [← same, ← equal]
        exact owned.unique credentialId left inside right present held keeps
      · exact same.symm.trans (owned.own left inside _ credentialId held also).symm
    · obtain ⟨right, present, equal, keeps⟩ | also := record_of_step taken there secondKeeps
      · exact (owned.own right present _ credentialId keeps putting).trans equal
      · exact owned.alone _ _ credentialId putting also
  · intro owner member personKey credentialId keeps putting
    obtain ⟨old, inside, same, held⟩ | writing := record_of_step taken member keeps
    · obtain before | passes := putting_of_step taken putting
      · exact (owned.own old inside personKey credentialId held before).trans same
      · exact ((owned.passes apart passes).2 old inside held).trans same
    · obtain before | passes := putting_of_step taken putting
      · exact owned.alone _ _ credentialId before writing
      · exact ((owned.passes apart passes).1 owner.personKey writing).symm
  · intro personKey other credentialId putting also
    obtain before | passes := putting_of_step taken putting
    · obtain old | passes := putting_of_step taken also
      · exact owned.alone personKey other credentialId before old
      · exact (owned.passes apart passes).1 personKey before
    · obtain old | again := putting_of_step taken also
      · exact ((owned.passes apart passes).1 other old).symm
      · obtain ⟨_, _, _, _, rfl, found, _⟩ := passes
        obtain ⟨_, _, _, _, same, there, _⟩ := again
        cases same
        rw [found] at there
        cases there
        rfl

/-- What a fetch returns is a record that is kept under the id. -/
theorem fetch_kept {crypto : Platform} {people : List RosterEntry} {fetches : Fetches}
    {token record : JsString} {time : Int}
    (fetched : (fetch crypto people fetches credentialId token time).1 = some record) :
    ∃ entry ∈ people, keepsRecord credentialId entry = true ∧
      ∃ held ∈ entry.passkeyRecords.getD [], held.record = record := by
  simp only [fetch] at fetched
  split at fetched
  · cases fetched
  · split at fetched
    · cases fetched
    · obtain ⟨held, found, rfl⟩ := Option.map_eq_some_iff.mp fetched
      obtain ⟨entry, member, inside⟩ := List.mem_flatMap.mp (List.mem_of_find?_eq_some found)
      have matched := List.find?_some found
      simp only [decide_eq_true_eq] at matched
      exact ⟨entry, member, List.any_eq_true.mpr ⟨held, inside, decide_eq_true matched.1⟩,
        held, inside, rfl⟩

theorem Owned.firstOwns (owned : Owned host) : FirstOwns platform host := by
  refine ⟨owned.unique, ?_, ?_, ?_⟩
  · intro owner member call personKey stored hostLabel now keeps different found
    simp only [callStep, found, Option.bind_some, resumeWaiting]
    cases first : host.people.find? (keepsRecord stored.credentialId) with
    | none => exact absurd keeps (List.find?_eq_none.mp first owner member)
    | some holder =>
        have same := owned.unique _ holder (List.mem_of_find?_eq_some first) owner member
          (List.find?_some first) keeps
        have other : ¬ holder.personKey = personKey := fun equal => different (equal.symm.trans same)
        simp only [if_neg other]
  · intro owner member personKey credentialId keeps different putting
    exact different (owned.own owner member personKey credentialId keeps putting)
  · intro owner member crypto fetches credentialId token time record keeps fetched
    obtain ⟨entry, inside, held, kept⟩ := fetch_kept fetched
    exact ⟨entry, inside, owned.unique credentialId entry inside owner member held keeps, kept⟩

/-- While the puts of one id by different people keep apart, the first person owns it. -/
theorem first_person_owns_where_puts_keep_apart (platform : HostPlatform) (host : CallHost)
    (reached : Reaches (callStep platform) PutsApart .opened host) : FirstOwns platform host := by
  have owned : Owned host := by
    refine reached.invariant Owned ⟨?_, ?_, ?_⟩ fun _ owned apart taken => owned.step apart taken
    · intro credentialId first member
      cases member
    · intro owner member
      cases member
    · intro personKey other credentialId putting
      obtain ⟨_, _, member, _⟩ | ⟨_, member, _⟩ := putting
      · cases member
      · cases member
  exact owned.firstOwns

/-! ## Two people and one id -/

/-- The people whose puts of the id have found no other owner, and are not written yet. -/
def CallHost.putters (host : CallHost) (credentialId : JsString) : List JsString :=
  (host.waiting.filterMap fun parked => match parked.2 with
    | .storing personKey stored =>
        if stored.credentialId = credentialId then some personKey else none
    | _ => none) ++
  host.writes.filterMap fun write =>
    if write.task.keeps = some credentialId then some write.personKey else none

theorem mem_putters (host : CallHost) (personKey credentialId : JsString) :
    personKey ∈ host.putters credentialId ↔ host.Putting personKey credentialId := by
  rw [CallHost.putters, List.mem_append, List.mem_filterMap, List.mem_filterMap, CallHost.Putting]
  refine or_congr ⟨?_, ?_⟩ ⟨?_, ?_⟩
  · rintro ⟨⟨call, waiting⟩, member, found⟩
    cases waiting with
    | storing other stored =>
        simp only [Option.ite_none_right_eq_some, Option.some.injEq] at found
        obtain ⟨same, rfl⟩ := found
        exact ⟨call, stored, member, same⟩
    | _ => cases found
  · rintro ⟨call, stored, member, same⟩
    exact ⟨_, member, if_pos same⟩
  · rintro ⟨write, member, found⟩
    simp only [Option.ite_none_right_eq_some, Option.some.injEq] at found
    exact ⟨write, member, found.2, found.1⟩
  · rintro ⟨write, member, same, keeps⟩
    exact ⟨write, member, by simp [same, keeps]⟩

def putsApart (host : CallHost) : CallAction → Bool
  | .resume call _ _ => match host.waitingOf call with
      | some (.listing personKey stored) =>
          (host.people.find? (keepsRecord stored.credentialId)).any (·.personKey ≠ personKey) ||
            (host.putters stored.credentialId).all (· = personKey)
      | _ => true
  | _ => true

theorem putsApart_of_putsApart (apart : putsApart host action = true) : PutsApart host action := by
  cases action with
  | resume call hostLabel now =>
      intro personKey stored listing free other putting
      simp only [putsApart, listing, Bool.or_eq_true, List.all_eq_true] at apart
      obtain owned | only := apart
      · obtain ⟨owner, found, different⟩ := (Option.any_eq_true _ _).mp owned
        exact absurd (free owner found) (of_decide_eq_true different)
      · exact of_decide_eq_true (only other ((mem_putters host other _).mpr putting))
  | _ => trivial

def joins (person : String) (call : CallId) : List CallAction :=
  [.join (js person) (js person) (certificateOf person) none, .write, .resume call (js "host") 0, .write]

def recordUnderId (person : String) : StoredPasskeyRecord := ⟨js "id", js person, js person, js "t"⟩

/-- Two people join, and one puts a record under the id that the other's is under. -/
def putsInTurn : List CallAction :=
  joins "sam" 0 ++ joins "kim" 1 ++
    [.keepRecord (js "sam") (recordUnderId "sam"), .resume 2 (js "host") 0, .resume 2 (js "host") 0, .write,
      .keepRecord (js "kim") (recordUnderId "kim"), .resume 3 (js "host") 0]

theorem second_put_is_refused : ∃ host, Reaches (callStep plainHost) PutsApart .opened host ∧
    (host.people.filter (keepsRecord (js "id"))).map RosterEntry.personKey = [js "sam"] ∧
      FirstOwns plainHost host := by
  have observed : ((run (guarded (putsApart · ·) (callStep plainHost)) .opened putsInTurn).map
      fun host => (host.people.filter (keepsRecord (js "id"))).map RosterEntry.personKey) =
        some [js "sam"] := by
    decide +kernel
  obtain ⟨host, ran, kept⟩ := Option.map_eq_some_iff.mp observed
  have reached : Reaches (callStep plainHost) PutsApart .opened host :=
    .of_checked_run ran fun _ _ _ _ => putsApart_of_putsApart
  exact ⟨host, reached, kept, first_person_owns_where_puts_keep_apart plainHost host reached⟩

/-- Two people join, and each puts a record under the same id. Both look through the roster before
either write. -/
def putsAtOnce : List CallAction :=
  joins "sam" 0 ++ joins "kim" 1 ++
    [.keepRecord (js "sam") (recordUnderId "sam"), .keepRecord (js "kim") (recordUnderId "kim"),
      .resume 2 (js "host") 0, .resume 3 (js "host") 0, .resume 2 (js "host") 0, .write,
      .resume 3 (js "host") 0, .write]

theorem putsAtOnce_keeps_both : ((run (callStep plainHost) .opened putsAtOnce).map fun host =>
    (host.people.filter (keepsRecord (js "id"))).map RosterEntry.personKey) =
      some [js "sam", js "kim"] := by
  decide +kernel

theorem overlapping_puts_share_an_id : ¬ FirstPersonOwns anyAction := by
  intro owns
  obtain ⟨host, ran, both⟩ := Option.map_eq_some_iff.mp putsAtOnce_keeps_both
  have unique := (owns plainHost host (.of_run ran (meetsAlong_anyAction _ _))).unique (js "id")
  have key (person : String) (listed : js person ∈ [js "sam", js "kim"]) : ∃ entry ∈ host.people,
      keepsRecord (js "id") entry = true ∧ entry.personKey = js person := by
    rw [← both] at listed
    obtain ⟨entry, inside, same⟩ := List.mem_map.mp listed
    exact ⟨entry, (List.mem_filter.mp inside).1, (List.mem_filter.mp inside).2, same⟩
  obtain ⟨sam, samListed, samKeeps, samKey⟩ := key "sam" (by simp)
  obtain ⟨kim, kimListed, kimKeeps, kimKey⟩ := key "kim" (by simp)
  have same := unique sam samListed kim kimListed samKeeps kimKeeps
  rw [samKey, kimKey] at same
  exact absurd same (by decide)

end Tapes.Roster
