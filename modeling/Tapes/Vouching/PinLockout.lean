import Tapes.Vouching.PinGuesses

namespace Tapes.Vouching

open Tapes.Js Tapes.Machine
open Tapes.Roster (PinHash RosterEntry clearFailures countGuess failuresOf isLocked maxPinFailures
  rename savePin unlock)

variable {platform : HostPlatform} {host next : PinHost} {personKey other : JsString}
  {change : RosterEntry → Option RosterEntry} {task : Task} {call : CallId}

/-! ## One entry -/

structure EntrySound (personKey : JsString) (entry : RosterEntry) : Prop where
  keyed : entry.personKey = personKey
  guarded : entry.pin = none → failuresOf entry = 0
  bounded : failuresOf entry ≤ maxPinFailures

/-- The change keeps the entry sound and raises no count. -/
structure Tame (change : RosterEntry → Option RosterEntry) : Prop where
  sound : ∀ {personKey before after}, EntrySound personKey before → change before = some after →
    EntrySound personKey after
  lower : ∀ {before after}, change before = some after → failuresOf after ≤ failuresOf before

theorem countGuess_sound {before after : RosterEntry} (sound : EntrySound personKey before)
    (counted : countGuess before = some after) :
    EntrySound personKey after ∧ after.pin.isSome = true ∧
      failuresOf after = failuresOf before + 1 := by
  simp only [countGuess] at counted
  split at counted
  · rename_i guessable
    cases counted
    simp only [Bool.and_eq_true, Bool.not_eq_true', isLocked, decide_eq_false_iff_not] at guessable
    refine ⟨⟨sound.keyed, ?_, ?_⟩, guessable.1, rfl⟩
    · intro unset
      have unset : before.pin = none := unset
      rw [unset] at guessable
      cases guessable.1
    · simp only [failuresOf, Option.getD_some] at guessable ⊢
      omega
  · cases counted

theorem countGuess_locked {entry : RosterEntry} (locked : maxPinFailures ≤ failuresOf entry) :
    countGuess entry = none := by
  simp [countGuess, isLocked, locked]

theorem tame_clearFailures : Tame clearFailures where
  sound := by
    intro personKey before after sound cleared
    cases cleared
    exact ⟨sound.keyed, fun _ => rfl, Nat.zero_le _⟩
  lower := by
    intro before after cleared
    cases cleared
    exact Nat.zero_le _

theorem tame_savePin (hash : Option PinHash) : Tame (savePin hash) where
  sound := by
    intro personKey before after sound saved
    cases saved
    exact ⟨sound.keyed, fun _ => rfl, Nat.zero_le _⟩
  lower := by
    intro before after saved
    cases saved
    exact Nat.zero_le _

theorem tame_unlock : Tame unlock where
  sound := by
    intro personKey before after sound unlocked
    simp only [unlock] at unlocked
    split at unlocked <;> cases unlocked
    exact ⟨sound.keyed, fun _ => rfl, Nat.zero_le _⟩
  lower := by
    intro before after unlocked
    simp only [unlock] at unlocked
    split at unlocked <;> cases unlocked
    exact Nat.zero_le _

/-- The change leaves the PIN and the count alone. -/
structure Aside (change : RosterEntry → Option RosterEntry) : Prop where
  changes : ∀ before, ∃ after, change before = some after
  keeps : ∀ {before after}, change before = some after →
    after.personKey = before.personKey ∧ after.pin = before.pin ∧
      after.pinFailures = before.pinFailures

theorem Aside.tame (aside : Aside change) : Tame change where
  sound := by
    intro personKey before after sound changed
    obtain ⟨key, pin, failures⟩ := aside.keeps changed
    have same : failuresOf after = failuresOf before := by rw [failuresOf, failures, failuresOf]
    refine ⟨key.trans sound.keyed, ?_, ?_⟩
    · rw [pin, same]
      exact sound.guarded
    · rw [same]
      exact sound.bounded
  lower := by
    intro before after changed
    obtain ⟨-, -, failures⟩ := aside.keeps changed
    rw [failuresOf, failures, failuresOf]

theorem aside_amendment (amendment : Amendment) : Aside amendment.apply := by
  constructor
  · intro before
    cases amendment <;> exact ⟨_, rfl⟩
  · intro before after amended
    cases amendment <;> cases amended <;> exact ⟨rfl, rfl, rfl⟩

theorem aside_rename (name : JsString) : Aside (rename name none) := by
  constructor
  · intro before
    exact ⟨_, rfl⟩
  · intro before after renamed
    cases renamed
    exact ⟨rfl, rfl, rfl⟩

theorem tame_rename (name : JsString) (pin : Option (Option PinHash)) : Tame (rename name pin) := by
  cases pin with
  | none => exact (aside_rename name).tame
  | some pinHash =>
      constructor
      · intro personKey before after sound renamed
        cases renamed
        exact ⟨sound.keyed, fun _ => rfl, Nat.zero_le _⟩
      · intro before after renamed
        cases renamed
        exact Nat.zero_le _

/-! ## One update of the roster -/

theorem failures_of_found {entry : RosterEntry} (found : host.people personKey = some entry) :
    host.failures personKey = failuresOf entry := by
  simp [PinHost.failures, found]

/-- What `update` does to a roster whose entries are under their own keys. -/
theorem update_cases (entries : Table.All host.people EntrySound)
    (keeps : ∀ before after, EntrySound personKey before → change before = some after →
      EntrySound personKey after) :
    (∃ before after, host.people personKey = some before ∧ change before = some after ∧
      EntrySound personKey after ∧
      host.update personKey change =
        ({ host with people := Function.update host.people personKey (some after) },
          some after)) ∨
    ((host.people personKey).bind change = none ∧ host.update personKey change = (host, none)) := by
  cases changed : (host.people personKey).bind change with
  | none =>
      apply Or.inr
      simp [PinHost.update, PersonRoster.update, changed]
  | some after =>
      obtain ⟨before, found, became⟩ := Option.bind_eq_some_iff.mp changed
      have sound := keeps before after (entries personKey before found) became
      apply Or.inl
      refine ⟨before, after, found, became, sound, ?_⟩
      simp [PinHost.update, PersonRoster.update, changed, sound.keyed]

/-! ## The roster and the queue -/

def Task.counts : Task → Bool
  | .countGuess .. => true
  | _ => false

def Task.puts : Task → Bool
  | .put .. => true
  | _ => false

/-- A person who is guessed at is on the roster, so every `put` of their entry is ahead of
every guess in the queue, and the count it clears is zero. -/
structure RosterSound (host : PinHost) : Prop where
  entries : Table.All host.people EntrySound
  asked : host.requests.All fun _ personKey => (host.people personKey).isSome = true
  counted : ∀ write ∈ host.writes, write.task.counts = true →
    (host.people write.personKey).isSome = true
  ordered : host.writes.Pairwise fun first later =>
    first.task.counts = true → later.task.puts = true → first.personKey ≠ later.personKey
  uncounted : ∀ write ∈ host.writes, write.task.puts = true → host.failures write.personKey = 0

namespace RosterSound

theorem of_same (sound : RosterSound host) (people : next.people = host.people)
    (requests : next.requests = host.requests) (writes : next.writes = host.writes) :
    RosterSound next := by
  obtain ⟨entries, asked, counted, ordered, uncounted⟩ := sound
  unfold PinHost.failures at uncounted
  rw [← people] at entries counted uncounted
  rw [← people, ← requests] at asked
  rw [← writes] at counted ordered uncounted
  exact ⟨entries, asked, counted, ordered, uncounted⟩

theorem enqueue (sound : RosterSound host)
    (counts : task.counts = true → (host.people personKey).isSome = true)
    (puts : task.puts = true → host.people personKey = none) :
    RosterSound (host.enqueue personKey task) := by
  refine ⟨sound.entries, sound.asked, ?_, ?_, ?_⟩
  · intro write member isCount
    rcases List.mem_append.mp member with old | new
    · exact sound.counted write old isCount
    · cases List.mem_singleton.mp new
      exact counts isCount
  · apply List.pairwise_append.mpr
    refine ⟨sound.ordered, List.pairwise_singleton _ _, ?_⟩
    intro first old later new isCount isPut same
    cases List.mem_singleton.mp new
    have onRoster := sound.counted first old isCount
    rw [same, puts isPut] at onRoster
    cases onRoster
  · intro write member isPut
    rcases List.mem_append.mp member with old | new
    · exact sound.uncounted write old isPut
    · cases List.mem_singleton.mp new
      show (host.people personKey).elim 0 failuresOf = 0
      rw [puts isPut]
      rfl

theorem rest {first : Write} {later : List Write} (sound : RosterSound host)
    (writes : host.writes = first :: later) : RosterSound { host with writes := later } := by
  obtain ⟨entries, asked, counted, ordered, uncounted⟩ := sound
  rw [writes] at counted ordered uncounted
  exact ⟨entries, asked, fun write member => counted write (List.mem_cons_of_mem _ member),
    (List.pairwise_cons.mp ordered).2,
    fun write member => uncounted write (List.mem_cons_of_mem _ member)⟩

theorem set {after : RosterEntry} (sound : RosterSound host)
    (entry : EntrySound personKey after)
    (puts : ∀ write ∈ host.writes, write.task.puts = true → write.personKey = personKey →
      failuresOf after = 0) :
    RosterSound
      { host with people := Function.update host.people personKey (some after) } := by
  have stays : ∀ other, (host.people other).isSome = true →
      (Function.update host.people personKey (some after) other).isSome = true := by
    intro other onRoster
    by_cases same : other = personKey
    · subst other
      rw [Function.update_self]
      rfl
    · rwa [Function.update_of_ne same]
  refine ⟨sound.entries.put entry, sound.asked.weaken fun _ other _ => stays other, ?_,
    sound.ordered, ?_⟩
  · intro write member isCount
    exact stays write.personKey (sound.counted write member isCount)
  · intro write member isPut
    show (Function.update host.people personKey (some after) write.personKey).elim 0 failuresOf = 0
    by_cases same : write.personKey = personKey
    · rw [same, Function.update_self]
      exact puts write member isPut same
    · rw [Function.update_of_ne same]
      exact sound.uncounted write member isPut

theorem tame (sound : RosterSound host) (personKey : JsString) (tame : Tame change) :
    RosterSound (host.update personKey change).1 := by
  rcases update_cases sound.entries fun _ _ => tame.sound with
    ⟨before, after, found, became, entry, updated⟩ | ⟨-, updated⟩
  · rw [updated]
    apply sound.set entry
    intro write member isPut same
    have zero := sound.uncounted write member isPut
    rw [same, failures_of_found found] at zero
    have lower := tame.lower became
    omega
  · rw [updated]
    exact sound

theorem count (sound : RosterSound host)
    (unput : ∀ write ∈ host.writes, write.task.puts = true → write.personKey ≠ personKey) :
    RosterSound (host.update personKey countGuess).1 := by
  rcases update_cases sound.entries fun _ _ before counted => (countGuess_sound before counted).1
    with ⟨before, after, found, became, entry, updated⟩ | ⟨-, updated⟩
  · rw [updated]
    apply sound.set entry
    intro write member isPut same
    exact absurd same (unput write member isPut)
  · rw [updated]
    exact sound

theorem perform {rest : List Write} (sound : RosterSound host)
    (writes : host.writes = ⟨personKey, task⟩ :: rest) :
    RosterSound (perform { host with writes := rest } personKey task) := by
  have later := sound.rest writes
  cases task with
  | countGuess call pin guess =>
      have ordered := sound.ordered
      rw [writes, List.pairwise_cons] at ordered
      have counted := later.count fun write member isPut same =>
        ordered.1 write member rfl isPut same.symm
      simp only [Vouching.perform]
      split <;> rename_i updated <;> rw [updated] at counted <;>
        exact counted.of_same rfl rfl rfl
  | clearFailures call guess =>
      have cleared := later.tame personKey tame_clearFailures
      rcases guess with - | - | newPin
      · exact cleared.of_same rfl rfl rfl
      · apply cleared.enqueue <;> exact fun wrong => nomatch wrong
      · exact cleared.of_same rfl rfl rfl
  | savePin call hash =>
      have saved := later.tame personKey (tame_savePin hash)
      simp only [Vouching.perform]
      split <;> rename_i updated <;> rw [updated] at saved <;> exact saved.of_same rfl rfl rfl
  | rename name firstCertificate pin joinedAt =>
      have renamed := later.tame personKey (tame_rename name pin)
      simp only [Vouching.perform]
      rcases update_cases later.entries fun _ _ => (tame_rename name pin).sound with
        ⟨before, after, found, became, -, updated⟩ | ⟨none, updated⟩
      · rw [updated] at renamed ⊢
        exact renamed
      · rw [updated]
        apply later.enqueue
        · exact fun wrong => nomatch wrong
        · intro _
          cases found : host.people personKey with
          | none => rfl
          | some before =>
              simp only [found, Option.bind_some] at none
              cases pin <;> cases none
  | put name firstCertificate pin joinedAt =>
      apply later.set
      · exact ⟨rfl, fun _ => rfl, Nat.zero_le _⟩
      · intro _ _ _ _
        rfl
  | unlock => exact later.tame _ tame_unlock
  | amend amendment => exact later.tame _ (aside_amendment amendment).tame

theorem resume {waiting : Waiting} (sound : RosterSound host)
    (resumed : resumeWaiting platform host call waiting = some next) : RosterSound next := by
  cases waiting with
  | findingPerson personKey oldPin newPin =>
      simp only [resumeWaiting] at resumed
      split at resumed <;> rename_i found <;> cases resumed
      · exact sound.of_same rfl rfl rfl
      · have freed : RosterSound { host with waiting := host.waiting.remove call } :=
          sound.of_same rfl rfl rfl
        apply freed.enqueue
        · intro _
          exact Option.isSome_iff_ne_none.mpr fun absent => found (Option.isNone_iff_eq_none.mpr absent)
        · exact fun wrong => by cases wrong
  | findingPin personKey =>
      simp only [resumeWaiting] at resumed
      split at resumed <;> cases resumed <;> exact sound.of_same rfl rfl rfl
  | matching personKey pin stored failures guess =>
      have freed : RosterSound { host with waiting := host.waiting.remove call } :=
        sound.of_same rfl rfl rfl
      simp only [resumeWaiting] at resumed
      split at resumed
      · cases resumed
        apply freed.enqueue <;> exact fun wrong => by cases wrong
      · split at resumed <;> cases resumed <;> exact sound.of_same rfl rfl rfl
  | hashing personKey => cases resumed

theorem step {action : PinAction} (sound : RosterSound host)
    (taken : pinStep platform host action = some next) : RosterSound next := by
  cases action with
  | ask id personKey =>
      simp only [pinStep] at taken
      split at taken <;> rename_i allowed <;> cases taken
      simp only [Bool.and_eq_true] at allowed
      exact ⟨sound.entries, sound.asked.put allowed.1, sound.counted, sound.ordered,
        sound.uncounted⟩
  | close id =>
      cases taken
      exact ⟨sound.entries, sound.asked.remove, sound.counted, sound.ordered, sound.uncounted⟩
  | enterPin id pin =>
      simp only [pinStep] at taken
      have started : RosterSound { host with nextCall := host.nextCall + 1 } :=
        sound.of_same rfl rfl rfl
      split at taken <;> rename_i found <;> cases taken
      · exact sound.of_same rfl rfl rfl
      · apply started.enqueue
        · exact fun _ => sound.asked id _ found
        · exact fun wrong => by cases wrong
  | changePin personKey oldPin newPin =>
      simp only [pinStep] at taken
      split at taken <;> cases taken <;> exact sound.of_same rfl rfl rfl
  | resume call =>
      obtain ⟨waiting, -, resumed⟩ := Option.bind_eq_some_iff.mp taken
      exact sound.resume resumed
  | hashed call hash =>
      simp only [pinStep] at taken
      have freed : RosterSound { host with waiting := host.waiting.remove call } :=
        sound.of_same rfl rfl rfl
      split at taken <;> cases taken
      apply freed.enqueue <;> exact fun wrong => by cases wrong
  | setPin | unlockPin | join | amend =>
      cases taken
      apply sound.enqueue <;> exact fun wrong => by cases wrong
  | write =>
      simp only [pinStep] at taken
      split at taken <;> rename_i writes <;> cases taken
      exact sound.perform writes
  | failWrite =>
      simp only [pinStep] at taken
      split at taken <;> rename_i writes <;> cases taken
      exact sound.rest writes
  | restart =>
      cases taken
      exact ⟨sound.entries, Table.all_empty, by simp, List.Pairwise.nil, by simp⟩

end RosterSound

/-! ## The count over a period -/

/-- The count on disk grows by the guesses that reach the comparison, and not at the limit. -/
structure Tallies (personKey : JsString) (host next : PinHost) : Prop where
  balance : next.failures personKey + host.comparisons personKey =
    host.failures personKey + next.comparisons personKey
  stuck : maxPinFailures ≤ host.failures personKey →
    next.failures personKey = host.failures personKey

theorem tallies_of_same (failures : next.failures personKey = host.failures personKey)
    (comparisons : next.comparisons personKey = host.comparisons personKey) :
    Tallies personKey host next := by
  constructor
  · rw [failures, comparisons]
  · intro _
    exact failures

/-- What the task does to an entry that is there. -/
def Task.edit : Task → RosterEntry → Option RosterEntry
  | .countGuess .. => Roster.countGuess
  | .clearFailures .. => Roster.clearFailures
  | .savePin _ hash => Roster.savePin hash
  | .rename name _ pin _ => Roster.rename name pin
  | .put .. => fun _ => none
  | .unlock => Roster.unlock
  | .amend amendment => amendment.apply

theorem edit_sound (task : Task) {before after : RosterEntry}
    (sound : EntrySound personKey before) (changed : task.edit before = some after) :
    EntrySound personKey after := by
  cases task with
  | countGuess => exact (countGuess_sound sound changed).1
  | clearFailures => exact tame_clearFailures.sound sound changed
  | savePin _ hash => exact (tame_savePin hash).sound sound changed
  | rename name _ pin _ => exact (tame_rename name pin).sound sound changed
  | put => cases changed
  | unlock => exact tame_unlock.sound sound changed
  | amend amendment => exact (aside_amendment amendment).tame.sound sound changed

theorem perform_people (unput : task.puts = false) :
    (perform host personKey task).people = (host.update personKey task.edit).1.people := by
  cases task with
  | countGuess call pin guess =>
      simp only [perform, Task.edit]
      split <;> rename_i updated <;> rw [updated] <;> rfl
  | clearFailures call guess => rcases guess with - | - | newPin <;> rfl
  | savePin call hash =>
      simp only [perform, Task.edit]
      split <;> rename_i updated <;> rw [updated] <;> rfl
  | rename name firstCertificate pin joinedAt =>
      simp only [perform, Task.edit]
      split <;> rename_i updated <;> rw [updated]
      rfl
  | put => cases unput
  | unlock => rfl
  | amend => rfl

theorem log_of_update {updated : PinHost} {written : Option RosterEntry}
    (update : host.update personKey change = (updated, written)) : updated.log = host.log := by
  have same : (host.update personKey change).1.log = host.log := rfl
  rw [update] at same
  exact same

theorem perform_uncompared (uncounted : task.counts = false) :
    (perform host other task).comparisons personKey = host.comparisons personKey := by
  cases task with
  | countGuess => cases uncounted
  | clearFailures call guess => rcases guess with - | - | newPin <;> rfl
  | savePin call hash =>
      simp only [perform]
      split <;> rename_i updated <;>
        simp [PinHost.comparisons, PinHost.answer, PinHost.note, log_of_update updated,
          PinEvent.compares]
  | rename name firstCertificate pin joinedAt =>
      simp only [perform]
      split <;> rename_i updated <;>
        simp [PinHost.comparisons, PinHost.enqueue, log_of_update updated]
  | put | unlock | amend => rfl

theorem failures_update_other (entries : Table.All host.people EntrySound)
    (different : personKey ≠ other) :
    (host.update other task.edit).1.failures personKey = host.failures personKey := by
  rcases update_cases entries fun _ _ => edit_sound task with
    ⟨before, after, -, -, -, updated⟩ | ⟨-, updated⟩
  · rw [updated]
    simp [PinHost.failures, Function.update_of_ne different]
  · rw [updated]

theorem failures_update_aside (entries : Table.All host.people EntrySound)
    (aside : Aside task.edit) :
    (host.update personKey task.edit).1.failures personKey = host.failures personKey := by
  rcases update_cases entries fun _ _ => edit_sound task with
    ⟨before, after, found, became, -, updated⟩ | ⟨-, updated⟩
  · rw [updated, failures_of_found found]
    simp only [PinHost.failures, Function.update_self, Option.elim_some, failuresOf,
      (aside.keeps became).2.2]
  · rw [updated]

theorem perform_failures (unput : task.puts = false) :
    (perform host other task).failures personKey =
      (host.update other task.edit).1.failures personKey := by
  simp only [PinHost.failures, perform_people unput]

theorem perform_other (entries : Table.All host.people EntrySound)
    (different : personKey ≠ other) : Tallies personKey host (perform host other task) := by
  apply tallies_of_same
  · cases puts : task.puts with
    | false => rw [perform_failures puts, failures_update_other entries different]
    | true =>
        cases task <;> cases puts
        simp [perform, PinHost.failures, Function.update_of_ne different]
  · cases counts : task.counts with
    | false => exact perform_uncompared counts
    | true =>
        cases task <;> cases counts
        rename_i call pin guess
        simp only [perform]
        split <;> rename_i updated <;>
          simp [PinHost.comparisons, PinHost.note, PinHost.park, log_of_update updated,
            PinEvent.compares, different.symm]

theorem perform_countGuess {pin : JsString} {guess : Guess}
    (entries : Table.All host.people EntrySound) :
    Tallies personKey host (perform host personKey (.countGuess call pin guess)) := by
  rcases update_cases entries fun _ _ before counted => (countGuess_sound before counted).1 with
    ⟨before, after, found, counted, sound, updated⟩ | ⟨absent, updated⟩
  · have grown := (countGuess_sound (entries personKey before found) counted)
    obtain ⟨stored, set⟩ := Option.isSome_iff_exists.mp grown.2.1
    have performed : perform host personKey (.countGuess call pin guess) =
        PinHost.park ({ host with
          people := Function.update host.people personKey (some after) }.note
            (.compared call personKey)) call
          (.matching personKey pin stored (after.pinFailures.getD 0) guess) := by
      simp only [perform, updated]
      obtain ⟨key, name, firstCertificate, pinHash, failures, vouches, records, joinedAt⟩ := after
      cases set
      rfl
    rw [performed]
    constructor
    · simp [PinHost.failures, PinHost.park, PinHost.note, PinHost.comparisons, found,
        PinEvent.compares]
      omega
    · intro locked
      rw [failures_of_found found] at locked
      rw [countGuess_locked locked] at counted
      cases counted
  · have performed : perform host personKey (.countGuess call pin guess) =
        host.park call (.findingPin personKey guess) := by
      simp only [perform, updated]
    rw [performed]
    exact tallies_of_same rfl rfl

/-- A write that resets nothing. At a `put` the count is zero already. -/
theorem perform_self (entries : Table.All host.people EntrySound)
    (keeps : task.resets = false)
    (uncounted : task.puts = true → host.failures personKey = 0) :
    Tallies personKey host (perform host personKey task) := by
  cases task with
  | countGuess call pin guess => exact perform_countGuess entries
  | clearFailures | savePin | unlock => cases keeps
  | rename name firstCertificate pin joinedAt =>
      have aside : Aside (rename name pin) := by
        cases pin with
        | none => exact aside_rename name
        | some pinHash => cases keeps
      apply tallies_of_same
      · rw [perform_failures rfl]
        exact failures_update_aside entries aside
      · exact perform_uncompared rfl
  | put name firstCertificate pin joinedAt =>
      apply tallies_of_same
      · rw [uncounted rfl]
        simp [perform, PinHost.failures, failuresOf, Roster.joinEntry]
      · rfl
  | amend amendment =>
      apply tallies_of_same
      · rw [perform_failures rfl]
        exact failures_update_aside entries (aside_amendment amendment)
      · rfl

theorem resume_tallies {waiting : Waiting}
    (resumed : resumeWaiting platform host call waiting = some next) :
    Tallies personKey host next := by
  cases waiting with
  | findingPerson | findingPin =>
      simp only [resumeWaiting] at resumed
      split at resumed <;> cases resumed <;> exact tallies_of_same rfl rfl
  | matching =>
      simp only [resumeWaiting] at resumed
      split at resumed
      · cases resumed
        exact tallies_of_same rfl rfl
      · split at resumed <;> cases resumed <;> exact tallies_of_same rfl rfl
  | hashing => cases resumed

theorem step_tallies {action : PinAction} (sound : RosterSound host)
    (keeps : KeepsCount personKey host action)
    (taken : pinStep platform host action = some next) : Tallies personKey host next := by
  cases action with
  | ask | enterPin | changePin | hashed | failWrite =>
      simp only [pinStep] at taken
      split at taken <;> cases taken <;> exact tallies_of_same rfl rfl
  | close | setPin | unlockPin | join | amend | restart =>
      cases taken
      exact tallies_of_same rfl rfl
  | resume call =>
      obtain ⟨waiting, -, resumed⟩ := Option.bind_eq_some_iff.mp taken
      exact resume_tallies resumed
  | write =>
      simp only [pinStep] at taken
      split at taken
      · cases taken
      · rename_i first rest writes
        cases taken
        have later := sound.rest writes
        have head : host.writes.head? = some first := by rw [writes, List.head?_cons]
        have performed : Tallies personKey { host with writes := rest }
            (perform { host with writes := rest } first.personKey first.task) := by
          by_cases same : personKey = first.personKey
          · subst personKey
            apply perform_self later.entries (keeps first.task head)
            exact sound.uncounted first (by rw [writes]; exact List.mem_cons_self)
          · exact perform_other later.entries same
        exact ⟨performed.balance, performed.stuck⟩

theorem rosterSound_opened : RosterSound PinHost.opened :=
  ⟨Table.all_empty, Table.all_empty, by simp [PinHost.opened], List.Pairwise.nil,
    by simp [PinHost.opened]⟩

theorem rosterSound_reached {guard : PinHost → PinAction → Prop} (sound : RosterSound host)
    (reached : Reaches (pinStep platform) guard host next) : RosterSound next := by
  apply reached.invariant RosterSound sound
  intro _ _ _ _ sound _ taken
  exact sound.step taken

theorem Tallies.trans {middle : PinHost} (first : Tallies personKey host middle)
    (second : Tallies personKey middle next) : Tallies personKey host next := by
  constructor
  · have balance := first.balance
    have balance' := second.balance
    omega
  · intro limit
    have same := first.stuck limit
    rw [← same] at limit
    exact (second.stuck limit).trans same

theorem tallies_reached (sound : RosterSound host)
    (period : Reaches (pinStep platform) (KeepsCount personKey) host next) :
    Tallies personKey host next := by
  apply period.invariant (Tallies personKey host)
  · exact tallies_of_same rfl rfl
  · intro middle after action before tallies keeps taken
    exact tallies.trans (step_tallies (rosterSound_reached sound before) keeps taken)

theorem failures_le (sound : RosterSound host) (personKey : JsString) :
    host.failures personKey ≤ maxPinFailures := by
  cases found : host.people personKey with
  | none => simp [PinHost.failures, found]
  | some entry =>
      rw [failures_of_found found]
      exact (sound.entries personKey entry found).bounded

/-! ## Where the calls stand -/

/-- Everything the host holds of its calls: the ones that wait, the ones with a write in the
queue, and what has happened. -/
structure Calls (waits : CallId → Waiting → Prop) (queued : Write → Prop) (noted : PinEvent → Prop)
    (host : PinHost) : Prop where
  waiting : host.waiting.All waits
  writes : ∀ write ∈ host.writes, queued write
  log : ∀ event ∈ host.log, noted event

namespace Calls

variable {waits : CallId → Waiting → Prop} {queued : Write → Prop} {noted : PinEvent → Prop}
  {event : PinEvent} {waiting : Waiting} {guess : Guess} {answer : PinAnswer}

theorem of_same (calls : Calls waits queued noted host) (waiting : next.waiting = host.waiting)
    (writes : next.writes = host.writes) (log : next.log = host.log) :
    Calls waits queued noted next := by
  obtain ⟨waits, queued, noted⟩ := calls
  rw [← waiting] at waits
  rw [← writes] at queued
  rw [← log] at noted
  exact ⟨waits, queued, noted⟩

theorem enqueue (calls : Calls waits queued noted host) (new : queued ⟨personKey, task⟩) :
    Calls waits queued noted (host.enqueue personKey task) := by
  refine ⟨calls.waiting, ?_, calls.log⟩
  intro write member
  rcases List.mem_append.mp member with old | last
  · exact calls.writes write old
  · cases List.mem_singleton.mp last
    exact new

theorem park (calls : Calls waits queued noted host) (new : waits call waiting) :
    Calls waits queued noted (host.park call waiting) :=
  ⟨calls.waiting.put new, calls.writes, calls.log⟩

theorem note (calls : Calls waits queued noted host) (new : noted event) :
    Calls waits queued noted (host.note event) := by
  refine ⟨calls.waiting, calls.writes, ?_⟩
  intro event member
  rcases List.mem_cons.mp member with rfl | old
  · exact new
  · exact calls.log event old

theorem free (calls : Calls waits queued noted host) (call : CallId) :
    Calls waits queued noted { host with waiting := host.waiting.remove call } :=
  ⟨calls.waiting.remove, calls.writes, calls.log⟩

theorem answered (calls : Calls waits queued noted host)
    (new : noted (.answered call personKey guess answer)) :
    Calls waits queued noted (host.answer call personKey guess answer) :=
  (calls.free call).note new

theorem rest {first : Write} {later : List Write} (calls : Calls waits queued noted host)
    (writes : host.writes = first :: later) :
    Calls waits queued noted { host with writes := later } := by
  refine ⟨calls.waiting, ?_, calls.log⟩
  intro write member
  apply calls.writes
  rw [writes]
  exact List.mem_cons_of_mem _ member

theorem updated (calls : Calls waits queued noted host) (personKey : JsString)
    (change : RosterEntry → Option RosterEntry) :
    Calls waits queued noted (host.update personKey change).1 :=
  calls.of_same rfl rfl rfl

/-- A guess is compared only if the update counted it. Any other task leaves its own call
waiting, queued again or answered. -/
theorem perform (calls : Calls waits queued noted host)
    (finds : ∀ call pin guess, task = .countGuess call pin guess →
      waits call (.findingPin personKey guess))
    (matched : ∀ call pin guess, task = .countGuess call pin guess →
      (host.update personKey countGuess).2 ≠ none →
        (∀ stored failures, waits call (.matching personKey pin stored failures guess)) ∧
          noted (.compared call personKey))
    (others : ∀ call, task.caller = some call → task.counts = false →
      ∀ guess, (∀ newPin, waits call (.hashing personKey newPin)) ∧
        queued ⟨personKey, .savePin (some (call, guess)) none⟩ ∧
          ∀ answer, noted (.answered call personKey guess answer))
    (puts : ∀ name firstCertificate pin joinedAt,
      queued ⟨personKey, .put name firstCertificate pin joinedAt⟩) :
    Calls waits queued noted (perform host personKey task) := by
  cases task with
  | countGuess call pin guess =>
      have counted := calls.updated personKey countGuess
      have allowed := matched call pin guess rfl
      simp only [Vouching.perform]
      split <;> rename_i update <;> rw [update] at counted allowed
      · have new := allowed (by simp)
        exact (counted.note new.2).park (new.1 _ _)
      · exact counted.park (finds call pin guess rfl)
  | clearFailures call guess =>
      have cleared := calls.updated personKey clearFailures
      obtain ⟨hashing, saving, answers⟩ := others call rfl rfl guess
      rcases guess with - | - | newPin
      · exact cleared.answered (answers .ok)
      · exact cleared.enqueue saving
      · exact cleared.park (hashing newPin)
  | savePin call hash =>
      have saved := calls.updated personKey (savePin hash)
      simp only [Vouching.perform]
      split <;> rename_i update <;> rw [update] at saved
      · exact saved
      · rename_i call guess
        exact saved.answered ((others call rfl rfl guess).2.2 .ok)
      · rename_i call guess
        exact saved.answered ((others call rfl rfl guess).2.2 .unknownPerson)
  | rename name firstCertificate pin joinedAt =>
      have renamed := calls.updated personKey (rename name pin)
      simp only [Vouching.perform]
      split <;> rename_i update <;> rw [update] at renamed
      · exact renamed
      · exact renamed.enqueue (puts _ _ _ _)
  | put | unlock | amend => exact calls.of_same rfl rfl rfl

end Calls

/-! ## At the limit -/

/-- What a call may be answered at the limit: `locked`, or `badPin` where it is a `changePin` to a new
PIN that is not valid. -/
def Turned (guess : Guess) (answer : PinAnswer) : Prop :=
  answer = .locked ∨
    answer = .badPin ∧ ∃ newPin, guess = .changePin (some newPin) ∧ isValidPin newPin = false

/-- Of the calls made since, none for the person is past the count, and each that has been
answered was turned away. -/
abbrev BarredCalls (late : CallId → Prop) (personKey : JsString) (host : PinHost) : Prop :=
  Calls (fun call waiting => late call → waiting.personKey = personKey → waiting.compared = false)
    (fun write => write.personKey = personKey → ∀ call, write.task.caller = some call →
      late call → write.task.counts = true)
    (fun event => ∀ call guess answer, event = .answered call personKey guess answer → late call →
      Turned guess answer)
    host

variable {late : CallId → Prop}

theorem barredCalls_unmet (host : PinHost) (personKey : JsString) :
    BarredCalls host.Unmet personKey host := by
  constructor
  · intro call waiting found unmet
    rw [unmet.waiting] at found
    cases found
  · intro write member _ call caller unmet
    exact absurd caller (unmet.writes write member)
  · rintro event member call guess answer rfl unmet
    exact absurd member (unmet.log personKey guess answer)

theorem barred_other {guess : Guess} {answer : PinAnswer} (different : other ≠ personKey) :
    ∀ called guessed given,
      PinEvent.answered call other guess answer = .answered called personKey guessed given →
        late called → Turned guessed given := by
  intro called guessed given same
  cases same
  exact absurd rfl different

theorem onRoster_of_limit (limit : maxPinFailures ≤ host.failures personKey) :
    ∃ entry, host.people personKey = some entry ∧ maxPinFailures ≤ failuresOf entry := by
  cases found : host.people personKey with
  | none =>
      rw [PinHost.failures, found] at limit
      cases limit
  | some entry =>
      rw [failures_of_found found] at limit
      exact ⟨entry, rfl, limit⟩

theorem pin_of_limit (sound : RosterSound host) (limit : maxPinFailures ≤ host.failures personKey) :
    (host.people personKey).any (fun person => person.pin.isSome) = true := by
  obtain ⟨entry, found, locked⟩ := onRoster_of_limit limit
  rw [found, Option.any_some, Option.isSome_iff_ne_none]
  intro unset
  have zero := (sound.entries personKey entry found).guarded unset
  rw [zero] at locked
  cases locked

theorem resume_barred {waiting : Waiting} (sound : RosterSound host)
    (limit : maxPinFailures ≤ host.failures personKey)
    (calls : BarredCalls late personKey host) (found : host.waiting call = some waiting)
    (resumed : resumeWaiting platform host call waiting = some next) :
    BarredCalls late personKey next := by
  have freed := calls.free call
  cases waiting with
  | findingPerson other oldPin newPin =>
      simp only [resumeWaiting] at resumed
      split at resumed <;> rename_i absent <;> cases resumed
      · apply calls.answered
        apply barred_other
        rintro rfl
        obtain ⟨entry, here, -⟩ := onRoster_of_limit limit
        rw [here] at absent
        cases absent
      · apply freed.enqueue
        exact fun _ _ _ _ => rfl
  | findingPin other guess =>
      simp only [resumeWaiting] at resumed
      split at resumed <;> rename_i set <;> cases resumed
      · apply calls.answered
        rintro called guessed given same -
        cases same
        exact .inl rfl
      · apply calls.answered
        apply barred_other
        rintro rfl
        exact set (pin_of_limit sound limit)
  | matching other pin stored failures guess =>
      have past := calls.waiting call _ found
      have answers : ∀ answer called guessed given,
          PinEvent.answered call other guess answer = .answered called personKey guessed given →
            late called → Turned guessed given := by
        intro answer called guessed given same isLate
        cases same
        cases past isLate rfl
      simp only [resumeWaiting] at resumed
      split at resumed
      · cases resumed
        apply freed.enqueue
        intro same called caller isLate
        cases caller
        cases past isLate same
      · split at resumed <;> cases resumed <;> exact calls.answered (answers _)
  | hashing => cases resumed

theorem perform_barred {rest : List Write}
    (limit : maxPinFailures ≤ host.failures personKey)
    (calls : BarredCalls late personKey host) (writes : host.writes = ⟨other, task⟩ :: rest) :
    BarredCalls late personKey (perform { host with writes := rest } other task) := by
  have queued := calls.writes ⟨other, task⟩ (by rw [writes]; exact List.mem_cons_self)
  apply (calls.rest writes).perform
  · exact fun _ _ _ _ _ _ => rfl
  · intro called pin guess _ counted
    have different : other ≠ personKey := by
      rintro rfl
      apply counted
      obtain ⟨entry, here, locked⟩ := onRoster_of_limit limit
      simp [PinHost.update, PersonRoster.update, here, countGuess_locked locked]
    constructor
    · exact fun _ _ _ same => absurd same different
    · intro _ _ _ same
      cases same
  · intro called caller uncounted
    have past : other = personKey → ¬ late called := by
      intro same isLate
      have counts := queued same called caller isLate
      rw [uncounted] at counts
      cases counts
    intro guess
    refine ⟨fun _ isLate same => absurd isLate (past same), ?_, ?_⟩
    · rintro same again saves isLate
      cases saves
      exact absurd isLate (past same)
    · intro answer again guessed given same isLate
      cases same
      exact absurd isLate (past rfl)
  · exact fun _ _ _ _ _ _ caller => by cases caller

theorem step_barred {action : PinAction} (sound : RosterSound host)
    (limit : maxPinFailures ≤ host.failures personKey)
    (calls : BarredCalls late personKey host)
    (taken : pinStep platform host action = some next) : BarredCalls late personKey next := by
  cases action with
  | ask id asked =>
      simp only [pinStep] at taken
      split at taken <;> cases taken
      exact calls.of_same rfl rfl rfl
  | close id =>
      cases taken
      exact calls.of_same rfl rfl rfl
  | enterPin id pin =>
      simp only [pinStep] at taken
      have started : BarredCalls late personKey { host with nextCall := host.nextCall + 1 } :=
        calls.of_same rfl rfl rfl
      split at taken <;> cases taken
      · exact started.note fun _ _ _ same => by cases same
      · apply started.enqueue
        exact fun _ _ _ _ => rfl
  | changePin other oldPin newPin =>
      simp only [pinStep] at taken
      have started : BarredCalls late personKey { host with nextCall := host.nextCall + 1 } :=
        calls.of_same rfl rfl rfl
      split at taken <;> rename_i allowed <;> cases taken
      · exact started.park fun _ _ => rfl
      · apply started.answered
        rintro called guessed given same -
        cases same
        refine .inr ⟨rfl, ?_⟩
        cases newPin with
        | none => exact absurd rfl allowed
        | some pin => exact ⟨pin, rfl, Bool.eq_false_of_not_eq_true allowed⟩
  | resume call =>
      obtain ⟨waiting, found, resumed⟩ := Option.bind_eq_some_iff.mp taken
      exact resume_barred sound limit calls found resumed
  | hashed call hash =>
      simp only [pinStep] at taken
      split at taken <;> rename_i found <;> cases taken
      have past := calls.waiting call _ found
      apply (calls.free call).enqueue
      intro same called caller isLate
      cases caller
      cases past isLate same
  | setPin | unlockPin | join | amend =>
      cases taken
      apply calls.enqueue
      exact fun _ _ caller => by cases caller
  | write =>
      simp only [pinStep] at taken
      split at taken <;> rename_i writes <;> cases taken
      exact perform_barred limit calls writes
  | failWrite =>
      simp only [pinStep] at taken
      split at taken <;> rename_i writes <;> cases taken
      exact calls.rest writes
  | restart =>
      cases taken
      exact ⟨Table.all_empty, by simp, calls.log⟩

theorem barred_reached (sound : RosterSound host)
    (limit : maxPinFailures ≤ host.failures personKey)
    (period : Reaches (pinStep platform) (KeepsCount personKey) host next) :
    BarredCalls host.Unmet personKey next := by
  induction period with
  | refl => exact barredCalls_unmet host personKey
  | tail before keeps taken induction =>
      have kept := (tallies_reached sound before).stuck limit
      rw [← kept] at limit
      exact step_barred (rosterSound_reached sound before) limit induction taken

/-! ## The bound -/

/-- What a period without a reset of the person's count, from `before` to `after`, shows. -/
structure LockoutBound (personKey : JsString) (before after : PinHost) : Prop where
  bounded : after.comparisons personKey ≤ before.comparisons personKey + maxPinFailures
  onDisk : after.failures personKey + before.comparisons personKey =
    before.failures personKey + after.comparisons personKey
  uncompared : maxPinFailures ≤ before.failures personKey →
    after.comparisons personKey = before.comparisons personKey
  locked : maxPinFailures ≤ before.failures personKey → ∀ call guess answer, before.Unmet call →
    PinEvent.answered call personKey guess answer ∈ after.log → Turned guess answer

theorem pin_lockout_bound (platform : HostPlatform) (personKey : JsString)
    {before after : PinHost} (reached : Reaches (pinStep platform) anyAction PinHost.opened before)
    (period : Reaches (pinStep platform) (KeepsCount personKey) before after) :
    LockoutBound personKey before after := by
  have sound := rosterSound_reached rosterSound_opened reached
  have soundAfter := rosterSound_reached sound period
  have tallies := tallies_reached sound period
  have balance := tallies.balance
  have limit := failures_le soundAfter personKey
  constructor
  · omega
  · exact balance
  · intro atLimit
    have same := tallies.stuck atLimit
    omega
  · intro atLimit call guess answer unmet member
    exact (barred_reached sound atLimit period).log _ member call guess answer rfl unmet

/-! Six wrong guesses at once, and a change of the PIN to one that is too short. -/

def samplePin : PinHash := ⟨js "salt", js "4821", 100000⟩

def joinWithPin : List PinAction :=
  [.join (js "sam") (js "Sam") sampleCertificate (some (some samplePin))
      (js "1970-01-01T00:00:00.000Z"),
    .write, .write, .ask (js "request") (js "sam")]

def guessSixTimes : List PinAction :=
  List.replicate 6 (.enterPin (js "request") (js "0000")) ++ List.replicate 6 .write

def keptStep (host : PinHost) (action : PinAction) : Option PinHost :=
  if KeepsCount (js "sam") host action then pinStep samplePlatform host action else none

theorem guessSixTimes_compares_five :
    ((run (pinStep samplePlatform) PinHost.opened joinWithPin).bind fun before =>
      (run keptStep before guessSixTimes).map fun after =>
        (before.comparisons (js "sam"), after.comparisons (js "sam"),
          after.failures (js "sam"))) = some (0, 5, 5) := by
  decide +kernel

theorem sixth_guess_is_not_compared :
    ∃ before after, LockoutBound (js "sam") before after ∧ before.comparisons (js "sam") = 0 ∧
      after.comparisons (js "sam") = 5 := by
  obtain ⟨before, joined, found⟩ := Option.bind_eq_some_iff.mp guessSixTimes_compares_five
  obtain ⟨after, guessed, shows⟩ := Option.map_eq_some_iff.mp found
  refine ⟨before, after, ?_, congrArg Prod.fst shows, congrArg (fun shown => shown.2.1) shows⟩
  exact pin_lockout_bound samplePlatform (js "sam")
    (.of_run joined (meetsAlong_anyAction _ _)) (.of_guarded_run guessed)

def answersCall (call : CallId) : PinEvent → Bool
  | .answered of _ _ _ => of = call
  | _ => false

theorem shortPin_answers_badPin :
    ((run (pinStep samplePlatform) PinHost.opened (joinWithPin ++ guessSixTimes)).bind
      fun before => (run keptStep before [.changePin (js "sam") (js "0000") (some (js "12"))]).map
        fun after => (before.failures (js "sam"), before.waiting 6, before.writes.isEmpty,
          before.log.any (answersCall 6), after.log.head?)) =
      some (5, none, true, false,
        some (.answered 6 (js "sam") (.changePin (some (js "12"))) .badPin)) := by
  decide +kernel

/-- At the limit, a call is answered something else than locked. -/
theorem short_new_pin_is_not_answered_locked :
    ∃ before after, Reaches (pinStep samplePlatform) anyAction PinHost.opened before ∧
      Reaches (pinStep samplePlatform) (KeepsCount (js "sam")) before after ∧
      maxPinFailures ≤ before.failures (js "sam") ∧
      ∃ call guess answer, before.Unmet call ∧ .answered call (js "sam") guess answer ∈ after.log ∧
        answer ≠ .locked := by
  obtain ⟨before, locked, found⟩ := Option.bind_eq_some_iff.mp shortPin_answers_badPin
  obtain ⟨after, changed, shows⟩ := Option.map_eq_some_iff.mp found
  simp only [Prod.mk.injEq] at shows
  obtain ⟨failures, waiting, writes, unanswered, last⟩ := shows
  refine ⟨before, after, .of_run locked (meetsAlong_anyAction _ _), .of_guarded_run changed,
    by rw [failures]; exact le_refl 5, 6, .changePin (some (js "12")), .badPin,
    ⟨waiting, ?_, ?_⟩, ?_, ?_⟩
  · rw [List.isEmpty_iff.mp writes]
    intro write member
    cases member
  · intro personKey guess answer member
    have silent := List.any_eq_false.mp unanswered _ member
    simp [answersCall] at silent
  · exact List.mem_of_mem_head? last
  · exact fun same => nomatch same

end Tapes.Vouching
