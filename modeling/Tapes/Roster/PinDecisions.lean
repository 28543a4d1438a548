import Tapes.Roster.JoinRaces

namespace Tapes.Roster

open Tapes.Js Tapes.Provenance Tapes.Machine
open Tapes.Vouching (HostPlatform CallId pinMatches createDeviceVouch)

/-! Which PIN a decision about a PIN was made on. The slow comparison runs on a hash that was
captured before, and the writes that follow from it do not look at the hash again. -/

/-- The person and the hash that the call compared a right PIN with, or is about to. -/
def Waiting.checked (platform : HostPlatform) : Waiting → Option (JsString × PinHash)
  | .matching personKey pin stored _ _ =>
      if pinMatches platform pin stored then some (personKey, stored) else none
  | .hashing (.changePin personKey _ compared) => some (personKey, compared)
  | .removing personKey compared => some (personKey, compared)
  | _ => none

def CallTask.checked : CallTask → Option PinHash
  | .clearFailures _ _ compared _ => some compared
  | .savePin _ _ compared => compared
  | _ => none

/-- A write that sets or removes a person's PIN is made only while no other call is between
its comparison with that person's PIN, if the typed PIN is right, and the last write of it. -/
def SetsPinAlone (platform : HostPlatform) (host : CallHost) : CallAction → Prop
  | .write =>
      match host.writes with
      | [] => True
      | ⟨personKey, task⟩ :: rest => task.setsPin = true →
          (∀ write ∈ rest, write.personKey = personKey → write.task.checked = none) ∧
          ∀ other ∈ host.waiting, ∀ found ∈ other.2.checked platform, found.1 ≠ personKey
  | _ => True

/-- The call cleared the person's failures after a PIN that matched the roster's at that
moment. -/
def Cleared (platform : HostPlatform) (log : List CallEvent) (call : CallId)
    (personKey : JsString) : Prop :=
  ∃ pin compared held erased, CallEvent.cleared call personKey pin compared (some held) erased ∈ log ∧
    pinMatches platform pin held = true

/-- A change replaces the PIN that the old PIN was compared with, a clearing erases failures
counted against the PIN that was matched, and a PIN vouch follows a clearing. -/
def CallEvent.Decided (platform : HostPlatform) (log : List CallEvent) : CallEvent → Prop
  | .cleared _ _ _ compared _ erased => ∀ hash ∈ erased, hash = compared
  | .changed _ _ compared held => held = some compared
  | .vouched call personKey record => record.method = .pin → Cleared platform log call personKey
  | .answered .. => True

/-! ## What a call may rely on -/

def Guess.IsFor (personKey : JsString) : Guess → Prop
  | .enterPin request => request.request.personKey = personKey
  | .changePin _ => True

def Waiting.Fine (platform : HostPlatform) (host : CallHost) (call : CallId) : Waiting → Prop
  | .matching personKey pin stored _ guess => guess.IsFor personKey ∧
      (pinMatches platform pin stored = true → host.pinOf personKey = some stored)
  | .hashing (.changePin personKey _ compared) => host.pinOf personKey = some compared
  | .removing personKey compared => host.pinOf personKey = some compared
  | .vouching request method => method = .pin →
      Cleared platform host.log call request.request.personKey
  | .signing _ personKey details => details.method = .pin →
      Cleared platform host.log call personKey
  | _ => True

def CallTask.Fine (platform : HostPlatform) (host : CallHost) (personKey : JsString) :
    CallTask → Prop
  | .countGuess _ _ guess => guess.IsFor personKey
  | .clearFailures _ pin compared guess => guess.IsFor personKey ∧
      pinMatches platform pin compared = true ∧ host.pinOf personKey = some compared
  | .savePin _ _ (some compared) => host.pinOf personKey = some compared
  | .addVouch call record => record.method = .pin → Cleared platform host.log call personKey
  | _ => True

structure PinSound (platform : HostPlatform) (host : CallHost) : Prop where
  waiting : ∀ other ∈ host.waiting, other.2.Fine platform host other.1
  writes : ∀ write ∈ host.writes, write.task.Fine platform host write.personKey
  counted : ∀ personKey, ∀ hash ∈ host.counted personKey, host.pinOf personKey = some hash
  log : ∀ event ∈ host.log, event.Decided platform host.log

section

variable {platform : HostPlatform} {host next : CallHost} {action : CallAction} {call : CallId}
  {personKey : JsString} {task : CallTask} {waiting : Waiting} {event : CallEvent}
  {log more : List CallEvent}

theorem Cleared.mono (cleared : Cleared platform log call personKey)
    (grows : ∀ event ∈ log, event ∈ more) : Cleared platform more call personKey := by
  obtain ⟨pin, compared, held, erased, member, matched⟩ := cleared
  exact ⟨pin, compared, held, erased, grows _ member, matched⟩

theorem CallEvent.Decided.mono (decided : event.Decided platform log)
    (grows : ∀ event ∈ log, event ∈ more) : event.Decided platform more := by
  cases event with
  | cleared | changed | answered => exact decided
  | vouched call personKey record => exact fun byPin => (decided byPin).mono grows

/-- A call relies on the PIN that it checked and on the log only. -/
theorem Waiting.Fine.mono (fine : waiting.Fine platform host call)
    (grows : ∀ event ∈ host.log, event ∈ next.log)
    (pins : ∀ found ∈ waiting.checked platform, next.pinOf found.1 = host.pinOf found.1) :
    waiting.Fine platform next call := by
  cases waiting with
  | matching personKey pin stored failures guess =>
      refine ⟨fine.1, fun matched => ?_⟩
      rw [← fine.2 matched]
      exact pins (personKey, stored) (by simp [Waiting.checked, matched])
  | hashing hashing =>
      cases hashing with
      | changePin personKey pin compared => exact (pins (personKey, compared) rfl).trans fine
      | join | setPin => trivial
  | removing personKey compared => exact (pins (personKey, compared) rfl).trans fine
  | vouching | signing => exact fun byPin => (fine byPin).mono grows
  | joining | findingPerson | findingPin | unlocking | listing | storing => trivial

theorem CallTask.Fine.mono (fine : task.Fine platform host personKey)
    (grows : ∀ event ∈ host.log, event ∈ next.log)
    (pin : task.checked ≠ none → next.pinOf personKey = host.pinOf personKey) :
    task.Fine platform next personKey := by
  cases task with
  | clearFailures call typed compared guess =>
      exact ⟨fine.1, fine.2.1, (pin (by simp [CallTask.checked])).trans fine.2.2⟩
  | savePin call hash compared =>
      cases compared with
      | none => trivial
      | some compared => exact (pin (by simp [CallTask.checked])).trans fine
  | addVouch => exact fun byPin => (fine byPin).mono grows
  | countGuess => exact fine
  | rename | put | unlock | keepRecord | markRevoked => trivial

/-! ## Bookkeeping -/

theorem mem_unpark {other : CallId × Waiting} (member : other ∈ (host.unpark call).waiting) :
    other ∈ host.waiting := (List.mem_filter.mp member).1

theorem mem_park {other : CallId × Waiting} (member : other ∈ (host.park call waiting).waiting) :
    other = (call, waiting) ∨ other ∈ host.waiting := by
  cases List.mem_cons.mp member with
  | inl same => exact .inl same
  | inr old => exact .inr (mem_unpark old)

theorem mem_of_waitingOf (found : host.waitingOf call = some waiting) :
    (call, waiting) ∈ host.waiting := by
  obtain ⟨other, here, same⟩ := Option.map_eq_some_iff.mp found
  have key : other.1 = call := by simpa using List.find?_some here
  rw [← key, ← same]
  exact List.mem_of_find?_eq_some here

/-- The same roster and a log that goes on. -/
structure Later (host next : CallHost) : Prop where
  people : next.people = host.people
  counted : next.counted = host.counted
  log : ∀ event ∈ host.log, event ∈ next.log

theorem Later.pinOf (later : Later host next) (personKey : JsString) :
    next.pinOf personKey = host.pinOf personKey := by
  rw [CallHost.pinOf, CallHost.pinOf, later.people]

theorem PinSound.later (sound : PinSound platform host) (later : Later host next)
    (waiting : ∀ other ∈ next.waiting, other ∈ host.waiting ∨ other.2.Fine platform next other.1)
    (writes : ∀ write ∈ next.writes,
      write ∈ host.writes ∨ write.task.Fine platform next write.personKey)
    (log : ∀ event ∈ next.log, event ∈ host.log ∨ event.Decided platform next.log) :
    PinSound platform next := by
  refine ⟨?_, ?_, ?_, ?_⟩
  · intro other member
    rcases waiting other member with old | fine
    · exact (sound.waiting other old).mono later.log fun found _ => later.pinOf found.1
    · exact fine
  · intro write member
    rcases writes write member with old | fine
    · exact (sound.writes write old).mono later.log fun _ => later.pinOf write.personKey
    · exact fine
  · intro personKey hash member
    rw [later.counted] at member
    rw [later.pinOf]
    exact sound.counted personKey hash member
  · intro event member
    rcases log event member with old | decided
    · exact (sound.log event old).mono later.log
    · exact decided

theorem later_park (host : CallHost) (call : CallId) (waiting : Waiting) :
    Later host (host.park call waiting) := ⟨rfl, rfl, fun _ member => member⟩

theorem PinSound.park (sound : PinSound platform host)
    (fine : waiting.Fine platform host call) : PinSound platform (host.park call waiting) := by
  refine sound.later (later_park host call waiting) ?_ (fun _ member => .inl member)
    fun _ member => .inl member
  intro other member
  rcases mem_park member with same | old
  · rw [same]
    exact .inr (fine.mono (fun _ member => member) fun _ _ => rfl)
  · exact .inl old

theorem PinSound.unpark (sound : PinSound platform host) (call : CallId) :
    PinSound platform (host.unpark call) :=
  sound.later ⟨rfl, rfl, fun _ member => member⟩ (fun _ member => .inl (mem_unpark member))
    (fun _ member => .inl member) fun _ member => .inl member

theorem PinSound.note (sound : PinSound platform host) (event : CallEvent)
    (decided : event.Decided platform (event :: host.log)) : PinSound platform (host.note event) := by
  refine sound.later ⟨rfl, rfl, fun _ member => List.mem_cons_of_mem _ member⟩
    (fun _ member => .inl member) (fun _ member => .inl member) ?_
  intro other member
  cases List.mem_cons.mp member with
  | inl same =>
      rw [same]
      exact .inr decided
  | inr old => exact .inl old

theorem PinSound.answer (sound : PinSound platform host) (call : CallId) (answer : CallAnswer) :
    PinSound platform (host.answer call answer) :=
  (sound.unpark call).note _ trivial

theorem PinSound.enqueue (sound : PinSound platform host)
    (fine : task.Fine platform host personKey) :
    PinSound platform (host.enqueue personKey task) := by
  refine sound.later ⟨rfl, rfl, fun _ member => member⟩ (fun _ member => .inl member) ?_
    fun _ member => .inl member
  intro write member
  cases List.mem_append.mp member with
  | inl old => exact .inl old
  | inr last =>
      rw [List.mem_singleton.mp last]
      exact .inr (fine.mono (fun _ member => member) fun _ => rfl)

theorem PinSound.started (sound : PinSound platform host) : PinSound platform host.started :=
  sound.later ⟨rfl, rfl, fun _ member => member⟩ (fun _ member => .inl member)
    (fun _ member => .inl member) fun _ member => .inl member

/-! ## Writes -/

theorem pinOf_apply_other {other : JsString} (different : other ≠ personKey) :
    (host.apply personKey task).pinOf other = host.pinOf other := by
  have keeps := toTask_keeps personKey task
  have of := toTask_personKey personKey task
  simp only [CallHost.pinOf, CallHost.apply]
  rw [findPerson_apply_other keeps (by rw [of]; exact different)]

/-- What a write leaves of the person's PIN. -/
theorem apply_pin {later : RosterEntry}
    (written : (task.toTask personKey).written host.people = some later) :
    (host.apply personKey task).pinOf personKey = later.pin ∧
      (task.setsPin = false → host.pinOf personKey = later.pin) := by
  have keeps := toTask_keeps personKey task
  have of := toTask_personKey personKey task
  have last := findPerson_apply_self keeps written
  rw [of] at last
  refine ⟨?_, ?_⟩
  · simp only [CallHost.pinOf, CallHost.apply, last, Option.bind_some]
  · intro leaves
    simp only [CallTask.setsPin, Bool.or_eq_false_iff] at leaves
    cases shape : task.toTask personKey with
    | put put =>
        have isPut : task.isPut = true := by
          cases task <;> first | rfl | cases shape
        rw [isPut] at leaves
        cases leaves.1
    | update whose change =>
        rw [shape] at of written
        cases of
        obtain ⟨held, here, changed⟩ := Option.bind_eq_some_iff.mp written
        obtain ⟨-, pin⟩ := update_kept shape changed
        have none : task.carriedPin = none := Option.not_isSome_iff_eq_none.mp (by simp [leaves.2])
        rw [none, Option.getD_none] at pin
        change (findPerson host.people whose).bind RosterEntry.pin = later.pin
        rw [here, Option.bind_some, pin]

theorem pinOf_apply (leaves : task.setsPin = false) (other : JsString) :
    (host.apply personKey task).pinOf other = host.pinOf other := by
  by_cases same : other = personKey
  · subst same
    cases written : (task.toTask other).written host.people with
    | none => simp [CallHost.pinOf, CallHost.apply, Task.apply, written]
    | some later =>
        obtain ⟨after, before⟩ := apply_pin written
        rw [after, before leaves]
  · exact pinOf_apply_other same

theorem setsPin_of_resets (keeps : task.resets = false) : task.setsPin = false := by
  cases task with
  | clearFailures | unlock => cases keeps
  | _ => exact keeps

/-- The failures that are still counted were counted against the PIN that is still there. -/
theorem counted_apply (sound : ∀ personKey, ∀ hash ∈ host.counted personKey,
      host.pinOf personKey = some hash) (other : JsString) :
    ∀ hash ∈ (host.apply personKey task).counted other,
      (host.apply personKey task).pinOf other = some hash := by
  intro hash member
  by_cases same : other = personKey
  · subst same
    simp only [CallHost.apply, Function.update_self] at member
    cases written : (task.toTask other).written host.people with
    | none =>
        rw [written, countedAfter] at member
        have unchanged : (host.apply other task).pinOf other = host.pinOf other := by
          simp [CallHost.pinOf, CallHost.apply, Task.apply, written]
        rw [unchanged]
        exact sound other hash member
    | some later =>
        rw [written] at member
        obtain ⟨after, before⟩ := apply_pin written
        rw [after]
        cases task with
        | countGuess call pin guess =>
            simp only [countedAfter, List.mem_append, Option.mem_toList] at member
            cases member with
            | inl new => exact new
            | inr old =>
                rw [← before rfl]
                exact sound other hash old
        | _ =>
            simp only [countedAfter] at member
            split at member
            · cases member
            · rename_i keeps
              rw [← before (setsPin_of_resets (Bool.eq_false_iff.mpr keeps))]
              exact sound other hash member
  · simp only [CallHost.apply, Function.update_of_ne same] at member
    rw [pinOf_apply_other same]
    exact sound other hash member

/-- The write itself: every call that relies on the person's PIN still may. -/
theorem apply_sound (sound : PinSound platform host) {rest : List Write}
    (queue : host.writes = ⟨personKey, task⟩ :: rest) (alone : SetsPinAlone platform host .write) :
    PinSound platform (({ host with writes := rest } : CallHost).apply personKey task) := by
  simp only [SetsPinAlone, queue] at alone
  refine ⟨?_, ?_, counted_apply sound.counted, sound.log⟩
  · intro other member
    refine (sound.waiting other member).mono (fun _ member => member) fun found checked => ?_
    cases sets : task.setsPin with
    | true => exact pinOf_apply_other ((alone sets).2 other member found checked)
    | false => exact pinOf_apply sets found.1
  · intro write member
    have old : write ∈ host.writes := queue ▸ List.mem_cons_of_mem _ member
    refine (sound.writes write old).mono (fun _ member => member) fun checked => ?_
    cases sets : task.setsPin with
    | true => exact pinOf_apply_other fun same => checked ((alone sets).1 write member same)
    | false => exact pinOf_apply sets write.personKey

theorem perform_sound (sound : PinSound platform host) {rest : List Write}
    (queue : host.writes = ⟨personKey, task⟩ :: rest) (alone : SetsPinAlone platform host .write) :
    PinSound platform (perform { host with writes := rest } personKey task) := by
  have base := apply_sound sound queue alone
  have fine : task.Fine platform host personKey :=
    sound.writes ⟨personKey, task⟩ (queue ▸ List.mem_cons_self)
  cases task with
  | countGuess call pin guess =>
      simp only [perform]
      split
      · rename_i stored failures written
        refine base.park ⟨fine, fun _ => ?_⟩
        exact (apply_pin written).1
      · exact base.park trivial
  | clearFailures call pin compared guess =>
      obtain ⟨isFor, matched, held⟩ := fine
      have same : ({ host with writes := rest } : CallHost).pinOf personKey = some compared := held
      have after : (({ host with writes := rest } : CallHost).apply personKey
          (.clearFailures call pin compared guess)).pinOf personKey = some compared :=
        (pinOf_apply rfl personKey).trans held
      have noted := base.note (.cleared call personKey pin compared
        (({ host with writes := rest } : CallHost).pinOf personKey) (host.counted personKey)) (by
          intro hash member
          have still := sound.counted personKey hash member
          rw [held] at still
          exact (Option.some.inj still).symm)
      cases guess with
      | enterPin request =>
          refine noted.park fun _ => ?_
          refine ⟨pin, compared, compared, host.counted personKey, ?_, matched⟩
          rw [show request.request.personKey = personKey from isFor, same]
          exact List.mem_cons_self
      | changePin newPin =>
          cases newPin with
          | none => exact noted.park after
          | some newPin => exact noted.park after
  | savePin call hash compared =>
      simp only [perform]
      split
      · exact base.answer call .unknownPerson
      · exact base.answer call .ok
      · rename_i compared _
        refine (base.note _ ?_).answer call .ok
        exact fine
  | rename call name certificate pin =>
      simp only [perform]
      split
      · exact base.answer call .ok
      · exact base.park trivial
  | put call => exact base.answer call .ok
  | unlock call => exact base.answer call .ok
  | addVouch call record =>
      simp only [perform]
      split
      · refine (base.note _ ?_).answer call .ok
        exact fun byPin => Cleared.mono (fine byPin) fun _ member => List.mem_cons_of_mem _ member
      · exact base.answer call .ok
  | keepRecord call stored =>
      simp only [perform]
      split
      · exact base.answer call .ok
      · exact base.answer call .tooManyRecords
      · exact base.answer call .unknownPerson
  | markRevoked => exact base

/-! ## Every step -/

theorem resume_sound (sound : PinSound platform host) {hostLabel : JsString} {time : Int}
    (found : (call, waiting) ∈ host.waiting)
    (resumed : resumeWaiting platform host call hostLabel time waiting = some next) :
    PinSound platform next := by
  have fine : waiting.Fine platform host call := sound.waiting (call, waiting) found
  cases waiting with
  | hashing => cases resumed
  | joining personKey name certificate pin =>
      cases resumed
      exact (sound.unpark call).enqueue trivial
  | findingPerson personKey oldPin newPin =>
      simp only [resumeWaiting] at resumed
      split at resumed
      · cases resumed
        exact sound.answer call .unknownPerson
      · cases resumed
        exact (sound.unpark call).enqueue trivial
  | findingPin personKey =>
      simp only [resumeWaiting] at resumed
      split at resumed
      · cases resumed
        exact sound.answer call .locked
      · cases resumed
        exact sound.answer call .noPin
  | matching personKey pin stored failures guess =>
      simp only [resumeWaiting] at resumed
      split at resumed
      · rename_i matched
        cases resumed
        exact (sound.unpark call).enqueue ⟨fine.1, matched, fine.2 matched⟩
      · split at resumed
        · cases resumed
          exact sound.answer call .locked
        · cases resumed
          exact sound.answer call _
  | removing personKey compared =>
      cases resumed
      exact (sound.unpark call).enqueue fine
  | vouching request method =>
      simp only [resumeWaiting] at resumed
      split at resumed
      · cases resumed
        exact sound.answer call .threw
      · rename_i person here
        cases resumed
        refine sound.park fun byPin => ?_
        rw [findPerson_key here]
        exact fine byPin
  | signing request personKey details =>
      cases resumed
      refine (sound.unpark call).enqueue ?_
      exact fine
  | unlocking personKey =>
      simp only [resumeWaiting] at resumed
      split at resumed
      · cases resumed
        exact sound.answer call .unknownPerson
      · cases resumed
        exact (sound.unpark call).enqueue trivial
  | listing personKey stored =>
      simp only [resumeWaiting] at resumed
      split at resumed
      · cases resumed
        exact sound.park trivial
      · split at resumed
        · cases resumed
          exact sound.park trivial
        · cases resumed
          exact sound.answer call .notYours
  | storing personKey stored =>
      cases resumed
      exact (sound.unpark call).enqueue trivial

theorem callStep_sound (sound : PinSound platform host) (alone : SetsPinAlone platform host action)
    (taken : callStep platform host action = some next) : PinSound platform next := by
  cases action with
  | ask id request =>
      simp only [callStep] at taken
      split at taken <;> cases taken
      exact ⟨sound.waiting, sound.writes, sound.counted, sound.log⟩
  | close id =>
      cases taken
      exact ⟨sound.waiting, sound.writes, sound.counted, sound.log⟩
  | join personKey name certificate pin =>
      simp only [callStep] at taken
      split at taken
      · cases taken
        exact sound.started.enqueue trivial
      · cases taken
        exact sound.started.enqueue trivial
      · split at taken <;> cases taken
        exact sound.started.park trivial
  | confirm id =>
      simp only [callStep] at taken
      split at taken
      · cases taken
        exact sound.started.answer _ .undefined
      · cases taken
        exact sound.started.park fun byPin => by cases byPin
  | enterPin id pin =>
      simp only [callStep] at taken
      split at taken
      · cases taken
        exact sound.started.answer _ .notPending
      · cases taken
        exact sound.started.enqueue rfl
  | changePin personKey oldPin newPin =>
      simp only [callStep] at taken
      split at taken
      · cases taken
        exact sound.started.park trivial
      · cases taken
        exact sound.started.answer _ .badPin
  | setPin personKey newPin =>
      simp only [callStep] at taken
      split at taken
      · cases taken
        exact sound.started.enqueue trivial
      · split at taken
        · cases taken
          exact sound.started.park trivial
        · cases taken
          exact sound.started.answer _ .badPin
  | unlockPin personKey =>
      cases taken
      exact sound.started.park trivial
  | keepRecord personKey stored =>
      cases taken
      exact sound.started.park trivial
  | markRevoked =>
      cases taken
      exact sound.enqueue trivial
  | resume call hostLabel time =>
      obtain ⟨waiting, found, resumed⟩ := Option.bind_eq_some_iff.mp taken
      exact resume_sound sound (mem_of_waitingOf found) resumed
  | hashed call hash =>
      simp only [callStep] at taken
      split at taken
      · rename_i hashing found
        have fine := sound.waiting _ (mem_of_waitingOf found)
        split at taken <;> cases taken
        cases hashing with
        | join | setPin => exact (sound.unpark call).enqueue trivial
        | changePin personKey pin compared => exact (sound.unpark call).enqueue fine
      · cases taken
  | write =>
      simp only [callStep] at taken
      split at taken
      · cases taken
      · rename_i first rest queue
        cases taken
        exact perform_sound sound queue alone
  | failWrite =>
      simp only [callStep] at taken
      split at taken
      · cases taken
      · rename_i first rest queue
        cases taken
        exact ⟨sound.waiting, fun write member => sound.writes write (queue ▸ .tail first member),
          sound.counted, sound.log⟩
  | throw call =>
      simp only [callStep] at taken
      split at taken <;> cases taken
      exact sound.answer call .threw
  | restart =>
      cases taken
      exact ⟨by simp, by simp, sound.counted, sound.log⟩

/-- While no PIN is written under a call that has checked the old one, every decision is made on
the PIN that the roster holds at that moment. -/
theorem pin_decisions_are_atomic (reached : Reaches (callStep platform) (SetsPinAlone platform)
    .opened host) : ∀ event ∈ host.log, event.Decided platform host.log := by
  have sound : PinSound platform host := by
    apply reached.invariant (PinSound platform)
    · exact ⟨by simp [CallHost.opened], by simp [CallHost.opened], by simp [CallHost.opened],
        by simp [CallHost.opened]⟩
    · exact fun _ sound alone taken => callStep_sound sound alone taken
  exact sound.log

end

/-! ## A PIN that is set while an old one is checked -/

instance (platform : HostPlatform) (host : CallHost) (action : CallAction) :
    Decidable (SetsPinAlone platform host action) := by
  cases action with
  | write =>
      cases host with
      | mk people writes requests waiting nextCall counted pinWrites log =>
          cases writes with
          | nil => exact isTrue trivial
          | cons first rest =>
              exact inferInstanceAs (Decidable (first.task.setsPin = true →
                (∀ write ∈ rest, write.personKey = first.personKey → write.task.checked = none) ∧
                ∀ other ∈ waiting, ∀ found ∈ other.2.checked platform,
                  found.1 ≠ first.personKey))
  | _ => exact isTrue trivial

def pinHashOf (pin : String) : PinHash := ⟨js "salt", js pin, 100000⟩

def samOnThisPhone : PendingRequest :=
  ⟨⟨js "new phone", js "sam", js "phone", js "t"⟩, js "fingerprint"⟩

def joinWithPin : List CallAction :=
  [.join (js "sam") (js "Sam") (certificateOf "phone") (some (some (js "1111"))),
    .hashed 0 (pinHashOf "1111"), .write, .resume 0 (js "host") 0, .write]

/-- A `changePin` has Sam's right PIN, and the operator resets that PIN before the comparison is
done. A wrong guess at the new PIN is counted, and then the change goes on. -/
def resetUnderChange : List CallAction := joinWithPin ++
  [.changePin (js "sam") (js "1111") (some (js "2222")), .resume 1 (js "host") 0, .write,
    .setPin (js "sam") (some (js "3333")), .hashed 2 (pinHashOf "3333"), .write,
    .ask (js "request") samOnThisPhone, .enterPin (js "request") (js "0000"), .write,
    .resume 1 (js "host") 0, .write, .hashed 1 (pinHashOf "2222"), .write]

theorem resetUnderChange_replaces :
    ((run (callStep plainHost) .opened resetUnderChange).map fun host => host.log.take 3) =
      some [.answered 1 .ok, .changed 1 (js "sam") (pinHashOf "1111") (some (pinHashOf "3333")),
        .cleared 1 (js "sam") (js "1111") (pinHashOf "1111") (some (pinHashOf "3333"))
          [pinHashOf "3333"]] := by
  decide +kernel

/-- The change replaces the PIN that the operator set, and its clearing erases a failure that was
counted against that PIN. -/
theorem change_overwrites_the_reset :
    ¬ ∀ (platform : HostPlatform) (host : CallHost),
      Reaches (callStep platform) anyAction .opened host →
      ∀ event ∈ host.log, event.Decided platform host.log := by
  intro decided
  obtain ⟨host, ran, shows⟩ := Option.map_eq_some_iff.mp resetUnderChange_replaces
  have member : CallEvent.changed 1 (js "sam") (pinHashOf "1111") (some (pinHashOf "3333")) ∈
      host.log := by
    have early : CallEvent.changed 1 (js "sam") (pinHashOf "1111") (some (pinHashOf "3333")) ∈
        host.log.take 3 := by
      rw [shows]
      exact .tail _ (List.mem_cons_self ..)
    exact List.mem_of_mem_take early
  have replaced : some (pinHashOf "3333") = some (pinHashOf "1111") :=
    decided plainHost host (.of_run ran (meetsAlong_anyAction _ _)) _ member
  exact absurd replaced (by decide)

/-- Sam types the PIN on a new phone, which is vouched for, and then changes it. -/
def vouchThenChange : List CallAction := joinWithPin ++
  [.ask (js "request") samOnThisPhone, .enterPin (js "request") (js "1111"), .write,
    .resume 1 (js "host") 0, .write, .resume 1 (js "host") 0, .resume 1 (js "host") 0, .write,
    .changePin (js "sam") (js "1111") none, .resume 2 (js "host") 0, .write,
    .resume 2 (js "host") 0, .write, .resume 2 (js "host") 0, .write]

def stepIfAlone (host : CallHost) (action : CallAction) : Option CallHost :=
  if SetsPinAlone plainHost host action then callStep plainHost host action else none

theorem vouchThenChange_runs :
    ((run stepIfAlone .opened vouchThenChange).map fun host =>
      (host.held (js "sam"), host.log.length)) = some (some (js "phone", false), 7) := by
  decide +kernel

theorem change_after_vouch_is_decided :
    ∃ host : CallHost, host.log.length = 7 ∧
      ∀ event ∈ host.log, event.Decided plainHost host.log := by
  obtain ⟨host, ran, shows⟩ := Option.map_eq_some_iff.mp vouchThenChange_runs
  exact ⟨host, (Prod.mk.inj shows).2, pin_decisions_are_atomic (.of_guarded_run ran)⟩

end Tapes.Roster
