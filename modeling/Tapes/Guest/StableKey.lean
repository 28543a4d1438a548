import Tapes.Guest.PersonKey

namespace Tapes.Guest

open Tapes.Js Tapes.Provenance Tapes.Machine

/-! A person key that is stored stays: the store changes by an `add` to an empty store, or by a
`put` of what was read with other stamps. -/

variable {KeyPair : Type} {crypto : Crypto KeyPair} {before after store : Option (StoredValue KeyPair)}
  {tabs next : Tabs KeyPair} {call : CallId} {request : Request KeyPair}
  {stored : StoredIdentity KeyPair} {action : Action KeyPair}

/-- The store has the key pair and the certificate of `stored`, with whatever stamps. -/
def Holds (store : Option (StoredValue KeyPair)) (stored : StoredIdentity KeyPair) : Prop :=
  ∃ kept, store = some (.identity kept) ∧ kept.keyPair = stored.keyPair ∧
    kept.certificate = stored.certificate

theorem Holds.self (read : store = some (.identity stored)) : Holds store stored :=
  ⟨stored, read, rfl, rfl⟩

theorem Holds.stamp (held : Holds store stored) (stamps : Stamps) :
    Holds store (stored.stamp stamps) := held

/-- Whatever key was held is held still. -/
def Keeps (before after : Option (StoredValue KeyPair)) : Prop :=
  ∀ stored, Holds before stored → Holds after stored

theorem Keeps.refl : Keeps store store := fun _ held => held

theorem keeps_write (fits : before = none ∨ Holds before stored) :
    Keeps before (some (.identity stored)) := by
  intro other held
  obtain ⟨kept, is_kept, same_pair, same_certificate⟩ := held
  cases fits with
  | inl empty => cases empty.symm.trans is_kept
  | inr known =>
      obtain ⟨again, is_again, pair, certificate⟩ := known
      cases is_again.symm.trans is_kept
      exact ⟨stored, rfl, pair.symm.trans same_pair, certificate.symm.trans same_certificate⟩

/-- A call of `updateStored` for a public key. -/
def Request.marks : Request KeyPair → Option JsString
  | .mark publicKey _ _ => some publicKey
  | .create _ | .restore _ _ => none

/-- What a call carries from one await to the next: a key it has read or written is in the store. -/
def Call.Known (crypto : Crypto KeyPair) (store : Option (StoredValue KeyPair))
    (running : Call KeyPair) : Prop :=
  match running.phase with
  | .comparing stored | .answering stored => Holds store stored
  | .putting updated =>
      Holds store updated ∧
        ∀ publicKey, running.request.marks = some publicKey →
          crypto.exportPublicKey updated.keyPair = publicKey
  | .adding _ => running.request.marks = none
  | .reading | .generating | .certifying _ | .rereading => True

def Answer.Known (crypto : Crypto KeyPair) (store : Option (StoredValue KeyPair)) :
    Answer KeyPair → Prop
  | .identity person =>
      Holds store person.toStoredIdentity ∧ person = toIdentity crypto person.toStoredIdentity
  | .otherPersonKey | .marked | .threw _ => True

theorem Call.Known.keep {running : Call KeyPair} (known : running.Known crypto before)
    (keeps : Keeps before after) : running.Known crypto after := by
  obtain ⟨request, phase⟩ := running
  cases phase with
  | comparing stored => exact keeps stored known
  | answering stored => exact keeps stored known
  | putting updated => exact ⟨keeps updated known.1, known.2⟩
  | adding created => exact known
  | reading => trivial
  | generating => trivial
  | certifying keyPair => trivial
  | rereading => trivial

theorem Answer.Known.keep {answer : Answer KeyPair} (known : answer.Known crypto before)
    (keeps : Keeps before after) : answer.Known crypto after := by
  cases answer with
  | identity person => exact ⟨keeps _ known.1, known.2⟩
  | otherPersonKey => trivial
  | marked => trivial
  | threw message => trivial

structure Sound (crypto : Crypto KeyPair) (tabs : Tabs KeyPair) : Prop where
  calls : tabs.calls.All fun _ running => running.Known crypto tabs.store
  answers : ∀ entry ∈ tabs.answers, entry.2.Known crypto tabs.store

theorem sound_start (store : Option (StoredValue KeyPair)) : Sound crypto (start store) :=
  ⟨Table.all_empty, by simp [start]⟩

theorem Sound.park {phase : Phase KeyPair} (sound : Sound crypto tabs)
    (known : Call.Known crypto tabs.store ⟨request, phase⟩) :
    Sound crypto (tabs.park call request phase) :=
  ⟨sound.calls.put known, sound.answers⟩

theorem Sound.answer {result : Answer KeyPair} (sound : Sound crypto tabs)
    (known : result.Known crypto tabs.store) : Sound crypto (tabs.answer call result) := by
  refine ⟨sound.calls.remove, ?_⟩
  intro entry isEntry
  cases List.mem_append.mp isEntry with
  | inl earlier => exact sound.answers entry earlier
  | inr last =>
      cases List.mem_singleton.mp last
      exact known

theorem Sound.write (sound : Sound crypto tabs)
    (fits : tabs.store = none ∨ Holds tabs.store stored) : Sound crypto (tabs.write stored) :=
  have keeps := keeps_write fits
  ⟨sound.calls.weaken fun _ _ _ known => known.keep keeps,
    fun entry isEntry => (sound.answers entry isEntry).keep keeps⟩

/-! ## One step -/

theorem sound_found (sound : Sound crypto tabs) (read : tabs.store = some (.identity stored)) :
    Sound crypto (found tabs call request stored) := by
  cases request with
  | create device => exact sound.park (.self read)
  | restore device restored => exact sound.park (.self read)
  | mark publicKey fields mismatch => exact sound.park (.self read)

theorem sound_missed (sound : Sound crypto tabs) : Sound crypto (missed tabs call request) := by
  cases request with
  | create device => exact sound.park trivial
  | restore device restored => exact sound.park trivial
  | mark publicKey fields mismatch => exact sound.answer trivial

theorem sound_compared (sound : Sound crypto tabs) (held : Holds tabs.store stored) :
    Sound crypto (compared crypto tabs call request stored) := by
  cases request with
  | create device => exact sound
  | restore device restored =>
      simp only [compared]
      split
      · apply sound.park
        exact ⟨held.stamp _, fun publicKey isMark => by cases isMark⟩
      · exact sound.answer trivial
  | mark publicKey fields mismatch =>
      simp only [compared]
      split
      · rename_i same
        apply sound.park
        exact ⟨held.stamp _, fun other isMark => by
          cases isMark
          exact same⟩
      · exact sound.answer trivial

theorem sound_lost (sound : Sound crypto tabs) : Sound crypto (lost tabs call request) := by
  cases request with
  | create device => exact sound.park trivial
  | restore device restored => exact sound.answer trivial
  | mark publicKey fields mismatch => exact sound.answer trivial

theorem sound_wrote (sound : Sound crypto (tabs.write stored)) :
    Sound crypto (wrote (tabs.write stored) call request stored) := by
  cases request with
  | create device => exact sound.park (.self rfl)
  | restore device restored => exact sound.park (.self rfl)
  | mark publicKey fields mismatch => exact sound.answer trivial

/-- How a step leaves the store: as it was, or with a key written that fits what was there. -/
inductive Wrote (before after : Option (StoredValue KeyPair)) : Prop
  | nothing (same : after = before)
  | key (stored : StoredIdentity KeyPair) (fits : before = none ∨ Holds before stored)
      (written : after = some (.identity stored))

theorem Wrote.keeps (wrote : Wrote before after) : Keeps before after := by
  cases wrote with
  | nothing same => exact same ▸ Keeps.refl
  | key stored fits written => exact written ▸ keeps_write fits

theorem found_store : (found tabs call request stored).store = tabs.store := by
  cases request <;> rfl

theorem missed_store : (missed tabs call request).store = tabs.store := by
  cases request <;> rfl

theorem lost_store : (lost tabs call request).store = tabs.store := by
  cases request <;> rfl

theorem wrote_store : (wrote tabs call request stored).store = tabs.store := by
  cases request <;> rfl

theorem compared_store : (compared crypto tabs call request stored).store = tabs.store := by
  cases request with
  | create device => rfl
  | restore device restored =>
      simp only [compared]
      split <;> rfl
  | mark publicKey fields mismatch =>
      simp only [compared]
      split <;> rfl

theorem resume_sound {phase : Phase KeyPair} (sound : Sound crypto tabs)
    (running : tabs.calls call = some ⟨request, phase⟩)
    (taken : resume crypto tabs call request phase = some next) :
    Sound crypto next ∧ Wrote tabs.store next.store := by
  have known := sound.calls call _ running
  cases phase with
  | reading =>
      simp only [resume] at taken
      split at taken
      · cases taken
        exact ⟨sound_missed sound, .nothing missed_store⟩
      · cases taken
        exact ⟨sound.answer trivial, .nothing rfl⟩
      · rename_i read
        cases taken
        exact ⟨sound_found sound read, .nothing found_store⟩
  | comparing stored =>
      cases taken
      exact ⟨sound_compared sound known, .nothing compared_store⟩
  | generating => cases taken
  | certifying keyPair => cases taken
  | adding created =>
      simp only [resume] at taken
      split at taken
      · rename_i empty
        cases taken
        exact ⟨(sound.write (.inl empty)).park (.self rfl), .key created (.inl empty) rfl⟩
      · cases taken
        exact ⟨sound_lost sound, .nothing lost_store⟩
  | rereading =>
      simp only [resume] at taken
      split at taken
      · cases taken
        exact ⟨sound.answer trivial, .nothing rfl⟩
      · cases taken
        exact ⟨sound.answer trivial, .nothing rfl⟩
      · rename_i read
        cases taken
        exact ⟨sound.park (.self read), .nothing rfl⟩
  | putting updated =>
      cases taken
      exact ⟨sound_wrote (sound.write (.inr known.1)), .key updated (.inr known.1) wrote_store⟩
  | answering stored =>
      cases taken
      exact ⟨sound.answer ⟨known, rfl⟩, .nothing rfl⟩

theorem marks_of_newIdentity {keyPair : KeyPair} {now : Int} {created : StoredIdentity KeyPair}
    (made : newIdentity crypto request keyPair now = some created) : request.marks = none := by
  cases request with
  | create device => rfl
  | restore device restored => rfl
  | mark publicKey fields mismatch => cases made

theorem step_sound (sound : Sound crypto tabs) (taken : step crypto tabs action = some next) :
    Sound crypto next ∧ Wrote tabs.store next.store := by
  cases action with
  | begin call request =>
      simp only [step] at taken
      split at taken
      · cases taken
        exact ⟨sound.park trivial, .nothing rfl⟩
      · cases taken
  | resume call =>
      obtain ⟨running, isRunning, resumed⟩ := Option.bind_eq_some_iff.mp taken
      exact resume_sound sound isRunning resumed
  | generate call keyPair =>
      simp only [step] at taken
      split at taken
      · cases taken
        exact ⟨sound.park trivial, .nothing rfl⟩
      · cases taken
  | certify call now =>
      simp only [step] at taken
      split at taken
      · obtain ⟨created, made, rfl⟩ := Option.map_eq_some_iff.mp taken
        exact ⟨sound.park (marks_of_newIdentity made), .nothing rfl⟩
      · cases taken
  | reject call message =>
      obtain ⟨running, isRunning, rfl⟩ := Option.map_eq_some_iff.mp taken
      exact ⟨sound.answer trivial, .nothing rfl⟩

/-! ## Every run -/

theorem reaches_sound {tabs final : Tabs KeyPair}
    (reached : Reaches (step crypto) anyAction tabs final) (sound : Sound crypto tabs) :
    Sound crypto final ∧ Keeps tabs.store final.store := by
  apply reached.invariant (fun state => Sound crypto state ∧ Keeps tabs.store state.store)
  · exact ⟨sound, .refl⟩
  · intro state later action _ before _ taken
    obtain ⟨still, wrote⟩ := step_sound before.1 taken
    exact ⟨still, fun stored held => wrote.keeps stored (before.2 stored held)⟩

def Action.caller : Action KeyPair → CallId
  | .begin call _ | .resume call | .generate call _ | .certify call _ | .reject call _ => call

/-- A mark call writes only to a store that holds the key it names. -/
theorem step_of_mark {publicKey : JsString} {running : Call KeyPair} (sound : Sound crypto tabs)
    (isRunning : tabs.calls action.caller = some running)
    (marks : running.request.marks = some publicKey)
    (taken : step crypto tabs action = some next) :
    next.store = tabs.store ∨
      ∃ stored, Holds tabs.store stored ∧ crypto.exportPublicKey stored.keyPair = publicKey := by
  cases action with
  | begin call request =>
      simp only [step] at taken
      split at taken <;> cases taken
      exact .inl rfl
  | generate call keyPair =>
      simp only [step] at taken
      split at taken <;> cases taken
      exact .inl rfl
  | certify call now =>
      simp only [step] at taken
      split at taken
      · obtain ⟨created, made, rfl⟩ := Option.map_eq_some_iff.mp taken
        exact .inl rfl
      · cases taken
  | reject call message =>
      obtain ⟨other, isOther, rfl⟩ := Option.map_eq_some_iff.mp taken
      exact .inl rfl
  | resume call =>
      obtain ⟨other, isOther, resumed⟩ := Option.bind_eq_some_iff.mp taken
      cases isOther.symm.trans isRunning
      obtain ⟨request, phase⟩ := running
      have known := sound.calls call _ isRunning
      cases phase with
      | adding created => cases known.symm.trans marks
      | putting updated => exact .inr ⟨updated, known.1, known.2 publicKey marks⟩
      | generating => cases resumed
      | certifying keyPair => cases resumed
      | comparing stored =>
          cases resumed
          exact .inl compared_store
      | answering stored =>
          cases resumed
          exact .inl rfl
      | reading =>
          simp only [resume] at resumed
          split at resumed <;> cases resumed
          · exact .inl missed_store
          · exact .inl rfl
          · exact .inl found_store
      | rereading =>
          simp only [resume] at resumed
          split at resumed <;> cases resumed <;> exact .inl rfl

/-- What holds of the person key in a state and in every state after it. -/
structure KeyIsStable (crypto : Crypto KeyPair) (tabs : Tabs KeyPair) : Prop where
  kept : ∀ stored final, tabs.store = some (.identity stored) →
    Reaches (step crypto) anyAction tabs final →
    ∃ later, final.store = some (.identity later) ∧ later.keyPair = stored.keyPair ∧
      later.certificate = stored.certificate
  answered : ∀ call person, (call, Answer.identity person) ∈ tabs.answers →
    ∃ stored, tabs.store = some (.identity stored) ∧ person.keyPair = stored.keyPair ∧
      person.certificate = stored.certificate ∧
      person.publicKey = crypto.exportPublicKey stored.keyPair ∧
      person.certificateAddress = crypto.statementAddress stored.certificate
  otherMark : ∀ action running publicKey next,
    tabs.calls action.caller = some running → running.request.marks = some publicKey →
    (∀ stored, tabs.store = some (.identity stored) →
      crypto.exportPublicKey stored.keyPair ≠ publicKey) →
    step crypto tabs action = some next → next.store = tabs.store

theorem person_key_is_stable (crypto : Crypto KeyPair) (store : Option (StoredValue KeyPair))
    (reached : Reaches (step crypto) anyAction (start store) tabs) : KeyIsStable crypto tabs := by
  have sound := (reaches_sound reached (sound_start store)).1
  refine ⟨?_, ?_, ?_⟩
  · intro stored final read later
    exact (reaches_sound later sound).2 stored (.self read)
  · intro call person isAnswer
    obtain ⟨⟨stored, read, same_pair, same_certificate⟩, made⟩ := sound.answers _ isAnswer
    refine ⟨stored, read, same_pair.symm, same_certificate.symm, ?_, ?_⟩
    · rw [made, same_pair]
      rfl
    · rw [made, same_certificate]
      rfl
  · intro action running publicKey next isRunning marks other taken
    cases step_of_mark sound isRunning marks taken with
    | inl same => exact same
    | inr known =>
        obtain ⟨stored, ⟨kept, read, same_pair, _⟩, is_key⟩ := known
        exact absurd (same_pair ▸ is_key) (other kept read)

/-! ## A create and a restore that race -/

/-- A key pair is a number, and its public key the text of one unit. -/
def numbered : Crypto Nat where
  exportPublicKey keyPair := [keyPair.toUInt16]
  sign keyPair _ := [keyPair.toUInt16]
  statementAddress certificate := certificate.signature
  toISOString time := [time.toNat.toUInt16]

/-- Both calls read an empty store, the restore stores its key, and a mark for the key that the
other call made comes last. -/
def race : List (Action Nat) :=
  [.begin 0 (.create ⟨7, []⟩), .begin 1 (.restore ⟨7, []⟩ ⟨2, .passkey, 5, none⟩),
    .resume 0, .resume 1, .generate 0 3, .certify 0 8, .certify 1 9, .resume 1, .resume 1,
    .resume 0, .resume 0, .resume 0, .begin 2 (markPersonKeyJoined numbered [3] 4),
    .resume 2, .resume 2]

def raced : Tabs Nat := (run (step numbered) (start none) race).getD (start none)

theorem race_keeps_the_restored_key :
    raced.answers.length = 3 ∧ KeyIsStable numbered raced := by
  have ran : run (step numbered) (start none) race = some raced := rfl
  exact ⟨by decide,
    person_key_is_stable numbered none (Reaches.of_run ran (meetsAlong_anyAction race _))⟩

end Tapes.Guest
