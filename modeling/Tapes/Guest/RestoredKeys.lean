import Tapes.Guest.StableKey

namespace Tapes.Guest

open Tapes.Js Tapes.Provenance Tapes.Machine

/-! Restores that overlap: what a refusal says of the stored key, and whose stamps the record ends
up with. -/

variable {KeyPair : Type} {crypto : Crypto KeyPair} {first store : Option (StoredValue KeyPair)}
  {tabs next : Tabs KeyPair} {call : CallId} {request : Request KeyPair} {action : Action KeyPair}

/-! ## Watching a run -/

/-- The stamps that the call's write sets. -/
def Request.stamps (crypto : Crypto KeyPair) : Request KeyPair → Stamps
  | .create _ => {}
  | .restore _ restored => restored.unlockedStamp crypto
  | .mark _ fields _ => fields

/-- The stamps that the step writes. -/
def writing (crypto : Crypto KeyPair) (tabs : Tabs KeyPair) :
    Action KeyPair → Option (CallId × Stamps)
  | .resume call =>
      match tabs.calls call with
      | some ⟨request, .adding _⟩ =>
          if tabs.store.isNone then some (call, request.stamps crypto) else none
      | some ⟨request, .putting _⟩ => some (call, request.stamps crypto)
      | _ => none
  | .begin _ _ | .generate _ _ | .certify _ _ | .reject _ _ => none

/-- The answer that the step gave. -/
def answeredNow (tabs next : Tabs KeyPair) : Option (Answer KeyPair) :=
  (next.answers[tabs.answers.length]?).map Prod.snd

/-- `written` are the stamps written so far, `restored` those of the restores that succeeded, and
`refused` the keys of the ones that did not, with what the store held at that moment. -/
structure Watched (KeyPair : Type) where
  tabs : Tabs KeyPair
  written : List (CallId × Stamps)
  restored : List (CallId × Stamps)
  refused : List (JsString × Option (StoredValue KeyPair))

def Watched.opened (store : Option (StoredValue KeyPair)) : Watched KeyPair :=
  ⟨start store, [], [], []⟩

def restoredNow (crypto : Crypto KeyPair) (tabs next : Tabs KeyPair) (call : CallId) :
    Option (CallId × Stamps) :=
  match tabs.calls call, answeredNow tabs next with
  | some ⟨.restore _ restored, _⟩, some (.identity _) => some (call, restored.unlockedStamp crypto)
  | _, _ => none

def refusedNow (crypto : Crypto KeyPair) (tabs next : Tabs KeyPair) (call : CallId) :
    Option (JsString × Option (StoredValue KeyPair)) :=
  match tabs.calls call, answeredNow tabs next with
  | some ⟨.restore _ restored, _⟩, some .otherPersonKey =>
      some (crypto.exportPublicKey restored.keyPair, next.store)
  | _, _ => none

/-- What is watched when the step leads to `next`. -/
def Watched.after (crypto : Crypto KeyPair) (watched : Watched KeyPair) (action : Action KeyPair)
    (next : Tabs KeyPair) : Watched KeyPair where
  tabs := next
  written := watched.written ++ (writing crypto watched.tabs action).toList
  restored := watched.restored ++ (restoredNow crypto watched.tabs next action.caller).toList
  refused := watched.refused ++ (refusedNow crypto watched.tabs next action.caller).toList

def watchedStep (crypto : Crypto KeyPair) (watched : Watched KeyPair) (action : Action KeyPair) :
    Option (Watched KeyPair) :=
  (step crypto watched.tabs action).map (watched.after crypto action)

/-! ## The property -/

/-- The record of `first`, or one made when there was none, before any of the stamps. -/
def IsBase (first : Option (StoredValue KeyPair)) (base : StoredIdentity KeyPair) : Prop :=
  first = some (.identity base) ∨
    first = none ∧ base.backedUpAt = none ∧ base.passkeyRecordedAt = none

def stamped (base : StoredIdentity KeyPair) (written : List (CallId × Stamps)) :
    StoredIdentity KeyPair :=
  written.foldl (fun stored write => stored.stamp write.2) base

/-- A restore is refused for another key only, and the one record has every stamp written so far,
those of the restores that succeeded among them, on the one certificate. -/
structure RestoresRecorded (crypto : Crypto KeyPair) (first : Option (StoredValue KeyPair))
    (watched : Watched KeyPair) : Prop where
  refused : ∀ personKey store, (personKey, store) ∈ watched.refused →
    ∃ stored, store = some (.identity stored) ∧ crypto.exportPublicKey stored.keyPair ≠ personKey
  recorded : watched.written ≠ [] → ∃ base, IsBase first base ∧
    watched.tabs.store = some (.identity (stamped base watched.written))
  restored : ∀ restore ∈ watched.restored, restore ∈ watched.written

/-- A restore adds its record where there is none or that of another key, and a put replaces the
record that the call has read, or one with the same stamps. -/
def Unraced (crypto : Crypto KeyPair) (watched : Watched KeyPair) : Action KeyPair → Prop
  | .resume call =>
      match watched.tabs.calls call, watched.tabs.store with
      | some ⟨.restore _ restored, .adding _⟩, some (.identity stored) =>
          crypto.exportPublicKey stored.keyPair ≠ crypto.exportPublicKey restored.keyPair
      | some ⟨request, .putting updated⟩, some (.identity kept) =>
          kept.stamp (request.stamps crypto) = updated
      | _, _ => True
  | .begin _ _ | .generate _ _ | .certify _ _ | .reject _ _ => True

instance [DecidableEq KeyPair] (crypto : Crypto KeyPair) (watched : Watched KeyPair)
    (action : Action KeyPair) : Decidable (Unraced crypto watched action) := by
  unfold Unraced
  split
  · split <;> infer_instance
  all_goals infer_instance

/-! ## What a run keeps -/

variable {watched later : Watched KeyPair} {stored : StoredIdentity KeyPair}
  {phase : Phase KeyPair} {result : Answer KeyPair} {written : List (CallId × Stamps)}

/-- What a call carries from one await to the next. -/
def Call.Traced (crypto : Crypto KeyPair) (store : Option (StoredValue KeyPair))
    (written : List (CallId × Stamps)) (call : CallId) (running : Call KeyPair) : Prop :=
  match running.phase with
  | .generating | .certifying _ => store ≠ some .other
  | .adding created => store ≠ some .other ∧ ∃ base : StoredIdentity KeyPair,
      base.backedUpAt = none ∧ base.passkeyRecordedAt = none ∧
        created = base.stamp (running.request.stamps crypto)
  | .answering _ => ∀ device restored, running.request = .restore device restored →
      (call, restored.unlockedStamp crypto) ∈ written
  | .rereading => ∀ device restored, running.request ≠ .restore device restored
  | .reading | .comparing _ | .putting _ => True

structure Followed (crypto : Crypto KeyPair) (first : Option (StoredValue KeyPair))
    (watched : Watched KeyPair) : Prop where
  sound : Sound crypto watched.tabs
  property : RestoresRecorded crypto first watched
  unwritten : watched.written = [] → watched.tabs.store = first
  calls : watched.tabs.calls.All (Call.Traced crypto watched.tabs.store watched.written)

theorem Call.Traced.keep {running : Call KeyPair} {later : Option (StoredValue KeyPair)}
    {more : List (CallId × Stamps)} (traced : running.Traced crypto store written call)
    (other : store ≠ some .other → later ≠ some .other) :
    running.Traced crypto later (written ++ more) call := by
  obtain ⟨request, phase⟩ := running
  cases phase with
  | generating => exact other traced
  | certifying keyPair => exact other traced
  | adding created => exact ⟨other traced.1, traced.2⟩
  | answering stored =>
      exact fun device restored same => List.mem_append_left _ (traced device restored same)
  | reading => trivial
  | comparing stored => trivial
  | rereading => exact traced
  | putting updated => trivial

@[simp] theorem answeredNow_park (tabs : Tabs KeyPair) (call : CallId) (request : Request KeyPair)
    (phase : Phase KeyPair) : answeredNow tabs (tabs.park call request phase) = none := by
  simp [answeredNow, Tabs.park]

@[simp] theorem answeredNow_answer (tabs : Tabs KeyPair) (call : CallId) (result : Answer KeyPair) :
    answeredNow tabs (tabs.answer call result) = some result := by
  simp [answeredNow, Tabs.answer]

@[simp] theorem answeredNow_write_park (tabs : Tabs KeyPair) (stored : StoredIdentity KeyPair)
    (call : CallId) (request : Request KeyPair) (phase : Phase KeyPair) :
    answeredNow tabs ((tabs.write stored).park call request phase) = none := by
  simp [answeredNow, Tabs.park, Tabs.write]

@[simp] theorem answeredNow_write_answer (tabs : Tabs KeyPair) (stored : StoredIdentity KeyPair)
    (call : CallId) (result : Answer KeyPair) :
    answeredNow tabs ((tabs.write stored).answer call result) = some result := by
  simp [answeredNow, Tabs.answer, Tabs.write]

theorem stamped_snoc (base : StoredIdentity KeyPair) (written : List (CallId × Stamps))
    (write : CallId × Stamps) :
    stamped base (written ++ [write]) = (stamped base written).stamp write.2 := by
  simp [stamped]

/-! ## One step -/

/-- A step that writes nothing and answers no restore. -/
theorem Followed.quiet (followed : Followed crypto first watched) (sound : Sound crypto next)
    (same : next.store = watched.tabs.store)
    (calls : next.calls.All (Call.Traced crypto watched.tabs.store watched.written)) :
    Followed crypto first { watched with tabs := next } where
  sound := sound
  property :=
    { refused := followed.property.refused
      recorded := fun stands => by
        rw [same]
        exact followed.property.recorded stands
      restored := followed.property.restored }
  unwritten none := same.trans (followed.unwritten none)
  calls := by
    rw [same]
    exact calls

/-- A call goes on to another phase, and neither writes nor answers. -/
theorem Followed.parked (followed : Followed crypto first watched)
    (sound : Sound crypto (watched.tabs.park call request phase))
    (traced : Call.Traced crypto watched.tabs.store watched.written call ⟨request, phase⟩) :
    Followed crypto first { watched with tabs := watched.tabs.park call request phase } :=
  followed.quiet sound rfl (followed.calls.put traced)

theorem Followed.answered (followed : Followed crypto first watched)
    (sound : Sound crypto (watched.tabs.answer call result)) :
    Followed crypto first { watched with tabs := watched.tabs.answer call result } :=
  followed.quiet sound rfl followed.calls.remove

/-- A restore succeeds, which wrote its stamps before. -/
theorem Followed.restore (followed : Followed crypto first watched) {restore : CallId × Stamps}
    (wrote : restore ∈ watched.written) :
    Followed crypto first { watched with restored := watched.restored ++ [restore] } where
  sound := followed.sound
  property :=
    { refused := followed.property.refused
      recorded := followed.property.recorded
      restored := fun other member => by
        rcases List.mem_append.mp member with old | new
        · exact followed.property.restored other old
        · rwa [List.mem_singleton.mp new] }
  unwritten := followed.unwritten
  calls := followed.calls

/-- A restore is refused while the store holds another key. -/
theorem Followed.refuse (followed : Followed crypto first watched) {personKey : JsString}
    (held : store = some (.identity stored))
    (other : crypto.exportPublicKey stored.keyPair ≠ personKey) :
    Followed crypto first { watched with refused := watched.refused ++ [(personKey, store)] } where
  sound := followed.sound
  property :=
    { refused := fun key time member => by
        rcases List.mem_append.mp member with old | new
        · exact followed.property.refused key time old
        · cases List.mem_singleton.mp new
          exact ⟨stored, held, other⟩
      recorded := followed.property.recorded
      restored := followed.property.restored }
  unwritten := followed.unwritten
  calls := followed.calls

/-- A call writes the record that its stamps make of the one there, or a new one. -/
theorem Followed.write (followed : Followed crypto first watched) {stamps : Stamps}
    (sound : Sound crypto next) (written : next.store = some (.identity stored))
    (record : (∃ kept, watched.tabs.store = some (.identity kept) ∧ stored = kept.stamp stamps) ∨
      watched.tabs.store = none ∧ ∃ base : StoredIdentity KeyPair, base.backedUpAt = none ∧
        base.passkeyRecordedAt = none ∧ stored = base.stamp stamps)
    (calls : next.calls.All
      (Call.Traced crypto next.store (watched.written ++ [(call, stamps)]))) :
    Followed crypto first
      { watched with tabs := next, written := watched.written ++ [(call, stamps)] } where
  sound := sound
  property :=
    { refused := followed.property.refused
      recorded := fun _ => by
        rcases record with ⟨kept, held, rfl⟩ | ⟨empty, base, backedUp, recorded, rfl⟩
        · by_cases none : watched.written = []
          · refine ⟨kept, .inl ((followed.unwritten none).symm.trans held), ?_⟩
            rw [written, none]
            rfl
          · obtain ⟨base, isBase, was⟩ := followed.property.recorded none
            rw [held] at was
            cases was
            refine ⟨base, isBase, ?_⟩
            rw [written, stamped_snoc]
        · have none : watched.written = [] := by
            by_contra stands
            obtain ⟨_, _, was⟩ := followed.property.recorded stands
            rw [empty] at was
            cases was
          refine ⟨base, .inr ⟨(followed.unwritten none).symm.trans empty, backedUp, recorded⟩, ?_⟩
          rw [written, none]
          rfl
      restored := fun restore member =>
        List.mem_append_left _ (followed.property.restored restore member) }
  unwritten none := by simp at none
  calls := calls

/-- The step answers no restore. -/
def Unanswered (crypto : Crypto KeyPair) (tabs next : Tabs KeyPair) (call : CallId) : Prop :=
  restoredNow crypto tabs next call = none ∧ refusedNow crypto tabs next call = none

theorem unanswered_of_none (no_answer : answeredNow tabs next = none) :
    Unanswered crypto tabs next call := by
  constructor
  · unfold restoredNow
    rw [no_answer]
    split <;> simp_all
  · unfold refusedNow
    rw [no_answer]
    split <;> simp_all

theorem unanswered_of_thrown {message : JsString}
    (answer : answeredNow tabs next = some (.threw message)) : Unanswered crypto tabs next call := by
  constructor
  · unfold restoredNow
    rw [answer]
    split <;> simp_all
  · unfold refusedNow
    rw [answer]
    split <;> simp_all

theorem unanswered_of_other (running : tabs.calls call = some ⟨request, phase⟩)
    (other : ∀ device restored, request ≠ .restore device restored) :
    Unanswered crypto tabs next call := by
  constructor
  · unfold restoredNow
    rw [running]
    split <;> simp_all
  · unfold refusedNow
    rw [running]
    split <;> simp_all

theorem Followed.of_unanswered (no_write : writing crypto watched.tabs action = none)
    (unanswered : Unanswered crypto watched.tabs next action.caller)
    (followed : Followed crypto first { watched with tabs := next }) :
    Followed crypto first (watched.after crypto action next) := by
  simpa [Watched.after, no_write, unanswered.1, unanswered.2] using followed

theorem Followed.of_none (no_write : writing crypto watched.tabs action = none)
    (no_answer : answeredNow watched.tabs next = none)
    (followed : Followed crypto first { watched with tabs := next }) :
    Followed crypto first (watched.after crypto action next) :=
  .of_unanswered no_write (unanswered_of_none no_answer) followed

theorem Followed.of_thrown {message : JsString}
    (no_write : writing crypto watched.tabs action = none)
    (answer : answeredNow watched.tabs next = some (.threw message))
    (followed : Followed crypto first { watched with tabs := next }) :
    Followed crypto first (watched.after crypto action next) :=
  .of_unanswered no_write (unanswered_of_thrown answer) followed

theorem Followed.of_written {write : CallId × Stamps}
    (wrote : writing crypto watched.tabs action = some write)
    (unanswered : Unanswered crypto watched.tabs next action.caller)
    (followed : Followed crypto first
      { watched with tabs := next, written := watched.written ++ [write] }) :
    Followed crypto first (watched.after crypto action next) := by
  simpa [Watched.after, wrote, unanswered.1, unanswered.2] using followed

/-- What is watched of a restore that is refused. -/
theorem Followed.of_refused {device : Device KeyPair} {restored : Restored KeyPair}
    (no_write : writing crypto watched.tabs action = none)
    (running : watched.tabs.calls action.caller = some ⟨.restore device restored, phase⟩)
    (answer : answeredNow watched.tabs next = some .otherPersonKey)
    (followed : Followed crypto first { watched with tabs := next })
    (held : next.store = some (.identity stored))
    (other : crypto.exportPublicKey stored.keyPair ≠ crypto.exportPublicKey restored.keyPair) :
    Followed crypto first (watched.after crypto action next) := by
  have no_restore : restoredNow crypto watched.tabs next action.caller = none := by
    simp only [restoredNow, running, answer]
  have refusal : refusedNow crypto watched.tabs next action.caller =
      some (crypto.exportPublicKey restored.keyPair, next.store) := by
    simp only [refusedNow, running, answer]
  have refused := followed.refuse held other
  simpa [Watched.after, no_write, no_restore, refusal] using refused

/-- What is watched of a restore that succeeds. -/
theorem Followed.of_restored {device : Device KeyPair} {restored : Restored KeyPair}
    {person : PersonIdentity KeyPair} (no_write : writing crypto watched.tabs action = none)
    (running : watched.tabs.calls action.caller = some ⟨.restore device restored, phase⟩)
    (answer : answeredNow watched.tabs next = some (.identity person))
    (followed : Followed crypto first { watched with tabs := next })
    (wrote : (action.caller, restored.unlockedStamp crypto) ∈ watched.written) :
    Followed crypto first (watched.after crypto action next) := by
  have restore : restoredNow crypto watched.tabs next action.caller =
      some (action.caller, restored.unlockedStamp crypto) := by
    simp only [restoredNow, running, answer]
  have no_refusal : refusedNow crypto watched.tabs next action.caller = none := by
    simp only [refusedNow, running, answer]
  have succeeded := followed.restore wrote
  simpa [Watched.after, no_write, restore, no_refusal] using succeeded

theorem base_of_newIdentity {keyPair : KeyPair} {now : Int} {created : StoredIdentity KeyPair}
    (made : newIdentity crypto request keyPair now = some created) :
    ∃ base : StoredIdentity KeyPair, base.backedUpAt = none ∧ base.passkeyRecordedAt = none ∧
      created = base.stamp (request.stamps crypto) := by
  cases request with
  | create device =>
      cases made
      exact ⟨⟨keyPair, createDeviceCertificate crypto device keyPair now, none, none, none⟩, rfl,
        rfl, rfl⟩
  | restore device restored =>
      cases made
      refine ⟨⟨keyPair, createDeviceCertificate crypto device keyPair now, none, none,
        restored.joinedAt.filter (· ≠ [])⟩, rfl, rfl, ?_⟩
      cases unlocked : restored.unlockedBy <;>
        simp [Request.stamps, Restored.unlockedStamp, unlocked, StoredIdentity.stamp]
  | mark publicKey fields mismatch => cases made

theorem Followed.reading (followed : Followed crypto first watched) (sound : Sound crypto next)
    (running : watched.tabs.calls call = some ⟨request, .reading⟩)
    (taken : resume crypto watched.tabs call request .reading = some next) :
    Followed crypto first (watched.after crypto (.resume call) next) := by
  have no_write : writing crypto watched.tabs (.resume call) = none := by
    simp only [writing, running]
  simp only [resume] at taken
  cases store : watched.tabs.store with
  | none =>
      rw [store] at taken
      cases taken
      have notOther : watched.tabs.store ≠ some .other := by simp [store]
      cases request with
      | create device => exact .of_none no_write (answeredNow_park ..) (followed.parked sound notOther)
      | restore device restored =>
          exact .of_none no_write (answeredNow_park ..) (followed.parked sound notOther)
      | mark publicKey fields mismatch =>
          exact .of_thrown no_write (answeredNow_answer ..) (followed.answered sound)
  | some value =>
      rw [store] at taken
      cases value with
      | other =>
          cases taken
          exact .of_thrown no_write (answeredNow_answer ..) (followed.answered sound)
      | identity stored =>
          cases taken
          cases request with
          | create device =>
              exact .of_none no_write (answeredNow_park ..)
                (followed.parked sound fun _ _ same => by cases same)
          | restore device restored =>
              exact .of_none no_write (answeredNow_park ..) (followed.parked sound trivial)
          | mark publicKey fields mismatch =>
              exact .of_none no_write (answeredNow_park ..) (followed.parked sound trivial)

theorem Followed.comparing (followed : Followed crypto first watched) (sound : Sound crypto next)
    (running : watched.tabs.calls call = some ⟨request, .comparing stored⟩)
    (taken : resume crypto watched.tabs call request (.comparing stored) = some next) :
    Followed crypto first (watched.after crypto (.resume call) next) := by
  have no_write : writing crypto watched.tabs (.resume call) = none := by
    simp only [writing, running]
  obtain ⟨kept, held, same, _⟩ := followed.sound.calls call _ running
  cases taken
  cases request with
  | create device => exact .of_none no_write (by simp [answeredNow, compared]) followed
  | restore device restored =>
      rw [compared] at sound ⊢
      by_cases equal : crypto.exportPublicKey stored.keyPair = crypto.exportPublicKey restored.keyPair
      · rw [if_pos equal] at sound ⊢
        exact .of_none no_write (answeredNow_park ..) (followed.parked sound trivial)
      · rw [if_neg equal] at sound ⊢
        exact .of_refused no_write running (answeredNow_answer ..) (followed.answered sound) held
          (same ▸ equal)
  | mark publicKey fields mismatch =>
      rw [compared] at sound ⊢
      by_cases equal : crypto.exportPublicKey stored.keyPair = publicKey
      · rw [if_pos equal] at sound ⊢
        exact .of_none no_write (answeredNow_park ..) (followed.parked sound trivial)
      · rw [if_neg equal] at sound ⊢
        exact .of_thrown no_write (answeredNow_answer ..) (followed.answered sound)

theorem Followed.added {created : StoredIdentity KeyPair} (followed : Followed crypto first watched)
    (sound : Sound crypto ((watched.tabs.write created).park call request (.answering created)))
    (running : watched.tabs.calls call = some ⟨request, .adding created⟩)
    (empty : watched.tabs.store = none) :
    Followed crypto first (watched.after crypto (.resume call)
      ((watched.tabs.write created).park call request (.answering created))) := by
  have wrote : writing crypto watched.tabs (.resume call) = some (call, request.stamps crypto) := by
    simp [writing, running, empty]
  have traced := followed.calls call _ running
  have own : Call.Traced crypto (some (.identity created))
      (watched.written ++ [(call, request.stamps crypto)]) call ⟨request, .answering created⟩ := by
    intro device restored same
    exact List.mem_append_right _ (by simp [show request = _ from same, Request.stamps])
  have kept : watched.tabs.calls.All (Call.Traced crypto (some (.identity created))
      (watched.written ++ [(call, request.stamps crypto)])) :=
    followed.calls.weaken fun _ _ _ traced => traced.keep (by simp)
  exact .of_written wrote (unanswered_of_none (answeredNow_write_park ..))
    (followed.write sound rfl (.inr ⟨empty, traced.2⟩) (kept.put own))

theorem Followed.adding {created : StoredIdentity KeyPair} (followed : Followed crypto first watched)
    (met : Unraced crypto watched (.resume call)) (sound : Sound crypto next)
    (running : watched.tabs.calls call = some ⟨request, .adding created⟩)
    (taken : resume crypto watched.tabs call request (.adding created) = some next) :
    Followed crypto first (watched.after crypto (.resume call) next) := by
  have traced := followed.calls call _ running
  simp only [resume] at taken
  cases store : watched.tabs.store with
  | none =>
      rw [store] at taken
      cases taken
      exact followed.added sound running store
  | some value =>
      rw [store] at taken
      cases taken
      have no_write : writing crypto watched.tabs (.resume call) = none := by
        simp [writing, running, store]
      cases request with
      | create device =>
          exact .of_none no_write (answeredNow_park ..)
            (followed.parked sound fun _ _ same => by cases same)
      | restore device restored =>
          cases value with
          | other => exact absurd store traced.1
          | identity stored =>
              have different : crypto.exportPublicKey stored.keyPair ≠
                  crypto.exportPublicKey restored.keyPair := by
                simpa only [Unraced, running, store] using met
              exact .of_refused no_write running (answeredNow_answer ..) (followed.answered sound)
                store different
      | mark publicKey fields mismatch =>
          exact .of_unanswered no_write (unanswered_of_other running fun _ _ same => by cases same)
            (followed.answered sound)

theorem Followed.putting {updated : StoredIdentity KeyPair} (followed : Followed crypto first watched)
    (met : Unraced crypto watched (.resume call)) (sound : Sound crypto next)
    (running : watched.tabs.calls call = some ⟨request, .putting updated⟩)
    (taken : resume crypto watched.tabs call request (.putting updated) = some next) :
    Followed crypto first (watched.after crypto (.resume call) next) := by
  obtain ⟨⟨kept, held, _⟩, _⟩ := followed.sound.calls call _ running
  have same : kept.stamp (request.stamps crypto) = updated := by
    simpa only [Unraced, running, held] using met
  have wrote : writing crypto watched.tabs (.resume call) = some (call, request.stamps crypto) := by
    simp only [writing, running]
  have others : watched.tabs.calls.All (Call.Traced crypto (some (.identity updated))
      (watched.written ++ [(call, request.stamps crypto)])) :=
    followed.calls.weaken fun _ _ _ traced => traced.keep (by simp)
  cases taken
  cases request with
  | create device =>
      exact .of_written wrote (unanswered_of_none (answeredNow_write_park ..))
        (followed.write sound rfl (.inl ⟨kept, held, same.symm⟩)
          (others.put fun _ _ other => nomatch other))
  | restore device restored =>
      have own : Call.Traced crypto (some (.identity updated))
          (watched.written ++ [(call, restored.unlockedStamp crypto)]) call
            ⟨.restore device restored, .answering updated⟩ := by
        rintro _ _ ⟨⟩
        exact List.mem_append_right _ (List.mem_singleton_self _)
      exact .of_written wrote (unanswered_of_none (answeredNow_write_park ..))
        (followed.write sound rfl (.inl ⟨kept, held, same.symm⟩) (others.put own))
  | mark publicKey fields mismatch =>
      exact .of_written wrote (unanswered_of_other running fun _ _ same => nomatch same)
        (followed.write sound rfl (.inl ⟨kept, held, same.symm⟩) others.remove)

theorem Followed.resumed (followed : Followed crypto first watched)
    (met : Unraced crypto watched (.resume call)) (sound : Sound crypto next)
    (running : watched.tabs.calls call = some ⟨request, phase⟩)
    (taken : resume crypto watched.tabs call request phase = some next) :
    Followed crypto first (watched.after crypto (.resume call) next) := by
  have traced := followed.calls call _ running
  have no_write (other : ∀ created, phase ≠ .adding created)
      (another : ∀ updated, phase ≠ .putting updated) :
      writing crypto watched.tabs (.resume call) = none := by
    simp only [writing, running]
    split <;> simp_all
  cases phase with
  | reading => exact followed.reading sound running taken
  | comparing stored => exact followed.comparing sound running taken
  | generating => cases taken
  | certifying keyPair => cases taken
  | adding created => exact followed.adding met sound running taken
  | rereading =>
      have none := no_write (fun _ same => by cases same) (fun _ same => by cases same)
      simp only [resume] at taken
      split at taken
      · cases taken
        exact .of_thrown none (answeredNow_answer ..) (followed.answered sound)
      · cases taken
        exact .of_thrown none (answeredNow_answer ..) (followed.answered sound)
      · cases taken
        exact .of_none none (answeredNow_park ..)
          (followed.parked sound fun device restored same => absurd same (traced device restored))
  | putting updated => exact followed.putting met sound running taken
  | answering stored =>
      have none := no_write (fun _ same => by cases same) (fun _ same => by cases same)
      cases taken
      cases request with
      | create device =>
          exact .of_unanswered none (unanswered_of_other running fun _ _ same => by cases same)
            (followed.answered sound)
      | restore device restored =>
          exact .of_restored none running (answeredNow_answer ..) (followed.answered sound)
            (traced device restored rfl)
      | mark publicKey fields mismatch =>
          exact .of_unanswered none (unanswered_of_other running fun _ _ same => by cases same)
            (followed.answered sound)

theorem Followed.step (followed : Followed crypto first watched)
    (met : Unraced crypto watched action)
    (taken : watchedStep crypto watched action = some later) : Followed crypto first later := by
  obtain ⟨next, stepped, rfl⟩ := Option.map_eq_some_iff.mp taken
  have sound := (step_sound followed.sound stepped).1
  cases action with
  | begin call request =>
      simp only [Guest.step] at stepped
      split at stepped <;> cases stepped
      exact .of_none rfl (answeredNow_park ..) (followed.parked sound trivial)
  | resume call =>
      obtain ⟨⟨request, phase⟩, running, resumed⟩ := Option.bind_eq_some_iff.mp stepped
      exact followed.resumed met sound running resumed
  | generate call keyPair =>
      simp only [Guest.step] at stepped
      split at stepped <;> cases stepped
      rename_i running
      have empty : watched.tabs.store ≠ some .other := followed.calls call _ running
      exact .of_none rfl (answeredNow_park ..) (followed.parked sound empty)
  | certify call now =>
      simp only [Guest.step] at stepped
      split at stepped
      · rename_i running
        have empty : watched.tabs.store ≠ some .other := followed.calls call _ running
        obtain ⟨created, made, rfl⟩ := Option.map_eq_some_iff.mp stepped
        exact .of_none rfl (answeredNow_park ..)
          (followed.parked sound ⟨empty, base_of_newIdentity made⟩)
      · cases stepped
  | reject call message =>
      obtain ⟨running, isRunning, rfl⟩ := Option.map_eq_some_iff.mp stepped
      exact .of_thrown rfl (answeredNow_answer ..) (followed.answered sound)

/-! ## Every run -/

theorem followed_opened (first : Option (StoredValue KeyPair)) :
    Followed crypto first (.opened first) where
  sound := sound_start first
  property :=
    { refused := fun _ _ member => nomatch member
      recorded := fun stands => absurd rfl stands
      restored := fun _ member => nomatch member }
  unwritten _ := rfl
  calls := Table.all_empty

theorem unraced_restores_are_recorded (crypto : Crypto KeyPair)
    (first : Option (StoredValue KeyPair)) (watched : Watched KeyPair)
    (reached : Reaches (watchedStep crypto) (Unraced crypto) (.opened first) watched) :
    RestoresRecorded crypto first watched := by
  have followed := reached.invariant (Followed crypto first) (followed_opened first)
    fun _ followed met taken => followed.step met taken
  exact followed.property

/-! Samples: two tabs restore one person key, each by its own way in. -/

def byPasskey : Request Nat := .restore ⟨7, []⟩ ⟨2, .passkey, 5, none⟩

def byPassphrase : Request Nat := .restore ⟨7, []⟩ ⟨2, .passphrase, 6, none⟩

/-- The second tab reads the record that the first has stored. -/
def inTurn : List (Action Nat) :=
  [.begin 0 byPasskey, .resume 0, .certify 0 8, .resume 0, .begin 1 byPassphrase, .resume 1,
    .resume 1, .resume 0, .resume 1, .resume 1]

theorem restores_in_turn_are_recorded : ∃ watched : Watched Nat,
    Reaches (watchedStep numbered) (Unraced numbered) (.opened none) watched ∧
      watched.restored.length = 2 ∧ RestoresRecorded numbered none watched := by
  have ran : ∃ watched, run (guarded (Unraced numbered) (watchedStep numbered)) (.opened none) inTurn =
      some watched ∧ watched.restored.length = 2 := ⟨_, rfl, rfl⟩
  obtain ⟨watched, ran, both⟩ := ran
  have reached := Reaches.of_guarded_run ran
  exact ⟨watched, reached, both, unraced_restores_are_recorded numbered none watched reached⟩

/-- Both tabs read an empty store, and the second to add its record is refused. -/
def atOnce : List (Action Nat) :=
  [.begin 0 byPasskey, .begin 1 byPassphrase, .resume 0, .resume 1, .certify 0 8, .certify 1 9,
    .resume 0, .resume 1]

theorem restore_of_the_stored_key_is_refused : ∃ watched : Watched Nat,
    Reaches (watchedStep numbered) anyAction (.opened none) watched ∧
      ¬ RestoresRecorded numbered none watched := by
  have ran : ∃ watched, run (watchedStep numbered) (.opened none) atOnce = some watched ∧
      ∃ stored, watched.refused = [([2], some (.identity stored))] ∧ stored.keyPair = 2 :=
    ⟨_, rfl, _, rfl, rfl⟩
  obtain ⟨watched, ran, stored, refused, same⟩ := ran
  refine ⟨watched, Reaches.of_run ran (meetsAlong_anyAction _ _), ?_⟩
  intro recorded
  obtain ⟨held, is_held, other⟩ := recorded.refused [2] (some (.identity stored)) (by simp [refused])
  cases is_held
  apply other
  rw [same]
  rfl

end Tapes.Guest
