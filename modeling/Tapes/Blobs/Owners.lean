import Tapes.Blobs.BlobStore

namespace Tapes.Blobs

open Tapes.Js Tapes.Machine

/-! An acknowledged owner keeps its bytes, unless a file of the hash is removed under
an ingest that has found it or put it in place. -/

/-! ## What a call relies on -/

/-- The pieces an ingest has found or put in place. -/
def Call.relies : Call → Piece → Bool
  | .discarding _, .object | .joining _, .object | .describing _ _, .object => true
  | .claiming _ _, .object | .claiming _ _, .metadata => true
  | .readingMeta _, .object | .readingMeta _, .refs => true
  | .repairing _, .object | .repairing _, .refs => true
  | .statting _ _, _ => true
  | _, _ => false

/-- The document whose entry in the refs file an ingest has put in place. -/
def Call.entered : Call → Option JsString
  | .readingMeta ingest | .repairing ingest | .statting ingest _ => some ingest.docUrl
  | _ => none

/-- The calls that may take a document's bytes or its entry away. -/
def Call.drops (docUrl : JsString) : Call → Bool
  | .releasing released => released = docUrl
  | .removing => true
  | .unlinking owner _ _ => owner.all (· = docUrl)
  | _ => false

def Call.unlinks : Call → Bool
  | .unlinking _ _ _ => true
  | _ => false

/-- No removal takes a piece, and no release an entry, from an ingest that relies on
it; and no ingest returns while a call that may take its bytes is still queued or
running. -/
def Undisturbed (store : Store) : Action → Prop
  | .removePiece _ piece => store.calls.All fun _ phase => phase.relies piece = false
  | .resume call => ∀ phase, store.calls call = some phase →
      match phase with
      | .releasing docUrl => store.calls.All fun _ other => other.entered ≠ some docUrl
      | .statting ingest _ | .repairing ingest | .claiming ingest _ =>
          store.calls.All fun _ other => other.drops ingest.docUrl = false
      | _ => True
  | _ => True

/-- What a call relies on is there, and a release that unlinks has found no other owner. -/
structure Call.Holds (object : Bool) (metadata : Option BlobMeta) (refs : List JsString)
    (phase : Call) : Prop where
  object : phase.relies .object = true → object = true
  metadata : phase.relies .metadata = true → metadata.isSome = true
  entered : ∀ docUrl, phase.entered = some docUrl → docUrl ∈ refs
  alone : ∀ docUrl existed left, phase = .unlinking (some docUrl) existed left →
    ∀ ref ∈ refs, ref = docUrl

structure Kept (store : Store) : Prop where
  holds : store.calls.All fun _ phase => phase.Holds store.object store.metadata (readRefs store)
  locked : store.calls.All fun call phase => phase.unlinks = true → store.lock.head? = some call
  owed : ∀ docUrl ∈ store.owed,
    store.object = true ∧ store.metadata.isSome = true ∧ docUrl ∈ readRefs store
  undropped : ∀ docUrl ∈ store.owed, store.calls.All fun _ phase => phase.drops docUrl = false

variable {store next : Store} {call : CallId} {phase : Call} {docUrl : JsString}

/-! ## The bookkeeping of calls -/

theorem Kept.park (kept : Kept store)
    (holds : phase.Holds store.object store.metadata (readRefs store))
    (locked : phase.unlinks = true → store.lock.head? = some call)
    (drops : ∀ docUrl ∈ store.owed, phase.drops docUrl = false) : Kept (store.park call phase) :=
  ⟨kept.holds.put holds, kept.locked.put locked, kept.owed,
    fun docUrl owed => (kept.undropped docUrl owed).put (drops docUrl owed)⟩

theorem Kept.return (kept : Kept store) (result : Result) : Kept (store.return call result) :=
  ⟨kept.holds.remove, kept.locked.remove, kept.owed,
    fun docUrl owed => (kept.undropped docUrl owed).remove⟩

theorem Kept.enqueue (kept : Kept store)
    (holds : phase.Holds store.object store.metadata (readRefs store))
    (waits : phase.unlinks = false)
    (drops : ∀ docUrl ∈ store.owed, phase.drops docUrl = false) :
    Kept (store.enqueue call phase) := by
  have parked : Kept (store.park call phase) :=
    kept.park holds (by simp [waits]) drops
  refine ⟨parked.holds, ?_, parked.owed, parked.undropped⟩
  intro other held found unlinks
  have head : store.lock.head? = some other := parked.locked other held found unlinks
  simp [Store.enqueue, List.head?_append, head]

/-- The holder leaves the lock. Nobody else was unlinking under it. -/
theorem Kept.unlock (kept : Kept store) (head : store.lock.head? = some call)
    (done : ∀ phase, store.calls call = some phase → phase.unlinks = false) :
    Kept store.unlock := by
  refine ⟨kept.holds, ?_, kept.owed, kept.undropped⟩
  intro other held found unlinks
  have same : store.lock.head? = some other := kept.locked other held found unlinks
  rw [head, Option.some.injEq] at same
  subst other
  rw [done held found] at unlinks
  cases unlinks

/-- An entry is added by the lock's holder, so under no unlink. -/
theorem Kept.addRef (kept : Kept store) (head : store.lock.head? = some call)
    (found : store.calls call = some phase) (waits : phase.unlinks = false) (docUrl : JsString) :
    Kept (store.addRef docUrl) := by
  have grown : ∀ ref ∈ readRefs store, ref ∈ readRefs (store.addRef docUrl) :=
    fun ref member => mem_addTo.mpr (.inr member)
  refine ⟨?_, kept.locked, ?_, kept.undropped⟩
  · intro other held otherFound
    have holds := kept.holds other held otherFound
    refine ⟨holds.object, holds.metadata, ?_, ?_⟩
    · exact fun entered same => grown entered (holds.entered entered same)
    · intro released existed left same
      have unlinks : held.unlinks = true := by rw [same]; rfl
      have otherHead := kept.locked other held otherFound unlinks
      rw [head, Option.some.injEq] at otherHead
      subst other
      have same : store.calls call = some held := otherFound
      rw [found, Option.some.injEq] at same
      rw [same, unlinks] at waits
      cases waits
  · intro owed member
    obtain ⟨object, metadata, entry⟩ := kept.owed owed member
    exact ⟨object, metadata, grown owed entry⟩

theorem mem_readRefs_addRef : docUrl ∈ readRefs (store.addRef docUrl) :=
  mem_addTo.mpr (.inl rfl)

theorem Kept.withObject (kept : Kept store) : Kept { store with object := true } := by
  refine ⟨?_, kept.locked, fun docUrl owed => ⟨rfl, (kept.owed docUrl owed).2⟩, kept.undropped⟩
  intro other held found
  have holds := kept.holds other held found
  exact ⟨fun _ => rfl, holds.metadata, holds.entered, holds.alone⟩

theorem Kept.withMetadata (kept : Kept store) (metadata : BlobMeta) :
    Kept { store with metadata := some metadata } := by
  refine ⟨?_, kept.locked, ?_, kept.undropped⟩
  · intro other held found
    have holds := kept.holds other held found
    exact ⟨holds.object, fun _ => rfl, holds.entered, holds.alone⟩
  · intro docUrl owed
    obtain ⟨object, -, entry⟩ := kept.owed docUrl owed
    exact ⟨object, rfl, entry⟩

theorem Kept.succeed {ingest : Ingest} {metadata : BlobMeta} {deduped : Bool}
    (kept : Kept store) (object : store.object = true) (described : store.metadata.isSome = true)
    (entry : ingest.docUrl ∈ readRefs store)
    (undropped : store.calls.All fun _ phase => phase.drops ingest.docUrl = false) :
    Kept (store.succeed call ingest metadata deduped) := by
  have returned : Kept (store.return call (.ingested ingest.docUrl metadata deduped)) :=
    kept.return _
  refine ⟨returned.holds, returned.locked, ?_, ?_⟩
  · intro docUrl owed
    rcases mem_addTo.mp owed with rfl | owed
    · exact ⟨object, described, entry⟩
    · exact kept.owed docUrl owed
  · intro docUrl owed
    rcases mem_addTo.mp owed with rfl | owed
    · exact undropped.remove
    · exact (kept.undropped docUrl owed).remove

/-! ## Resuming a call -/

theorem gone_of_return (store : Store) (result : Result) (phase : Call)
    (held : (store.return call result).calls call = some phase) : phase.unlinks = false := by
  simp [Store.return] at held

theorem holds_of_nothing {object : Bool} {metadata : Option BlobMeta} {refs : List JsString}
    (relies : ∀ piece, phase.relies piece = false) (entered : phase.entered = none)
    (waits : phase.unlinks = false) : phase.Holds object metadata refs := by
  refine ⟨?_, ?_, ?_, ?_⟩
  · simp [relies]
  · simp [relies]
  · simp [entered]
  · intro docUrl existed left same
    rw [same] at waits
    cases waits

theorem Kept.releaseRef (kept : Kept store) (head : store.lock.head? = some call)
    (found : store.calls call = some (.releasing docUrl))
    (undisturbed : store.calls.All fun _ other => other.entered ≠ some docUrl) :
    Kept (releaseRef store call docUrl) := by
  simp only [Blobs.releaseRef]
  split
  · exact (kept.return _).unlock head (gone_of_return store _)
  · split
    · rename_i kept' owned
      have others : Kept { store with refs := some ((readRefs store).filter (· ≠ docUrl)) } := by
        refine ⟨?_, kept.locked, ?_, kept.undropped⟩
        · intro other held otherFound
          have holds := kept.holds other held otherFound
          refine ⟨holds.object, holds.metadata, ?_, ?_⟩
          · intro entered same
            have different : entered ≠ docUrl := fun equal =>
              undisturbed other held otherFound (equal ▸ same)
            exact List.mem_filter.mpr ⟨holds.entered entered same, decide_eq_true different⟩
          · intro released existed left same ref member
            exact holds.alone released existed left same ref (List.mem_of_mem_filter member)
        · intro owed member
          obtain ⟨object, described, entry⟩ := kept.owed owed member
          have undropped := kept.undropped owed member call _ found
          have different : owed ≠ docUrl := fun equal => by simp [Call.drops, equal] at undropped
          exact ⟨object, described, List.mem_filter.mpr ⟨entry, decide_eq_true different⟩⟩
      exact (others.return (.released false ((readRefs store).filter (· ≠ docUrl)))).unlock
        head (gone_of_return _ _)
    · rename_i only
      refine kept.park ⟨?_, ?_, ?_, ?_⟩ (fun _ => head) ?_
      · exact fun relies => by cases relies
      · exact fun relies => by cases relies
      · exact fun entered same => by cases same
      · intro released existed left same ref member
        cases same
        by_contra different
        refine only (List.ne_nil_of_mem (List.mem_filter.mpr ⟨member, decide_eq_true different⟩))
      · intro owed member
        have undropped := kept.undropped owed member call _ found
        simpa [Call.drops] using undropped

theorem Kept.succeedLocked {ingest : Ingest} {metadata : BlobMeta} {deduped : Bool}
    (kept : Kept store) (head : store.lock.head? = some call)
    (object : store.object = true) (described : store.metadata.isSome = true)
    (found : store.calls call = some phase) (waits : phase.unlinks = false)
    (undropped : store.calls.All fun _ phase => phase.drops ingest.docUrl = false) :
    Kept ((store.addRef ingest.docUrl).succeed call ingest metadata deduped).unlock := by
  have added : Kept (store.addRef ingest.docUrl) := kept.addRef head found waits ingest.docUrl
  have succeeded : Kept ((store.addRef ingest.docUrl).succeed call ingest metadata deduped) :=
    added.succeed object described mem_readRefs_addRef undropped
  refine succeeded.unlock head ?_
  intro held same
  simp [Store.succeed, Store.return] at same

theorem Kept.resume (kept : Kept store) (found : store.calls call = some phase)
    (undisturbed : Undisturbed store (.resume call))
    (taken : resume store call phase = some next) : Kept next := by
  have holds := kept.holds call phase found
  have guard := undisturbed phase found
  cases phase with
  | checking ingest =>
      simp only [Blobs.resume] at taken
      split at taken
      · rename_i object
        have relying : ∀ phase : Call, phase.relies .metadata = false → phase.entered = none →
            phase.unlinks = false → phase.Holds store.object store.metadata (readRefs store) := by
          intro phase metadata entered waits
          refine ⟨fun _ => object, by simp [metadata], by simp [entered], ?_⟩
          intro docUrl existed left same
          rw [same] at waits
          cases waits
        split at taken <;> cases taken
        · exact kept.park (relying _ rfl rfl rfl) (fun unlinks => by cases unlinks) fun _ _ => rfl
        · exact kept.enqueue (relying _ rfl rfl rfl) rfl fun _ _ => rfl
        · exact kept.enqueue (relying _ rfl rfl rfl) rfl fun _ _ => rfl
      · cases taken
        exact kept.park (holds_of_nothing (fun piece => by cases piece <;> rfl) rfl rfl)
          (fun unlinks => by cases unlinks) fun _ _ => rfl
  | discarding ingest =>
      cases taken
      exact kept.enqueue ⟨holds.object, by simp [Call.relies], by simp [Call.entered], by simp⟩ rfl
        fun _ _ => rfl
  | joining ingest =>
      simp only [Blobs.resume] at taken
      split at taken
      · rename_i head
        cases taken
        have added := kept.addRef head found rfl ingest.docUrl
        have parked : Kept ((store.addRef ingest.docUrl).park call (.readingMeta ingest)) := by
          refine added.park ⟨holds.object, by simp [Call.relies], ?_, by simp⟩
            (fun unlinks => by cases unlinks) fun _ _ => rfl
          intro docUrl entered
          cases entered
          exact mem_readRefs_addRef
        refine parked.unlock head ?_
        intro held same
        simp only [Store.park, Table.put_self, Option.some.injEq] at same
        subst held
        rfl
      · cases taken
  | readingMeta ingest =>
      simp only [Blobs.resume] at taken
      split at taken <;> cases taken
      · rename_i existing described
        exact kept.park ⟨fun _ => holds.object rfl, by simp [described], holds.entered, by simp⟩
          (fun unlinks => by cases unlinks) fun _ _ => rfl
      · exact kept.park ⟨holds.object, by simp [Call.relies], holds.entered, by simp⟩
          (fun unlinks => by cases unlinks) fun _ _ => rfl
  | statting ingest existing =>
      simp only [Blobs.resume, holds.object rfl, if_true, Option.some.injEq] at taken
      subst next
      exact kept.succeed (holds.object rfl) (holds.metadata rfl) (holds.entered _ rfl) guard
  | repairing ingest =>
      cases taken
      exact (kept.withMetadata ingest.metadata).succeed (holds.object rfl) rfl
        (holds.entered _ rfl) guard
  | preparing ingest =>
      cases taken
      exact kept.park (holds_of_nothing (fun piece => by cases piece <;> rfl) rfl rfl)
        (fun unlinks => by cases unlinks) fun _ _ => rfl
  | placing ingest =>
      cases taken
      exact kept.withObject.park ⟨fun _ => rfl, by simp [Call.relies], by simp [Call.entered],
        by simp⟩ (fun unlinks => by cases unlinks) fun _ _ => rfl
  | describing ingest deduped =>
      cases taken
      exact (kept.withMetadata ingest.metadata).enqueue
        ⟨fun _ => holds.object rfl, fun _ => rfl, by simp [Call.entered], by simp⟩ rfl
        fun _ _ => rfl
  | claiming ingest deduped =>
      simp only [Blobs.resume] at taken
      split at taken
      · rename_i head
        cases taken
        exact kept.succeedLocked head (holds.object rfl) (holds.metadata rfl) found rfl guard
      · cases taken
  | addingRef docUrl =>
      simp only [Blobs.resume] at taken
      split at taken
      · rename_i head
        cases taken
        exact ((kept.addRef head found rfl docUrl).return _).unlock head (gone_of_return _ _)
      · cases taken
  | releasing docUrl =>
      simp only [Blobs.resume] at taken
      split at taken
      · rename_i head
        cases taken
        exact kept.releaseRef head found guard
      · cases taken
  | removing =>
      simp only [Blobs.resume] at taken
      split at taken
      · rename_i head
        cases taken
        refine kept.park ⟨by simp [Call.relies], by simp [Call.relies], by simp [Call.entered],
          by simp⟩ (fun _ => head) ?_
        intro docUrl owed
        cases kept.undropped docUrl owed call _ found
      · cases taken
  | unlinking owner existed left =>
      have head := kept.locked call _ found rfl
      simp only [Blobs.resume] at taken
      split at taken
      · cases taken
        exact (kept.return _).unlock head (gone_of_return _ _)
      · cases taken

/-! ## The removals -/

/-- Nobody is owed the bytes while they are unlinked. -/
theorem Kept.owed_nil {owner : Option JsString} {existed : Bool} {left : List Piece}
    (kept : Kept store) (found : store.calls call = some (.unlinking owner existed left)) :
    store.owed = [] := by
  rw [List.eq_nil_iff_forall_not_mem]
  intro docUrl owed
  have undropped := kept.undropped docUrl owed call _ found
  cases owner with
  | none => cases undropped
  | some owner =>
      have entry := (kept.owed docUrl owed).2.2
      have same : docUrl = owner :=
        (kept.holds call _ found).alone owner existed left rfl docUrl entry
      simp [Call.drops, same] at undropped

theorem Call.relies_refs (entered : phase.entered = some docUrl) : phase.relies .refs = true := by
  cases phase <;> first | rfl | cases entered

theorem Kept.drop {piece : Piece} (kept : Kept store) (nobody : store.owed = [])
    (undisturbed : store.calls.All fun _ phase => phase.relies piece = false) :
    Kept (store.drop piece) := by
  have none : ∀ docUrl, docUrl ∉ store.owed := by simp [nobody]
  have unread : ∀ other held, store.calls other = some held →
      held.relies piece = true → False := by
    intro other held found relies
    simp [undisturbed other held found] at relies
  cases piece with
  | object =>
      refine ⟨?_, kept.locked, fun docUrl owed => absurd owed (none docUrl), kept.undropped⟩
      intro other held found
      have holds := kept.holds other held found
      exact ⟨fun relies => (unread other held found relies).elim, holds.metadata, holds.entered,
        holds.alone⟩
  | metadata =>
      refine ⟨?_, kept.locked, fun docUrl owed => absurd owed (none docUrl), kept.undropped⟩
      intro other held found
      have holds := kept.holds other held found
      exact ⟨holds.object, fun relies => (unread other held found relies).elim, holds.entered,
        holds.alone⟩
  | refs =>
      refine ⟨?_, kept.locked, fun docUrl owed => absurd owed (none docUrl), kept.undropped⟩
      intro other held found
      have holds := kept.holds other held found
      refine ⟨holds.object, holds.metadata, ?_, ?_⟩
      · intro docUrl entered
        exact (unread other held found (Call.relies_refs entered)).elim
      · intro docUrl existed left same ref member
        simp [readRefs, Store.drop] at member

@[simp] theorem drop_calls (store : Store) (piece : Piece) : (store.drop piece).calls = store.calls := by
  cases piece <;> rfl

@[simp] theorem drop_lock (store : Store) (piece : Piece) : (store.drop piece).lock = store.lock := by
  cases piece <;> rfl

@[simp] theorem drop_owed (store : Store) (piece : Piece) : (store.drop piece).owed = store.owed := by
  cases piece <;> rfl

theorem Kept.removePiece {piece : Piece} (kept : Kept store)
    (found : store.calls call = some phase)
    (undisturbed : Undisturbed store (.removePiece call piece))
    (taken : removePiece store call piece phase = some next) : Kept next := by
  cases phase with
  | unlinking owner existed left =>
      have nobody : store.owed = [] := kept.owed_nil found
      have head := kept.locked call _ found rfl
      have dropped : Kept (store.drop piece) := kept.drop nobody undisturbed
      simp only [Blobs.removePiece] at taken
      split at taken
      · cases taken
        have still := dropped.holds call (.unlinking owner existed left) (by rw [drop_calls, found])
        refine dropped.park ⟨by simp [Call.relies], by simp [Call.relies], by simp [Call.entered], ?_⟩
          (fun _ => by rw [drop_lock, head]) ?_
        · intro docUrl existed' left' same
          cases same
          exact still.alone docUrl existed left rfl
        · simp [nobody]
      · cases taken
  | _ => cases taken

/-! ## Whole runs -/

theorem Kept.fail (kept : Kept store) (taken : failIngest store call phase = some next) :
    Kept next := by
  have removed : Kept { store with calls := store.calls.remove call } :=
    ⟨kept.holds.remove, kept.locked.remove, kept.owed,
      fun docUrl owed => (kept.undropped docUrl owed).remove⟩
  cases phase <;> cases taken <;> exact removed

theorem Kept.fewer (kept : Kept store) {owed : List JsString}
    (fewer : ∀ docUrl ∈ owed, docUrl ∈ store.owed) : Kept { store with owed := owed } :=
  ⟨kept.holds, kept.locked, fun docUrl member => kept.owed docUrl (fewer docUrl member),
    fun docUrl member => kept.undropped docUrl (fewer docUrl member)⟩

theorem eq_of_start (begin : Store → Store) (taken : start store call begin = some next) :
    next = begin store := by
  simp only [start] at taken
  split at taken <;> cases taken
  rfl

theorem Kept.step {action : Action} (kept : Kept store) (undisturbed : Undisturbed store action)
    (taken : step store action = some next) : Kept next := by
  have idle : ∀ phase : Call, (∀ piece, phase.relies piece = false) → phase.entered = none →
      phase.unlinks = false → phase.Holds store.object store.metadata (readRefs store) :=
    fun phase => holds_of_nothing
  cases action with
  | ingest call ingest =>
      simp only [Blobs.step] at taken
      rw [eq_of_start _ taken]
      exact kept.park (idle _ (fun piece => by cases piece <;> rfl) rfl rfl)
        (fun unlinks => by cases unlinks) fun _ _ => rfl
  | addRef call docUrl =>
      simp only [Blobs.step] at taken
      rw [eq_of_start _ taken]
      exact kept.enqueue (idle _ (fun piece => by cases piece <;> rfl) rfl rfl) rfl fun _ _ => rfl
  | releaseRef call docUrl =>
      simp only [Blobs.step] at taken
      rw [eq_of_start _ taken]
      have fewer : Kept { store with owed := store.owed.filter (· ≠ docUrl) } :=
        kept.fewer fun _ member => List.mem_of_mem_filter member
      refine fewer.enqueue (idle _ (fun piece => by cases piece <;> rfl) rfl rfl) rfl ?_
      intro owed member
      have different : owed ≠ docUrl := of_decide_eq_true (List.mem_filter.mp member).2
      simpa [Call.drops] using different.symm
  | remove call =>
      simp only [Blobs.step] at taken
      rw [eq_of_start _ taken]
      have nobody : Kept { store with owed := [] } := kept.fewer (by simp)
      exact nobody.enqueue (idle _ (fun piece => by cases piece <;> rfl) rfl rfl) rfl (by simp)
  | resume call =>
      obtain ⟨phase, found, taken⟩ := Option.bind_eq_some_iff.mp taken
      exact kept.resume found undisturbed taken
  | removePiece call piece =>
      obtain ⟨phase, found, taken⟩ := Option.bind_eq_some_iff.mp taken
      exact kept.removePiece found undisturbed taken
  | fail call =>
      obtain ⟨phase, -, taken⟩ := Option.bind_eq_some_iff.mp taken
      exact kept.fail taken

theorem kept_opened (object : Bool) (metadata : Option BlobMeta) (refs : Option (List JsString)) :
    Kept (Store.opened object metadata refs) :=
  ⟨Table.all_empty, Table.all_empty, by simp [Store.opened], by simp [Store.opened]⟩

/-- In every store reached, an owner that is owed the bytes has them, described and with
its entry. -/
def KeepsOwners (guard : Store → Action → Prop) (start : Store) : Prop :=
  ∀ store, Reaches step guard start store → ∀ docUrl ∈ store.owed,
    store.object = true ∧ store.metadata.isSome = true ∧ docUrl ∈ readRefs store

theorem undisturbed_runs_keep_owners (object : Bool) (metadata : Option BlobMeta)
    (refs : Option (List JsString)) :
    KeepsOwners Undisturbed (.opened object metadata refs) := by
  intro store reached docUrl owed
  have kept : Kept store := reached.invariant Kept (kept_opened object metadata refs)
    fun _ kept undisturbed taken => kept.step undisturbed taken
  exact kept.owed docUrl owed

/-! ## A release under an ingest that found the object -/

def described : BlobMeta := ⟨js "audio/wav", js ".wav"⟩

/-- The only owner's release waits for the lock when a second owner's ingest finds the
object and queues behind it. -/
def releasedUnder : List Action :=
  [.releaseRef 0 (js "first"), .ingest 1 ⟨.file, js "second", described⟩, .resume 1, .resume 0,
    .removePiece 0 .object, .removePiece 0 .metadata, .removePiece 0 .refs, .resume 0,
    .resume 1, .resume 1, .resume 1]

/-- The second ingest has succeeded, with meta and refs for an object that is gone. -/
theorem release_takes_object_from_second_owner :
    ¬ ∀ object metadata refs, KeepsOwners anyAction (.opened object metadata refs) := by
  intro keeps
  have ran : ∃ store, run step (.opened true (some described) (some [js "first"])) releasedUnder
      = some store ∧ js "second" ∈ store.owed ∧ store.object = false := by
    refine ⟨_, rfl, ?_, ?_⟩ <;> decide +kernel
  obtain ⟨store, ran, owed, gone⟩ := ran
  have reached := Reaches.of_run ran (meetsAlong_anyAction releasedUnder _)
  have object := (keeps true (some described) (some [js "first"]) store reached _ owed).1
  rw [gone] at object
  cases object

end Tapes.Blobs
