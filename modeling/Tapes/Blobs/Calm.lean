import Tapes.Blobs.MetaTypes
import Tapes.Blobs.Owners

namespace Tapes.Blobs

open Tapes.Js Tapes.Machine

/-! A store from which nothing is taken: no call of it releases, removes or unlinks, so what an
ingest has put in stays and each ingest under way is answered in its time. -/

def Calm (store : Store) : Prop :=
  Kept store ∧ store.calls.All fun _ phase => phase.ingest?.isSome = true

/-- There, or on its way: an ingest is under way. -/
def Store.Touched (store : Store) : Prop :=
  store.object = true ∨ ∃ call phase, store.calls call = some phase

/-- An ingest for the document that is under way, or answered and owed the bytes. -/
def Pending (store : Store) (call : CallId) (docUrl : JsString) : Prop :=
  (∃ phase ingest, store.calls call = some phase ∧ phase.ingest? = some ingest ∧
    ingest.docUrl = docUrl) ∨
  call ∈ store.results.map Prod.fst ∧ docUrl ∈ store.owed

/-- Nothing of the store is lost, and no ingest forgotten. -/
structure Grows (store next : Store) : Prop where
  object : store.object = true → next.object = true
  owed : ∀ docUrl ∈ store.owed, docUrl ∈ next.owed
  pending : ∀ call docUrl, Pending store call docUrl → Pending next call docUrl

variable {store next : Store} {call : CallId} {phase later : Call} {docUrl : JsString}
  {ingest : Ingest}

theorem Grows.refl : Grows store store := ⟨id, fun _ => id, fun _ _ => id⟩

theorem calm_opened (object : Bool) (metadata : Option BlobMeta) (refs : Option (List JsString)) :
    Calm (.opened object metadata refs) :=
  ⟨kept_opened object metadata refs, Table.all_empty⟩

theorem Call.drops_of_ingest (is : phase.ingest? = some ingest) (docUrl : JsString) :
    phase.drops docUrl = false := by
  cases phase <;> first | rfl | cases is

theorem Calm.undropped (calm : Calm store) (docUrl : JsString) :
    store.calls.All fun _ phase => phase.drops docUrl = false := by
  intro call phase found
  obtain ⟨ingest, is⟩ := Option.isSome_iff_exists.mp (calm.2 call phase found)
  exact Call.drops_of_ingest is docUrl

theorem Calm.undisturbed (calm : Calm store) (call : CallId) :
    Undisturbed store (.resume call) := by
  intro phase found
  cases phase with
  | releasing docUrl => cases calm.2 call _ found
  | statting | repairing | claiming => exact calm.undropped _
  | _ => trivial

/-- A step between two awaits of an ingest. -/
theorem grows_of_goes (found : store.calls call = some phase) (same : later.ingest? = phase.ingest?)
    (calls : next.calls = store.calls.put call later)
    (object : store.object = true → next.object = true) (owed : next.owed = store.owed)
    (results : next.results = store.results) : Grows store next := by
  refine ⟨object, fun _ member => owed ▸ member, ?_⟩
  intro other docUrl pending
  obtain ⟨held, ingest, there, is, named⟩ | ⟨answered, member⟩ := pending
  · left
    rw [calls]
    by_cases it : other = call
    · subst it
      rw [found, Option.some.injEq] at there
      subst there
      exact ⟨later, ingest, Table.put_self, same.trans is, named⟩
    · exact ⟨held, ingest, (Table.put_other it).trans there, is, named⟩
  · exact .inr ⟨results ▸ answered, owed ▸ member⟩

/-- The last step of an ingest. -/
theorem grows_of_succeeds {result : Result} (found : store.calls call = some phase)
    (is : phase.ingest? = some ingest) (calls : next.calls = store.calls.remove call)
    (object : store.object = true → next.object = true)
    (owed : next.owed = addTo store.owed ingest.docUrl)
    (results : next.results = store.results ++ [(call, result)]) : Grows store next := by
  have grown : ∀ docUrl ∈ store.owed, docUrl ∈ next.owed := by
    intro docUrl member
    rw [owed]
    exact mem_addTo.mpr (.inr member)
  refine ⟨object, grown, ?_⟩
  intro other docUrl pending
  obtain ⟨held, running, there, runs, named⟩ | ⟨answered, member⟩ := pending
  · by_cases it : other = call
    · subst it
      rw [found, Option.some.injEq] at there
      subst there
      rw [is, Option.some.injEq] at runs
      subst runs
      right
      rw [results, owed]
      exact ⟨by simp, mem_addTo.mpr (.inl named.symm)⟩
    · left
      rw [calls]
      exact ⟨held, running, (Table.remove_other it).trans there, runs, named⟩
  · right
    refine ⟨?_, grown docUrl member⟩
    rw [results, List.map_append]
    exact List.mem_append_left _ answered

theorem all_ingest_of_goes
    (calm : store.calls.All fun _ phase => phase.ingest?.isSome = true)
    (is : later.ingest? = some ingest) (calls : next.calls = store.calls.put call later) :
    next.calls.All fun _ phase => phase.ingest?.isSome = true := by
  rw [calls]
  exact calm.put (by rw [is]; rfl)

/-- Each step of an ingest goes on with it, or answers it. -/
theorem resume_ingest (is : phase.ingest? = some ingest)
    (taken : resume store call phase = some next) :
    (store.object = true → next.object = true) ∧
      ((∃ later, later.ingest? = some ingest ∧ next.calls = store.calls.put call later ∧
          next.owed = store.owed ∧ next.results = store.results) ∨
        ∃ result, next.calls = store.calls.remove call ∧
          next.owed = addTo store.owed ingest.docUrl ∧
          next.results = store.results ++ [(call, result)]) := by
  cases phase with
  | checking held =>
      cases is
      simp only [Blobs.resume] at taken
      split at taken
      · split at taken <;> cases taken
        · exact ⟨id, .inl ⟨.discarding ingest, rfl, rfl, rfl, rfl⟩⟩
        · exact ⟨id, .inl ⟨.joining ingest, rfl, rfl, rfl, rfl⟩⟩
        · exact ⟨id, .inl ⟨.joining ingest, rfl, rfl, rfl, rfl⟩⟩
      · cases taken
        exact ⟨id, .inl ⟨.preparing ingest, rfl, rfl, rfl, rfl⟩⟩
  | discarding held =>
      cases is
      cases taken
      exact ⟨id, .inl ⟨.joining ingest, rfl, rfl, rfl, rfl⟩⟩
  | joining held =>
      cases is
      simp only [Blobs.resume] at taken
      split at taken <;> cases taken
      exact ⟨id, .inl ⟨.readingMeta ingest, rfl, rfl, rfl, rfl⟩⟩
  | readingMeta held =>
      cases is
      simp only [Blobs.resume] at taken
      split at taken <;> cases taken
      · exact ⟨id, .inl ⟨.statting ingest _, rfl, rfl, rfl, rfl⟩⟩
      · exact ⟨id, .inl ⟨.repairing ingest, rfl, rfl, rfl, rfl⟩⟩
  | statting held existing =>
      cases is
      simp only [Blobs.resume] at taken
      split at taken <;> cases taken
      · exact ⟨id, .inr ⟨_, rfl, rfl, rfl⟩⟩
      · exact ⟨id, .inl ⟨.repairing ingest, rfl, rfl, rfl, rfl⟩⟩
  | repairing held =>
      cases is
      cases taken
      exact ⟨id, .inr ⟨_, rfl, rfl, rfl⟩⟩
  | preparing held =>
      cases is
      cases taken
      exact ⟨id, .inl ⟨.placing ingest, rfl, rfl, rfl, rfl⟩⟩
  | placing held =>
      cases is
      cases taken
      exact ⟨fun _ => rfl, .inl ⟨.describing ingest _, rfl, rfl, rfl, rfl⟩⟩
  | describing held deduped =>
      cases is
      cases taken
      exact ⟨id, .inl ⟨.claiming ingest deduped, rfl, rfl, rfl, rfl⟩⟩
  | claiming held deduped =>
      cases is
      simp only [Blobs.resume] at taken
      split at taken <;> cases taken
      exact ⟨id, .inr ⟨_, rfl, rfl, rfl⟩⟩
  | addingRef | releasing | removing | unlinking => cases is

theorem Calm.resume (calm : Calm store) (taken : step store (.resume call) = some next) :
    Calm next ∧ Grows store next ∧ (next.Touched → store.Touched) := by
  have kept : Kept next := calm.1.step (calm.undisturbed call) taken
  obtain ⟨phase, found, taken⟩ := Option.bind_eq_some_iff.mp taken
  obtain ⟨ingest, is⟩ := Option.isSome_iff_exists.mp (calm.2 call phase found)
  obtain ⟨object, goes | succeeds⟩ := resume_ingest is taken
  · obtain ⟨later, same, calls, owed, results⟩ := goes
    exact ⟨⟨kept, all_ingest_of_goes calm.2 same calls⟩,
      grows_of_goes found (same.trans is.symm) calls object owed results,
      fun _ => .inr ⟨call, phase, found⟩⟩
  · obtain ⟨result, calls, owed, results⟩ := succeeds
    refine ⟨⟨kept, ?_⟩, grows_of_succeeds found is calls object owed results,
      fun _ => .inr ⟨call, phase, found⟩⟩
    rw [calls]
    exact calm.2.remove

theorem Calm.begin (calm : Calm store) (taken : step store (.ingest call ingest) = some next) :
    Calm next ∧ Grows store next ∧ Pending next call ingest.docUrl := by
  have kept : Kept next := @Kept.step store next (.ingest call ingest) calm.1 trivial taken
  have begun : next = store.park call (.checking ingest) :=
    eq_of_start (fun store => store.park call (.checking ingest)) taken
  have idle : store.calls call = none := by
    simp only [step, start] at taken
    split at taken
    · rename_i free
      exact Option.isNone_iff_eq_none.mp free
    · cases taken
  subst begun
  refine ⟨⟨kept, @all_ingest_of_goes _ _ call (.checking ingest) ingest calm.2 rfl rfl⟩, ⟨id, fun _ => id, ?_⟩,
    .inl ⟨.checking ingest, ingest, Table.put_self, rfl, rfl⟩⟩
  intro other docUrl pending
  obtain ⟨held, running, there, runs, named⟩ | answered := pending
  · have different : other ≠ call := by
      rintro rfl
      rw [idle] at there
      cases there
    exact .inl ⟨held, running, (Table.put_other different).trans there, runs, named⟩
  · exact .inr answered

/-! ## Two documents at once -/

def takesNothing : Action → Bool
  | .ingest _ _ | .resume _ => true
  | _ => false

theorem calm_run {actions : List Action} {object : Bool} {metadata : Option BlobMeta}
    {refs : Option (List JsString)}
    (ran : run (guarded (fun _ action => takesNothing action) step) (.opened object metadata refs)
      actions = some store) :
    Reaches step Undisturbed (.opened object metadata refs) store := by
  refine .of_checked_run ran fun store action reached _ taking => ?_
  have calm : Calm store := by
    refine reached.invariant Calm (calm_opened object metadata refs) ?_
    intro _ _ action _ calm taking taken
    cases action with
    | ingest => exact (calm.begin taken).1
    | resume => exact (calm.resume taken).1
    | addRef | releaseRef | remove | removePiece | fail => cases taking
  cases action with
  | ingest => trivial
  | resume call => exact calm.undisturbed call
  | addRef | releaseRef | remove | removePiece | fail => cases taking

/-- An upload and a move of the same bytes, each for a document of its own. -/
def storedTwice : List Action :=
  [.ingest 0 ⟨.stream, js "first", described⟩, .ingest 1 ⟨.file, js "second", described⟩,
    .resume 0, .resume 1, .resume 0, .resume 1, .resume 0, .resume 1, .resume 0, .resume 1,
    .resume 0, .resume 1]

theorem storedTwice_owes_both :
    (run (guarded (fun _ action => takesNothing action) step) (.opened false none none)
      storedTwice).any (fun store => store.owed = [js "first", js "second"]) = true := by
  decide +kernel

/-- Both documents keep the bytes. -/
theorem both_owners_keep_bytes :
    ∃ store, Reaches step Undisturbed (.opened false none none) store ∧
      store.owed = [js "first", js "second"] ∧ store.object = true ∧
      store.metadata.isSome = true ∧ ∀ docUrl ∈ store.owed, docUrl ∈ readRefs store := by
  obtain ⟨store, ran, owed⟩ := (Option.any_eq_true _ _).mp storedTwice_owes_both
  have both : store.owed = [js "first", js "second"] := of_decide_eq_true owed
  have reached := calm_run ran
  have keeps := undisturbed_runs_keep_owners false none none store reached
  have first := keeps (js "first") (by simp [both])
  exact ⟨store, reached, both, first.1, first.2.1, fun docUrl owed => (keeps docUrl owed).2.2⟩

end Tapes.Blobs
