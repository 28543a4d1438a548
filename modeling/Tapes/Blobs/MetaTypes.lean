import Tapes.Blobs.BlobStore

namespace Tapes.Blobs

open Tapes.Js Tapes.Machine

/-! A meta file has the type of one of the ingests. -/

/-- The ingest that a call goes on with. -/
def Call.ingest? : Call → Option Ingest
  | .checking ingest | .discarding ingest | .joining ingest | .readingMeta ingest
  | .statting ingest _ | .repairing ingest | .preparing ingest | .placing ingest
  | .describing ingest _ | .claiming ingest _ => some ingest
  | .addingRef _ | .releasing _ | .removing | .unlinking _ _ _ => none

variable {store next : Store} {call : CallId} {phase : Call}

/-- A call leaves the meta file alone or writes its ingest's, and goes on with no other
ingest. -/
structure Resumed (store : Store) (call : CallId) (phase : Call) (next : Store) : Prop where
  metadata : next.metadata = store.metadata ∨
    ∃ ingest, phase.ingest? = some ingest ∧ next.metadata = some ingest.metadata
  calls : next.calls = store.calls.remove call ∨
    ∃ after : Call, next.calls = store.calls.put call after ∧
      ∀ ingest, after.ingest? = some ingest → phase.ingest? = some ingest

theorem Resumed.parked {after : Call}
    (same : ∀ ingest, after.ingest? = some ingest → phase.ingest? = some ingest) :
    Resumed store call phase (store.park call after) :=
  ⟨.inl rfl, .inr ⟨after, rfl, same⟩⟩

theorem resumed_releaseRef (docUrl : JsString) :
    Resumed store call (.releasing docUrl) (releaseRef store call docUrl) := by
  unfold releaseRef
  dsimp only
  split_ifs
  · exact ⟨.inl rfl, .inl rfl⟩
  · exact ⟨.inl rfl, .inl rfl⟩
  · exact .parked nofun

theorem resumed_of_resume (taken : resume store call phase = some next) :
    Resumed store call phase next := by
  cases phase with
  | checking ingest =>
      simp only [resume] at taken
      split at taken
      · split at taken <;> cases taken
        · exact .parked fun _ same => same
        · exact ⟨.inl rfl, .inr ⟨_, rfl, fun _ same => same⟩⟩
        · exact ⟨.inl rfl, .inr ⟨_, rfl, fun _ same => same⟩⟩
      · cases taken
        exact .parked fun _ same => same
  | discarding ingest =>
      cases taken
      exact ⟨.inl rfl, .inr ⟨_, rfl, fun _ same => same⟩⟩
  | joining ingest =>
      simp only [resume] at taken
      split at taken <;> cases taken
      exact ⟨.inl rfl, .inr ⟨_, rfl, fun _ same => same⟩⟩
  | readingMeta ingest =>
      simp only [resume] at taken
      split at taken <;> cases taken
      · exact .parked fun _ same => same
      · exact .parked fun _ same => same
  | statting ingest existing =>
      simp only [resume] at taken
      split at taken <;> cases taken
      · exact ⟨.inl rfl, .inl rfl⟩
      · exact .parked fun _ same => same
  | repairing ingest =>
      cases taken
      exact ⟨.inr ⟨ingest, rfl, rfl⟩, .inl rfl⟩
  | preparing ingest =>
      cases taken
      exact .parked fun _ same => same
  | placing ingest =>
      cases taken
      exact ⟨.inl rfl, .inr ⟨_, rfl, fun _ same => same⟩⟩
  | describing ingest deduped =>
      cases taken
      exact ⟨.inr ⟨ingest, rfl, rfl⟩, .inr ⟨_, rfl, fun _ same => same⟩⟩
  | claiming ingest deduped =>
      simp only [resume] at taken
      split at taken <;> cases taken
      exact ⟨.inl rfl, .inl rfl⟩
  | addingRef docUrl =>
      simp only [resume] at taken
      split at taken <;> cases taken
      exact ⟨.inl rfl, .inl rfl⟩
  | releasing docUrl =>
      simp only [resume] at taken
      split at taken <;> cases taken
      exact resumed_releaseRef docUrl
  | removing =>
      simp only [resume] at taken
      split at taken <;> cases taken
      exact .parked nofun
  | unlinking owner existed left =>
      simp only [resume] at taken
      split at taken <;> cases taken
      exact ⟨.inl rfl, .inl rfl⟩

/-- The type in the meta file and those of the ingests under way are all fine. -/
structure TypesFrom (fine : JsString → Prop) (store : Store) : Prop where
  metadata : ∀ metadata, store.metadata = some metadata → fine metadata.mimeType
  calls : store.calls.All fun _ phase =>
    ∀ ingest, phase.ingest? = some ingest → fine ingest.metadata.mimeType

variable {fine : JsString → Prop}

theorem TypesFrom.resume (types : TypesFrom fine store) (found : store.calls call = some phase)
    (taken : resume store call phase = some next) : TypesFrom fine next := by
  have resumed := resumed_of_resume taken
  have own := types.calls call phase found
  constructor
  · intro metadata present
    obtain same | ⟨ingest, goesOn, written⟩ := resumed.metadata
    · rw [same] at present
      exact types.metadata metadata present
    · rw [written, Option.some.injEq] at present
      rw [← present]
      exact own ingest goesOn
  · obtain returned | ⟨after, parked, goesOn⟩ := resumed.calls
    · rw [returned]
      exact types.calls.remove
    · rw [parked]
      exact types.calls.put fun ingest same => own ingest (goesOn ingest same)

theorem TypesFrom.put (types : TypesFrom fine store)
    (goesOn : ∀ ingest, phase.ingest? = some ingest → fine ingest.metadata.mimeType) :
    TypesFrom fine (store.park call phase) :=
  ⟨types.metadata, types.calls.put goesOn⟩

theorem TypesFrom.step {action : Action} (types : TypesFrom fine store)
    (new : ∀ call ingest, action = .ingest call ingest → fine ingest.metadata.mimeType)
    (taken : step store action = some next) : TypesFrom fine next := by
  cases action with
  | ingest call ingest =>
      simp only [Blobs.step, start] at taken
      split at taken <;> cases taken
      apply types.put
      intro other same
      cases same
      exact new call ingest rfl
  | addRef call docUrl =>
      simp only [Blobs.step, start] at taken
      split at taken <;> cases taken
      exact ⟨types.metadata, types.calls.put nofun⟩
  | releaseRef call docUrl =>
      simp only [Blobs.step, start] at taken
      split at taken <;> cases taken
      exact ⟨types.metadata, types.calls.put nofun⟩
  | remove call =>
      simp only [Blobs.step, start] at taken
      split at taken <;> cases taken
      exact ⟨types.metadata, types.calls.put nofun⟩
  | resume call =>
      obtain ⟨phase, found, taken⟩ := Option.bind_eq_some_iff.mp taken
      exact types.resume found taken
  | removePiece call piece =>
      obtain ⟨phase, found, taken⟩ := Option.bind_eq_some_iff.mp taken
      cases phase with
      | unlinking owner existed left =>
          simp only [removePiece] at taken
          split at taken <;> cases taken
          cases piece with
          | metadata => exact ⟨nofun, types.calls.put nofun⟩
          | object | refs => exact ⟨types.metadata, types.calls.put nofun⟩
      | _ => cases taken
  | fail call =>
      obtain ⟨phase, -, taken⟩ := Option.bind_eq_some_iff.mp taken
      have removed : TypesFrom fine { store with calls := store.calls.remove call } :=
        ⟨types.metadata, types.calls.remove⟩
      cases phase <;> cases taken <;> exact removed

end Tapes.Blobs
