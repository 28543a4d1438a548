import Tapes.Blobs.Owners

namespace Tapes.Blobs

open Tapes.Js Tapes.Machine

/-! An acknowledged owner of bytes of a type keeps the type, unless the bytes were there under
another type or get it from another ingest. -/

/-! ## Acknowledged under a type -/

/-- The ingest that the call's next step may answer. -/
def Call.answering : Call → Option Ingest
  | .statting ingest _ | .repairing ingest | .claiming ingest _ => some ingest
  | _ => none

/-- The document of the ingest under the type that a step answers. -/
def answered (type : JsString) (store next : Store) : Action → List JsString
  | .resume call =>
      match (store.calls call).bind Call.answering with
      | some ingest =>
          if ingest.metadata.mimeType = type ∧ (next.calls call).isNone then [ingest.docUrl] else []
      | none => []
  | _ => []

/-- The documents with an answered ingest under the type, for as long as they are owed. -/
def accept (type : JsString) (accepted : List JsString) (store next : Store) (action : Action) :
    List JsString :=
  (accepted ++ answered type store next action).filter (· ∈ next.owed)

def HasType (type : JsString) (store : Store) : Prop :=
  store.metadata.map BlobMeta.mimeType = some type

/-- The ingests under the type that have read it in the meta file or written it there. -/
def Call.typed (type : JsString) : Call → Bool
  | .claiming ingest _ => ingest.metadata.mimeType = type
  | .statting ingest existing => ingest.metadata.mimeType = type && existing.mimeType = type
  | _ => false

/-- No ingest under the type finds the bytes described as another, and none under another
describes them while one under the type counts on the meta file, or is acknowledged. -/
def KeepsType (type : JsString) (store : Store) (accepted : List JsString) : Action → Prop
  | .resume call => ∀ phase, store.calls call = some phase →
      match phase with
      | .statting ingest existing =>
          ingest.metadata.mimeType = type → existing.mimeType = type
      | .describing ingest _ | .repairing ingest =>
          ingest.metadata.mimeType ≠ type →
            accepted = [] ∧ store.calls.All fun _ other => other.typed type = false
      | _ => True
  | _ => True

structure TypeKept (type : JsString) (store : Store) (accepted : List JsString) : Prop where
  kept : Kept store
  owed : ∀ docUrl ∈ accepted, docUrl ∈ store.owed
  accepted : accepted ≠ [] → HasType type store
  typed : store.calls.All fun _ phase => phase.typed type = true → HasType type store

variable {type : JsString} {store next : Store} {accepted : List JsString} {call : CallId}
  {phase : Call} {action : Action} {docUrl : JsString}

theorem mem_accept (member : docUrl ∈ accept type accepted store next action) :
    docUrl ∈ next.owed ∧ (docUrl ∈ accepted ∨ docUrl ∈ answered type store next action) := by
  obtain ⟨either, owed⟩ := List.mem_filter.mp member
  exact ⟨of_decide_eq_true owed, List.mem_append.mp either⟩

theorem accept_eq_self (silent : answered type store next action = [])
    (owed : ∀ docUrl ∈ accepted, docUrl ∈ next.owed) :
    accept type accepted store next action = accepted := by
  rw [accept, silent, List.append_nil, List.filter_eq_self]
  intro docUrl member
  exact decide_eq_true (owed docUrl member)

/-- Once the meta file has the type there is nothing else to show. -/
theorem TypeKept.of_hasType (kept : Kept next) (has : HasType type next) :
    TypeKept type next (accept type accepted store next action) :=
  ⟨kept, fun _ member => (mem_accept member).1, fun _ => has, fun _ _ _ _ => has⟩

/-- A step that leaves the meta file alone, answers nothing under the type and lets nothing
new count on the file. -/
theorem TypeKept.quiet (types : TypeKept type store accepted) (kept : Kept next)
    (same : next.metadata = store.metadata) (silent : answered type store next action = [])
    (counted : next.calls.All fun other held => held.typed type = true →
      store.calls other = some held) :
    TypeKept type next (accept type accepted store next action) := by
  have still : HasType type store → HasType type next := by
    intro has
    rw [HasType, same]
    exact has
  refine ⟨kept, fun _ member => (mem_accept member).1, ?_, ?_⟩
  · intro some
    obtain ⟨docUrl, member⟩ := List.exists_mem_of_ne_nil _ some
    obtain before | new := (mem_accept member).2
    · exact still (types.accepted (List.ne_nil_of_mem before))
    · rw [silent] at new
      cases new
  · intro other held found counts
    exact still (types.typed other held (counted other held found counts) counts)

/-- A step after which nobody counts on the type. -/
theorem TypeKept.of_nobody (kept : Kept next)
    (nobody : ∀ docUrl ∈ next.owed, docUrl ∉ accepted)
    (silent : answered type store next action = [])
    (uncounted : next.calls.All fun _ held => held.typed type = false) :
    TypeKept type next (accept type accepted store next action) := by
  refine ⟨kept, fun _ member => (mem_accept member).1, ?_, ?_⟩
  · intro some
    obtain ⟨docUrl, member⟩ := List.exists_mem_of_ne_nil _ some
    obtain ⟨owed, before | new⟩ := mem_accept member
    · exact absurd before (nobody docUrl owed)
    · rw [silent] at new
      cases new
  · intro other held found counts
    rw [uncounted other held found] at counts
    cases counts

/-! ## The calls after a step -/

theorem counted_put (untyped : phase.typed type = false) :
    (store.calls.put call phase).All fun other held => held.typed type = true →
      store.calls other = some held := by
  intro other held found counts
  by_cases same : other = call
  · subst same
    rw [Table.put_self, Option.some.injEq] at found
    rw [← found, untyped] at counts
    cases counts
  · rwa [Table.put_other same] at found

theorem counted_remove :
    (store.calls.remove call).All fun other held => held.typed type = true →
      store.calls other = some held := by
  intro other held found _
  by_cases same : other = call
  · subst same
    rw [Table.remove_self] at found
    cases found
  · rwa [Table.remove_other same] at found

theorem answered_of_unanswering (found : store.calls call = some phase)
    (none : phase.answering = none) : answered type store next (.resume call) = [] := by
  simp [answered, found, none]

theorem answered_of_other {ingest : Ingest} (found : store.calls call = some phase)
    (answering : phase.answering = some ingest) (other : ingest.metadata.mimeType ≠ type) :
    answered type store next (.resume call) = [] := by
  simp [answered, found, answering, other]

/-! ## Resuming a call -/

/-- A call that writes its meta file. -/
theorem TypeKept.describes {ingest : Ingest} (kept : Kept next)
    (written : next.metadata = some ingest.metadata)
    (silent : ingest.metadata.mimeType ≠ type → answered type store next action = [])
    (guard : ingest.metadata.mimeType ≠ type →
      accepted = [] ∧ next.calls.All fun _ other => other.typed type = false) :
    TypeKept type next (accept type accepted store next action) := by
  by_cases own : ingest.metadata.mimeType = type
  · apply TypeKept.of_hasType kept
    rw [HasType, written, Option.map_some, own]
  · obtain ⟨nobody, uncounted⟩ := guard own
    apply TypeKept.of_nobody kept _ (silent own) uncounted
    intro docUrl _ member
    rw [nobody] at member
    cases member

theorem TypeKept.releaseRef (types : TypeKept type store accepted)
    (found : store.calls call = some (.releasing docUrl))
    (kept : Kept (releaseRef store call docUrl)) :
    TypeKept type (releaseRef store call docUrl)
      (accept type accepted store (releaseRef store call docUrl) (.resume call)) := by
  have silent : answered type store (Blobs.releaseRef store call docUrl) (.resume call) = [] :=
    answered_of_unanswering found rfl
  unfold Blobs.releaseRef at kept silent ⊢
  dsimp only at kept silent ⊢
  split_ifs at kept silent ⊢
  · exact types.quiet kept rfl silent counted_remove
  · exact types.quiet kept rfl silent counted_remove
  · exact types.quiet kept rfl silent (counted_put rfl)

theorem TypeKept.resume (types : TypeKept type store accepted) (kept : Kept next)
    (found : store.calls call = some phase) (keeps : KeepsType type store accepted (.resume call))
    (taken : resume store call phase = some next) :
    TypeKept type next (accept type accepted store next (.resume call)) := by
  have guard := keeps phase found
  cases phase with
  | checking ingest =>
      have silent : answered type store next (.resume call) = [] :=
        answered_of_unanswering found rfl
      simp only [Blobs.resume] at taken
      split at taken
      · split at taken <;> cases taken
        · exact types.quiet kept rfl silent (counted_put rfl)
        · exact types.quiet kept rfl silent (counted_put rfl)
        · exact types.quiet kept rfl silent (counted_put rfl)
      · cases taken
        exact types.quiet kept rfl silent (counted_put rfl)
  | discarding ingest =>
      have silent : answered type store next (.resume call) = [] :=
        answered_of_unanswering found rfl
      cases taken
      exact types.quiet kept rfl silent (counted_put rfl)
  | joining ingest =>
      have silent : answered type store next (.resume call) = [] :=
        answered_of_unanswering found rfl
      simp only [Blobs.resume] at taken
      split at taken <;> cases taken
      exact types.quiet kept rfl silent (counted_put rfl)
  | readingMeta ingest =>
      have silent : answered type store next (.resume call) = [] :=
        answered_of_unanswering found rfl
      simp only [Blobs.resume] at taken
      split at taken
      · rename_i existing present
        cases taken
        by_cases same : existing.mimeType = type
        · apply TypeKept.of_hasType kept
          simp only [HasType, Store.park, present, Option.map_some, same]
        · exact types.quiet kept rfl silent (counted_put (by simp [Call.typed, same]))
      · cases taken
        exact types.quiet kept rfl silent (counted_put rfl)
  | statting ingest existing =>
      simp only [Blobs.resume] at taken
      by_cases own : ingest.metadata.mimeType = type
      · have counts : (Call.statting ingest existing).typed type = true := by
          simp [Call.typed, own, guard own]
        have has := types.typed call _ found counts
        apply TypeKept.of_hasType kept
        split at taken <;> cases taken <;> exact has
      · have silent : answered type store next (.resume call) = [] :=
          answered_of_other found rfl own
        split at taken <;> cases taken
        · exact types.quiet kept rfl silent counted_remove
        · exact types.quiet kept rfl silent (counted_put rfl)
  | repairing ingest =>
      cases taken
      apply TypeKept.describes kept rfl
      · exact answered_of_other found rfl
      · intro other
        exact ⟨(guard other).1, (guard other).2.remove⟩
  | preparing ingest =>
      have silent : answered type store next (.resume call) = [] :=
        answered_of_unanswering found rfl
      cases taken
      exact types.quiet kept rfl silent (counted_put rfl)
  | placing ingest =>
      have silent : answered type store next (.resume call) = [] :=
        answered_of_unanswering found rfl
      cases taken
      exact types.quiet kept rfl silent (counted_put rfl)
  | describing ingest deduped =>
      cases taken
      apply TypeKept.describes kept rfl
      · intro
        exact answered_of_unanswering found rfl
      · intro other
        exact ⟨(guard other).1, (guard other).2.put (by simp [Call.typed, other])⟩
  | claiming ingest deduped =>
      simp only [Blobs.resume] at taken
      split at taken <;> cases taken
      by_cases own : ingest.metadata.mimeType = type
      · have counts : (Call.claiming ingest deduped).typed type = true := by
          simp [Call.typed, own]
        exact TypeKept.of_hasType kept (types.typed call _ found counts)
      · exact types.quiet kept rfl (answered_of_other found rfl own) counted_remove
  | addingRef docUrl =>
      have silent : answered type store next (.resume call) = [] :=
        answered_of_unanswering found rfl
      simp only [Blobs.resume] at taken
      split at taken <;> cases taken
      exact types.quiet kept rfl silent counted_remove
  | releasing docUrl =>
      simp only [Blobs.resume] at taken
      split at taken <;> cases taken
      exact types.releaseRef found kept
  | removing =>
      have silent : answered type store next (.resume call) = [] :=
        answered_of_unanswering found rfl
      simp only [Blobs.resume] at taken
      split at taken <;> cases taken
      exact types.quiet kept rfl silent (counted_put rfl)
  | unlinking owner existed left =>
      have silent : answered type store next (.resume call) = [] :=
        answered_of_unanswering found rfl
      simp only [Blobs.resume] at taken
      split at taken <;> cases taken
      exact types.quiet kept rfl silent counted_remove

/-! ## Whole runs -/

theorem TypeKept.removePiece {piece : Piece} (types : TypeKept type store accepted)
    (kept : Kept next) (found : store.calls call = some phase)
    (undisturbed : Undisturbed store (.removePiece call piece))
    (taken : removePiece store call piece phase = some next) :
    TypeKept type next (accept type accepted store next (.removePiece call piece)) := by
  cases phase with
  | unlinking owner existed left =>
      have nobody : store.owed = [] := types.kept.owed_nil found
      have uncounted : store.calls.All fun _ held => held.typed type = true → piece ≠ .metadata := by
        intro other held here counts same
        subst same
        have unread := undisturbed other held here
        cases held <;> simp [Call.typed, Call.relies] at counts unread
      simp only [Blobs.removePiece] at taken
      split at taken <;> cases taken
      cases piece with
      | object => exact types.quiet kept rfl rfl (counted_put rfl)
      | refs => exact types.quiet kept rfl rfl (counted_put rfl)
      | metadata =>
          apply TypeKept.of_nobody kept _ rfl
          · apply Table.All.put
            · intro other held here
              by_contra counts
              exact uncounted other held here (by simpa using counts) rfl
            · rfl
          · intro docUrl owed
            change docUrl ∈ store.owed at owed
            rw [nobody] at owed
            cases owed
  | _ => cases taken

theorem TypeKept.step (types : TypeKept type store accepted)
    (undisturbed : Undisturbed store action) (keeps : KeepsType type store accepted action)
    (taken : step store action = some next) :
    TypeKept type next (accept type accepted store next action) := by
  have kept := types.kept.step undisturbed taken
  cases action with
  | ingest call ingest =>
      simp only [Blobs.step] at taken
      cases eq_of_start _ taken
      exact types.quiet kept rfl rfl (counted_put rfl)
  | addRef call docUrl =>
      simp only [Blobs.step] at taken
      cases eq_of_start _ taken
      exact types.quiet kept rfl rfl (counted_put rfl)
  | releaseRef call docUrl =>
      simp only [Blobs.step] at taken
      cases eq_of_start _ taken
      exact types.quiet kept rfl rfl (counted_put rfl)
  | remove call =>
      simp only [Blobs.step] at taken
      cases eq_of_start _ taken
      exact types.quiet kept rfl rfl (counted_put rfl)
  | resume call =>
      obtain ⟨phase, found, taken⟩ := Option.bind_eq_some_iff.mp taken
      exact types.resume kept found keeps taken
  | removePiece call piece =>
      obtain ⟨phase, found, taken⟩ := Option.bind_eq_some_iff.mp taken
      exact types.removePiece kept found undisturbed taken
  | fail call =>
      obtain ⟨phase, found, taken⟩ := Option.bind_eq_some_iff.mp taken
      cases phase <;> cases taken <;> exact types.quiet kept rfl rfl counted_remove

/-- An ingest that begins. -/
theorem TypeKept.begin {ingest : Ingest} (types : TypeKept type store accepted)
    (taken : Blobs.step store (.ingest call ingest) = some next) : TypeKept type next accepted := by
  have undisturbed : Undisturbed store (.ingest call ingest) := trivial
  have after := types.step undisturbed trivial taken
  simp only [Blobs.step] at taken
  cases eq_of_start _ taken
  have same : accept type accepted store (store.park call (.checking ingest))
      (.ingest call ingest) = accepted := accept_eq_self rfl types.owed
  rwa [same] at after

theorem typeKept_opened (object : Bool) (metadata : Option BlobMeta)
    (refs : Option (List JsString)) : TypeKept type (Store.opened object metadata refs) [] :=
  ⟨kept_opened object metadata refs, nofun, fun some => absurd rfl some, Table.all_empty⟩

/-- An acknowledged owner finds the bytes in place under its type. -/
theorem TypeKept.found (types : TypeKept type store accepted) (member : docUrl ∈ accepted) :
    store.object = true ∧ HasType type store :=
  ⟨(types.kept.owed docUrl (types.owed docUrl member)).1,
    types.accepted (List.ne_nil_of_mem member)⟩

end Tapes.Blobs
