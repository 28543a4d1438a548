import Tapes.Blobs.BlobGc
import Tapes.Blobs.BlobStore

namespace Tapes.Blobs

open Tapes.Js Tapes.Machine
open Tapes.Provenance (statementMimeType)

/-! One run of the sweep between the calls on the store, as the object of one hash meets it. -/

/-- The sweep's own call of `remove`. -/
def gcCall : CallId := 0

/-- Named for what the run awaits. `sweeping` awaits the objects before this one, and `passedOver`
those behind it. -/
inductive GcPhase where
  | before
  | listing
  | marking (listed : Option Int)
  | sweeping (ctimeMs : Int) (marked : Roots) (live : List JsString)
  | readingMeta (ownerUrls : List JsString)
  | statting (ownerUrls : List JsString) (metadata : BlobMeta)
  | readingRefs (ownerUrls : List JsString)
  | removing
  | passedOver
  | finished
deriving DecidableEq

/-- `ingestedAt` is when an ingest last succeeded, up to the end of the run, and `during` tells whether
one has since the run began. `swept` is an object that the run has unlinked, until another one is
put in its place. -/
structure SweptStore where
  hash : JsString
  store : Store
  clock : Int
  ctimeMs : Int
  phase : GcPhase
  now : Int
  graceMs : Int
  ingestedAt : Option Int
  during : Bool
  swept : Bool

/-- A rename gives its target a new ctime, and so does a link, if it finds none there. -/
def puts (store : Store) : Action → Bool
  | .resume call => match store.calls call with
      | some (.placing ingest) => !(store.object && ingest.source = .file)
      | _ => false
  | _ => false

/-- The step that an ingest succeeds with. -/
def completes (store : Store) : Action → Bool
  | .resume call => match store.calls call with
      | some (.repairing _) | some (.claiming _ _) => true
      | some (.statting _ _) => store.object
      | _ => false
  | _ => false

def unlinksSwept : Action → Bool
  | .removePiece call .object => call = gcCall
  | _ => false

def Action.begins : Action → Option CallId
  | .ingest call _ | .addRef call _ | .releaseRef call _ | .remove call => some call
  | _ => none

def SweptStore.apply (state : SweptStore) (action : Action) (store : Store) : SweptStore :=
  let counts := completes state.store action && state.phase ≠ .finished
  { state with
    store := store
    ctimeMs := if puts state.store action then state.clock else state.ctimeMs
    ingestedAt := if counts then some state.clock else state.ingestedAt
    during := state.during || (counts && state.phase ≠ .before)
    swept := !puts state.store action &&
      (state.swept || (unlinksSwept action && state.store.object)) }

inductive GcAction where
  | blob (action : Action)
  | tick (ms : Nat)
  | begin (graceMs : Int)
  | list
  /-- What the walk of the documents found, or why it was given up. -/
  | mark (outcome : Except JsString (Roots × List JsString))
  | weigh
  | look
  | removed
  | finish

/-- The object goes to `store.remove`. -/
def SweptStore.remove (state : SweptStore) : Option SweptStore :=
  (step state.store (.remove gcCall)).map fun store =>
    { state with store := store, phase := .removing }

def weigh (state : SweptStore) : Option SweptStore :=
  match state.phase with
  | .sweeping ctimeMs marked live =>
      if state.hash ∈ live ∨ state.now - ctimeMs < state.graceMs then
        some { state with phase := .passedOver }
      else some { state with phase := .readingMeta (marked.recordingUrls ++ marked.roots) }
  | _ => none

/-- The awaits of `isOwnedStatement`. -/
def look (state : SweptStore) : Option SweptStore :=
  match state.phase with
  | .readingMeta ownerUrls => match state.store.metadata with
      | none => state.remove
      | some metadata => some { state with phase := .statting ownerUrls metadata }
  | .statting ownerUrls metadata =>
      if state.store.object ∧ metadata.mimeType = statementMimeType then
        some { state with phase := .readingRefs ownerUrls }
      else state.remove
  | .readingRefs ownerUrls =>
      if (readRefs state.store).any (· ∈ ownerUrls) then some { state with phase := .passedOver }
      else state.remove
  | _ => none

def gcStep (state : SweptStore) : GcAction → Option SweptStore
  | .blob action =>
      if action.begins = some gcCall then none else (step state.store action).map (state.apply action)
  | .tick ms => some { state with clock := state.clock + ms }
  | .begin graceMs => match state.phase with
      | .before => some { state with phase := .listing, now := state.clock, graceMs := graceMs }
      | _ => none
  | .list => match state.phase with
      | .listing =>
          let listed := if state.store.object then some state.ctimeMs else none
          some { state with phase := .marking listed }
      | _ => none
  | .mark outcome => match state.phase with
      | .marking listed => match outcome, listed with
          | .error _, _ => some { state with phase := .finished }
          | .ok _, none => some { state with phase := .passedOver }
          | .ok (marked, live), some ctimeMs =>
              some { state with phase := .sweeping ctimeMs marked live }
      | _ => none
  | .weigh => weigh state
  | .look => look state
  | .removed => match state.phase with
      | .removing =>
          if (state.store.calls gcCall).isNone then some { state with phase := .passedOver } else none
      | _ => none
  | .finish => match state.phase with
      | .passedOver => some { state with phase := .finished }
      | _ => none

/-- Whatever there is before the run: an object with its age, or none, and its last ingest. -/
def SweptStore.opened (hash : JsString) (store : Store) (clock ctimeMs : Int)
    (ingestedAt : Option Int) : SweptStore :=
  ⟨hash, store, clock, ctimeMs, .before, clock, 0, ingestedAt, false, false⟩

/-! ## What the grace period covers -/

def SweptStore.Recent (state : SweptStore) : Prop :=
  state.during = true ∨ ∃ ingested, state.ingestedAt = some ingested ∧ state.now - ingested < state.graceMs

def SweptStore.GraceCovers (state : SweptStore) : Prop := state.Recent → state.swept = false

/-- In every state that is reached with the run begun. -/
def CoversUploads (guard : SweptStore → GcAction → Prop) : Prop :=
  ∀ hash object metadata refs clock ctimeMs ingestedAt state,
    Reaches gcStep guard
      (.opened hash (.opened object metadata refs) clock ctimeMs ingestedAt) state →
    state.phase ≠ .before → state.GraceCovers

/-- The removal has the object to unlink still. -/
def Ahead : Option Call → Prop
  | some .removing => True
  | some (.unlinking _ _ left) => .object ∈ left
  | _ => False

/-- Found old, and not unlinked yet. -/
def SweptStore.Doomed (state : SweptStore) : Prop :=
  match state.phase with
  | .readingMeta _ | .statting _ _ | .readingRefs _ => True
  | .removing => Ahead (state.store.calls gcCall)
  | _ => False

/-- The listed age of an unmarked object is in the grace period if its last ingest is. And none
succeeds on an object that was found old, or on one that is gone by then. -/
def InTime (state : SweptStore) : GcAction → Prop
  | .weigh => ∀ ctimeMs marked live, state.phase = .sweeping ctimeMs marked live →
      state.hash ∉ live → state.Recent → state.now - ctimeMs < state.graceMs
  | .blob action => completes state.store action = true → state.phase ≠ .finished →
      ¬ state.Doomed ∧ state.swept = false
  | _ => True

/-! ## The sweep's own call -/

def Action.call : Action → CallId
  | .ingest call _ | .addRef call _ | .releaseRef call _ | .remove call | .resume call
  | .removePiece call _ | .fail call => call

variable {store next : Store} {call key : CallId} {phase : Call} {action : Action}

theorem resume_calls (taken : resume store call phase = some next) :
    (∃ later, next.calls = store.calls.put call later) ∨ next.calls = store.calls.remove call := by
  cases phase with
  | releasing docUrl =>
      simp only [resume] at taken
      split at taken
      · cases taken
        unfold releaseRef
        dsimp only
        split
        · exact .inr rfl
        · split
          · exact .inr rfl
          · exact .inl ⟨_, rfl⟩
      · cases taken
  | checking ingest =>
      simp only [resume] at taken
      split at taken
      · split at taken <;> cases taken <;> exact .inl ⟨_, rfl⟩
      · cases taken
        exact .inl ⟨_, rfl⟩
  | discarding | preparing | placing | describing =>
      cases taken
      exact .inl ⟨_, rfl⟩
  | joining | removing =>
      simp only [resume] at taken
      split at taken <;> cases taken
      exact .inl ⟨_, rfl⟩
  | readingMeta =>
      simp only [resume] at taken
      split at taken <;> cases taken <;> exact .inl ⟨_, rfl⟩
  | statting =>
      simp only [resume] at taken
      split at taken <;> cases taken
      · exact .inr rfl
      · exact .inl ⟨_, rfl⟩
  | repairing =>
      cases taken
      exact .inr rfl
  | claiming | addingRef | unlinking =>
      simp only [resume] at taken
      split at taken <;> cases taken
      exact .inr rfl

theorem removePiece_calls {piece : Piece} (taken : removePiece store call piece phase = some next) :
    ∃ existed owner left, phase = .unlinking owner existed left ∧ piece ∈ left ∧
      next.calls = store.calls.put call (.unlinking owner existed (left.filter (· ≠ piece))) := by
  cases phase with
  | unlinking owner existed left =>
      simp only [removePiece] at taken
      split at taken
      · rename_i inside
        cases taken
        refine ⟨existed, owner, left, rfl, inside, ?_⟩
        cases piece <;> rfl
      · cases taken
  | _ => cases taken

theorem failIngest_calls (taken : failIngest store call phase = some next) :
    next.calls = store.calls.remove call := by
  cases phase <;> cases taken <;> rfl

theorem step_calls_other (taken : step store action = some next) (other : key ≠ action.call) :
    next.calls key = store.calls key := by
  cases action with
  | ingest call ingest | addRef call docUrl | releaseRef call docUrl | remove call =>
      simp only [step, start] at taken
      split at taken <;> cases taken
      exact Table.put_other other
  | resume call =>
      replace other : key ≠ call := other
      obtain ⟨phase, _, taken⟩ := Option.bind_eq_some_iff.mp taken
      obtain ⟨later, calls⟩ | calls := resume_calls taken
      · rw [calls, Table.put_other other]
      · rw [calls, Table.remove_other other]
  | removePiece call piece =>
      replace other : key ≠ call := other
      obtain ⟨phase, _, taken⟩ := Option.bind_eq_some_iff.mp taken
      obtain ⟨_, _, _, _, _, calls⟩ := removePiece_calls taken
      rw [calls, Table.put_other other]
  | fail call =>
      replace other : key ≠ call := other
      obtain ⟨phase, _, taken⟩ := Option.bind_eq_some_iff.mp taken
      rw [failIngest_calls taken, Table.remove_other other]

/-- What a call of `remove` may await. -/
def Removal : Option Call → Prop
  | none | some .removing | some (.unlinking none _ _) => True
  | _ => False

/-- The removal goes on, and comes no closer to the object than it was. -/
theorem Removal.step (removal : Removal (store.calls gcCall)) (new : action.begins ≠ some gcCall)
    (taken : step store action = some next) :
    Removal (next.calls gcCall) ∧ (Ahead (next.calls gcCall) → Ahead (store.calls gcCall)) := by
  by_cases own : gcCall = action.call
  · cases action with
    | ingest | addRef | releaseRef | remove => exact absurd (congrArg some own.symm) new
    | resume call =>
        obtain rfl : gcCall = call := own
        obtain ⟨phase, found, taken⟩ := Option.bind_eq_some_iff.mp taken
        rw [found] at removal ⊢
        cases phase with
        | removing => 
            simp only [resume] at taken
            split at taken <;> cases taken
            simp [Store.park, Removal, Ahead]
        | unlinking owner existed left =>
            simp only [resume] at taken
            split at taken <;> cases taken
            simp [Store.return, Store.unlock, Removal, Ahead]
        | _ => exact absurd removal id
    | removePiece call piece =>
        obtain rfl : gcCall = call := own
        obtain ⟨phase, found, taken⟩ := Option.bind_eq_some_iff.mp taken
        obtain ⟨existed, owner, left, rfl, _, calls⟩ := removePiece_calls taken
        rw [found] at removal ⊢
        rw [calls, Table.put_self]
        cases owner with
        | none => exact ⟨trivial, fun ahead => List.mem_of_mem_filter ahead⟩
        | some docUrl => exact absurd removal id
    | fail call =>
        obtain rfl : gcCall = call := own
        obtain ⟨phase, _, taken⟩ := Option.bind_eq_some_iff.mp taken
        rw [failIngest_calls taken, Table.remove_self]
        exact ⟨trivial, fun ahead => absurd ahead id⟩
  · rw [step_calls_other taken own]
    exact ⟨removal, id⟩

theorem absent_of_step (absent : store.calls gcCall = none) (new : action.begins ≠ some gcCall)
    (taken : step store action = some next) : next.calls gcCall = none := by
  have other : gcCall ≠ action.call := by
    intro own
    cases action with
    | ingest | addRef | releaseRef | remove => exact new (congrArg some own.symm)
    | resume call | removePiece call piece | fail call =>
        obtain rfl : gcCall = call := own
        simp [step, absent] at taken
  rw [step_calls_other taken other, absent]

/-- The sweep unlinks what it was ahead of. -/
theorem ahead_of_unlinksSwept (unlinks : unlinksSwept action = true)
    (taken : step store action = some next) : Ahead (store.calls gcCall) := by
  cases action with
  | removePiece call piece =>
      cases piece with
      | object =>
          have own : call = gcCall := of_decide_eq_true unlinks
          subst own
          obtain ⟨phase, found, taken⟩ := Option.bind_eq_some_iff.mp taken
          obtain ⟨existed, owner, left, rfl, inside, _⟩ := removePiece_calls taken
          rw [found]
          exact inside
      | metadata | refs => cases unlinks
  | _ => cases unlinks

/-! ## The invariant -/

variable {state after : SweptStore}

/-- The call of `remove` is there only while the run awaits it, and what is to be removed, or has been,
was not ingested of late. -/
structure Spared (state : SweptStore) : Prop where
  removal : Removal (state.store.calls gcCall)
  idle : state.phase ≠ .removing → state.store.calls gcCall = none
  begun : state.phase = .before → state.swept = false
  doomed : state.Doomed → ¬ state.Recent
  swept : state.swept = true → ¬ state.Recent

theorem doomed_of_apply (closer : Ahead (next.calls gcCall) → Ahead (state.store.calls gcCall))
    (doomed : (state.apply action next).Doomed) : state.Doomed := by
  revert doomed
  unfold SweptStore.Doomed SweptStore.apply
  dsimp only
  cases state.phase with
  | removing => exact closer
  | _ => exact id

theorem Spared.doomed_of_ahead (spared : Spared state) (ahead : Ahead (state.store.calls gcCall)) :
    state.Doomed := by
  by_cases awaits : state.phase = .removing
  · rw [SweptStore.Doomed, awaits]
    exact ahead
  · rw [spared.idle awaits] at ahead
    exact absurd ahead id

theorem Spared.swept_or_doomed (spared : Spared state) (taken : step state.store action = some next)
    (swept : (state.apply action next).swept = true) : state.swept = true ∨ state.Doomed := by
  simp only [SweptStore.apply, Bool.and_eq_true, Bool.or_eq_true] at swept
  obtain old | unlinks := swept.2
  · exact .inl old
  · exact .inr (spared.doomed_of_ahead (ahead_of_unlinksSwept unlinks.1 taken))

/-- An ingest that succeeds unlinks nothing. -/
theorem swept_of_completes (completed : completes state.store action = true)
    (unswept : state.swept = false) : (state.apply action next).swept = false := by
  have unlinks : unlinksSwept action = false := by
    cases action <;> first | rfl | cases completed
  simp [SweptStore.apply, unswept, unlinks]

theorem recent_apply_iff (silent : (completes state.store action && state.phase ≠ .finished) = false) :
    (state.apply action next).Recent ↔ state.Recent := by
  simp only [SweptStore.Recent, SweptStore.apply, silent, Bool.false_and, Bool.or_false,
    Bool.false_eq_true, if_false]

theorem Spared.blob (spared : Spared state) (inTime : InTime state (.blob action))
    (new : action.begins ≠ some gcCall) (taken : step state.store action = some next) :
    Spared (state.apply action next) := by
  obtain ⟨removal, closer⟩ := spared.removal.step new taken
  have idle : state.phase ≠ .removing → next.calls gcCall = none :=
    fun other => absent_of_step (spared.idle other) new taken
  cases counts : completes state.store action && state.phase ≠ .finished with
  | true =>
      obtain ⟨completed, lasts⟩ := Bool.and_eq_true_iff.mp counts
      obtain ⟨safe, unswept⟩ := inTime completed (of_decide_eq_true lasts)
      have stays : (state.apply action next).swept = false := swept_of_completes completed unswept
      exact ⟨removal, idle, fun _ => stays, fun doomed => absurd (doomed_of_apply closer doomed) safe,
        fun swept => absurd (stays.symm.trans swept) (by decide)⟩
  | false =>
      have same := @recent_apply_iff next action state counts
      refine ⟨removal, idle, ?_, ?_, ?_⟩
      · intro before
        have unswept := spared.begun before
        by_contra swept
        obtain old | doomed := spared.swept_or_doomed taken (Bool.eq_true_of_not_eq_false swept)
        · rw [unswept] at old
          cases old
        · replace before : state.phase = .before := before
          rw [SweptStore.Doomed, before] at doomed
          exact doomed
      · intro doomed
        rw [same]
        exact spared.doomed (doomed_of_apply closer doomed)
      · intro swept
        rw [same]
        exact (spared.swept_or_doomed taken swept).elim spared.swept spared.doomed

/-- A step of the run that leaves the store alone. -/
theorem Spared.goes (spared : Spared state) {phase : GcPhase} (was : state.phase ≠ .removing)
    (later : phase ≠ .before)
    (doomed : ({ state with phase := phase } : SweptStore).Doomed → ¬ state.Recent) :
    Spared { state with phase := phase } :=
  ⟨spared.removal, fun _ => spared.idle was, fun before => absurd before later, doomed, spared.swept⟩

theorem Spared.remove (spared : Spared state) (doomed : state.Doomed)
    (taken : state.remove = some after) : Spared after := by
  obtain ⟨store, begun, rfl⟩ := Option.map_eq_some_iff.mp taken
  simp only [step, start] at begun
  split at begun <;> cases begun
  refine ⟨?_, ?_, ?_, ?_, spared.swept⟩
  · simp [Store.enqueue, Store.park, Removal]
  · exact fun other => absurd rfl other
  · exact fun before => by cases before
  · exact fun _ => spared.doomed doomed

theorem Spared.weigh (spared : Spared state) (inTime : InTime state .weigh)
    (taken : weigh state = some after) : Spared after := by
  unfold Blobs.weigh at taken
  split at taken
  · rename_i ctimeMs marked live sweeping
    have awake : state.phase ≠ .removing := by simp [sweeping]
    split at taken <;> cases taken
    · exact spared.goes awake (by simp) fun doomed => absurd doomed id
    · rename_i found
      obtain ⟨unmarked, old⟩ := not_or.mp found
      exact spared.goes awake (by simp) fun _ recent =>
        old (inTime ctimeMs marked live sweeping unmarked recent)
  · cases taken

theorem Spared.look (spared : Spared state) (taken : look state = some after) : Spared after := by
  unfold Blobs.look at taken
  split at taken
  · rename_i ownerUrls reading
    have doomed : state.Doomed := by
      rw [SweptStore.Doomed, reading]
      trivial
    split at taken
    · exact spared.remove doomed taken
    · cases taken
      exact spared.goes (by simp [reading]) (by simp) fun _ => spared.doomed doomed
  · rename_i ownerUrls metadata reading
    have doomed : state.Doomed := by
      rw [SweptStore.Doomed, reading]
      trivial
    split at taken
    · cases taken
      exact spared.goes (by simp [reading]) (by simp) fun _ => spared.doomed doomed
    · exact spared.remove doomed taken
  · rename_i ownerUrls reading
    have doomed : state.Doomed := by
      rw [SweptStore.Doomed, reading]
      trivial
    split at taken
    · cases taken
      exact spared.goes (by simp [reading]) (by simp) fun _ => spared.doomed doomed
    · exact spared.remove doomed taken
  · cases taken

theorem Spared.step {action : GcAction} (spared : Spared state) (inTime : InTime state action)
    (taken : gcStep state action = some after) : Spared after := by
  cases action with
  | blob action =>
      simp only [gcStep] at taken
      split at taken
      · cases taken
      · rename_i new
        obtain ⟨store, stepped, rfl⟩ := Option.map_eq_some_iff.mp taken
        exact spared.blob inTime new stepped
  | tick ms =>
      cases taken
      exact ⟨spared.removal, spared.idle, spared.begun, spared.doomed, spared.swept⟩
  | begin graceMs =>
      simp only [gcStep] at taken
      split at taken <;> cases taken
      rename_i before
      have idle := spared.idle (by simp [before])
      exact ⟨spared.removal, fun _ => idle, fun absurd' => (by cases absurd'), fun doomed => absurd doomed id,
        fun swept => by simp [spared.begun before] at swept⟩
  | list =>
      simp only [gcStep] at taken
      split at taken <;> cases taken
      rename_i listing
      exact spared.goes (by simp [listing]) (by simp) fun doomed => absurd doomed id
  | mark outcome =>
      simp only [gcStep] at taken
      split at taken
      · rename_i listed marking
        have awake : state.phase ≠ .removing := by simp [marking]
        split at taken <;> cases taken
        · exact spared.goes awake (by simp) fun doomed => absurd doomed id
        · exact spared.goes awake (by simp) fun doomed => absurd doomed id
        · exact spared.goes awake (by simp) fun doomed => absurd doomed id
      · cases taken
  | weigh => exact spared.weigh inTime taken
  | look => exact spared.look taken
  | removed =>
      simp only [gcStep] at taken
      split at taken
      · split at taken <;> cases taken
        rename_i answered
        have absent := Option.isNone_iff_eq_none.mp answered
        exact ⟨spared.removal, fun _ => absent, fun before => (by cases before), fun doomed => absurd doomed id, spared.swept⟩
      · cases taken
  | finish =>
      simp only [gcStep] at taken
      split at taken <;> cases taken
      rename_i passed
      exact spared.goes (by simp [passed]) (by simp) fun doomed => absurd doomed id

/-- An object that the sweep finds as young as its last ingest is not swept while that is covered. -/
theorem in_time_ingests_are_covered (hash : JsString) (object : Bool) (metadata : Option BlobMeta)
    (refs : Option (List JsString)) (clock ctimeMs : Int) (ingestedAt : Option Int) (state : SweptStore)
    (reached : Reaches gcStep InTime
      (.opened hash (.opened object metadata refs) clock ctimeMs ingestedAt) state) :
    state.GraceCovers := by
  intro recent
  have spared : Spared state := by
    refine reached.invariant Spared ⟨trivial, fun _ => rfl, fun _ => rfl, fun doomed => absurd doomed id, ?_⟩
      fun _ spared inTime taken => spared.step inTime taken
    intro swept
    cases swept
  exact Bool.eq_false_iff.mpr fun swept => spared.swept swept recent

def takeUpload : Ingest := ⟨.stream, js "automerge:take", ⟨js "audio/webm", js ".webm"⟩⟩

def dayMs : Int := 24 * 60 * 60 * 1000

def newTake : SweptStore := .opened (js "c0ffee") (.opened false none none) (2 * dayMs) 0 none

/-- An upload that is answered right before the run, and is passed over as young. -/
theorem new_upload_is_covered : ∃ state, Reaches gcStep InTime newTake state ∧
    state.Recent ∧ state.phase = .finished ∧ state.GraceCovers := by
  have along : MeetsAlong gcStep InTime newTake
      [.blob (.ingest 1 takeUpload), .blob (.resume 1), .blob (.resume 1), .blob (.resume 1),
        .blob (.resume 1), .blob (.resume 1), .begin dayMs, .list,
        .mark (.ok (⟨[js "automerge:root"], []⟩, [])), .weigh, .finish] := by
    have apart (state : SweptStore) (action : Action) (undoomed : ¬ state.Doomed)
        (kept : state.swept = false) : InTime state (.blob action) := fun _ _ => ⟨undoomed, kept⟩
    refine .cons (apart _ _ id rfl) rfl (.cons (apart _ _ id rfl) rfl (.cons (apart _ _ id rfl) rfl
      (.cons (apart _ _ id rfl) rfl (.cons (apart _ _ id rfl) rfl (.cons (apart _ _ id rfl) rfl
      (.cons trivial rfl (.cons trivial rfl (.cons trivial rfl (.cons ?_ rfl
      (.cons trivial rfl trivial))))))))))
    intro ctimeMs marked live sweeping _ _
    cases sweeping
    decide
  have reached : Reaches gcStep InTime newTake _ := .of_run rfl along
  exact ⟨_, reached, .inr ⟨_, rfl, by decide⟩, rfl,
    in_time_ingests_are_covered _ _ _ _ _ _ _ _ reached⟩

/-! ## An old object uploaded again -/

def oldTake : SweptStore :=
  .opened (js "c0ffee") (.opened true (some ⟨js "audio/webm", js ".webm"⟩) none) (2 * dayMs) 0 none

/-- The upload finds the object, and the run begins when it is answered. -/
def uploadedAgain : List GcAction :=
  [.blob (.ingest 1 takeUpload), .blob (.resume 1), .blob (.resume 1), .blob (.resume 1),
    .blob (.resume 1), .blob (.resume 1), .begin dayMs, .list,
    .mark (.ok (⟨[js "automerge:root"], []⟩, [])), .weigh, .look, .look, .blob (.resume gcCall), .blob (.removePiece gcCall .object)]

theorem upload_of_an_old_object_is_swept : ¬ CoversUploads anyAction := by
  intro covers
  obtain ⟨state, ran, begun, recent, swept⟩ : ∃ state, run gcStep oldTake uploadedAgain = some state ∧
      state.phase ≠ .before ∧ state.Recent ∧ state.swept = true :=
    ⟨_, rfl, by decide, .inr ⟨_, rfl, by decide⟩, rfl⟩
  have covered := covers _ _ _ _ _ _ _ state (.of_run ran (meetsAlong_anyAction _ _)) begun recent
  exact absurd (covered.symm.trans swept) (by decide)

end Tapes.Blobs
