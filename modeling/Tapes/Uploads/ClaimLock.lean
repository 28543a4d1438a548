import Tapes.Uploads.ClaimIngest

namespace Tapes.Uploads

open Tapes.Js Tapes.Provenance Tapes.Machine
open Tapes.Blobs (BlobMeta CallId Store)

/-! What each step of the claim ingest does, and that only one upload of a claim at a time is
under the lock, however the uploads before it ended. -/

variable {platform : Platform} {hostKey : JsString} {content : JsString → Bytes}
  {state next : ClaimHost platform} {action : Action platform hostKey} {id : UploadId}
  {job : Job platform} {stage : Stage}

/-! ## Steps -/

variable (hostKey content) in
/-- The steps of a call that change nothing but its stage. -/
inductive Advances (state : ClaimHost platform) (job : Job platform) :
    Stage → Event → Stage → Prop
  | loaded : Advances state job .loadingKey (.key true) .finding
  | unloaded : Advances state job .loadingKey (.key false) (.certifying none)
  | named (hash : JsString) (found : findReceipt state.receipts job.claimHash = some hash) :
      Advances state job .finding .go (.reading hash)
  | unnamed (missing : findReceipt state.receipts job.claimHash = none) :
      Advances state job .finding .go .signing
  | matched (hash : JsString) (stored : Signed JsValue)
      (read : @readOwnReceipt platform hostKey (state.host.view content) job.claimHash hash =
        some stored) :
      Advances state job (.reading hash) .go (.certifying (some ⟨stored, false⟩))
  | unmatched (hash : JsString)
      (read : @readOwnReceipt platform hostKey (state.host.view content) job.claimHash hash =
        none) :
      Advances state job (.reading hash) .go .signing
  | unsigned : Advances state job .signing (.sign none) (.certifying none)
  | certified (receipt : Option Receipt) :
      Advances state job (.certifying receipt) .go
        (.storing receipt (job.statements receipt) [])
  | stored (receipt : Option Receipt) (hash : JsString) (call : CallId)
      (left : List (Signed JsValue)) (hashes : List JsString)
      (gone : (state.host hash).calls call = none) :
      Advances state job (.ingesting receipt hash call left hashes) .go
        (.storing receipt left
          (if call ∈ (state.host hash).results.map Prod.fst then hashes ++ [hash] else hashes))
  | skipped (receipt : Option Receipt) (statement : Signed JsValue)
      (left : List (Signed JsValue)) (hashes : List JsString) (call : CallId)
      (unwritten : storeStatement statement job.docUrl = none) :
      Advances state job (.storing receipt (statement :: left) hashes) (.ingest call)
        (.storing receipt left hashes)
  | kept (signed : Signed JsValue) (hashes : List JsString) :
      Advances state job (.storing (some ⟨signed, true⟩) [] hashes) .go
        (.indexing signed hashes)

/-- The traffic of the store behind an action. -/
def Action.host? : Action platform hostKey → Option (HostAction platform [hostKey])
  | .write call writer => some (.write call writer)
  | .store hash call => some (.store hash (.resume call))
  | .fail hash call => some (.store hash (.fail call))
  | _ => none

variable (content) in
inductive Moves (state : ClaimHost platform) : Action platform hostKey → ClaimHost platform → Prop
  | arrive (id : UploadId) (upload : Upload) (new : state.uploads id = none) :
      Moves state (.arrive id upload) (state.park id (.checking upload))
  | refuse (id : UploadId) (upload : Upload) (verification : ClaimVerification)
      (checking : state.uploads id = some (.checking upload)) :
      Moves state (.check id) (state.park id (.unverified verification))
  | join (id : UploadId) (upload : Upload) (job : Job platform)
      (lock : PromiseLock JsString UploadId)
      (checking : state.uploads id = some (.checking upload))
      (joined : state.lock.join id job.claimHash = some lock) :
      Moves state (.check id) { state.park id (.working job .queued) with lock := lock }
  | enter (id : UploadId) (job : Job platform) (lock : PromiseLock JsString UploadId)
      (queued : state.uploads id = some (.working job .queued))
      (entered : state.lock.enter id = some lock) :
      Moves state (.enter id)
        { state.park id (.working job .loadingKey) with
          lock := lock
          entered := state.entered ++ [(job.claimHash, id)] }
  | advance (id : UploadId) (job : Job platform) (stage : Stage) (event : Event) (later : Stage)
      (found : state.uploads id = some (.working job stage))
      (advances : Advances hostKey content state job stage event later) :
      Moves state (.resume id event) (state.park id (.working job later))
  | sign (id : UploadId) (job : Job platform) (signature : Bytes)
      (found : state.uploads id = some (.working job .signing)) :
      Moves state (.resume id (.sign (some signature))) (signReceipt hostKey state id job signature)
  | ingest (id : UploadId) (job : Job platform) (receipt : Option Receipt)
      (statement : Signed JsValue) (left : List (Signed JsValue)) (hashes : List JsString)
      (call : CallId) (offer : Offer) (host : Host)
      (found : state.uploads id = some (.working job (.storing receipt (statement :: left) hashes)))
      (offers : storeStatement statement job.docUrl = some offer)
      (fresh : call ∉ (state.host (sha256Hex platform offer.bytes)).results.map Prod.fst)
      (began : beginIngest platform content state.host call offer = some host) :
      Moves state (.resume id (.ingest call))
        { state.park id (.working job
            (.ingesting receipt (sha256Hex platform offer.bytes) call left hashes)) with
          host := host }
  | answer (id : UploadId) (job : Job platform) (receipt : Option Receipt)
      (hashes : List JsString) (old : ∀ signed, receipt ≠ some ⟨signed, true⟩)
      (turned : ClaimHost platform)
      (found : state.uploads id = some (.working job (.storing receipt [] hashes)))
      (settled : settle state id job (answerOf (receipt.map Receipt.signed) hashes) = some turned) :
      Moves state (.resume id .go) turned
  | index (id : UploadId) (job : Job platform) (receipt : Signed JsValue)
      (hashes : List JsString) (written : Bool) (turned : ClaimHost platform)
      (found : state.uploads id = some (.working job (.indexing receipt hashes)))
      (indexed : indexReceipt state id job receipt hashes written = some turned) :
      Moves state (.resume id (.index written)) turned
  | reject (id : UploadId) (job : Job platform) (stage : Stage) (turned : ClaimHost platform)
      (found : state.uploads id = some (.working job stage))
      (settled : settle state id job .rejected = some turned) : Moves state (.reject id) turned
  | clear (id : UploadId) (lock : PromiseLock JsString UploadId)
      (cleared : state.lock.clear id = some lock) :
      Moves state (.clear id) { state with lock := lock }
  | traffic (action : Action platform hostKey) (hostAction : HostAction platform [hostKey])
      (host : Host) (is : action.host? = some hostAction)
      (stepped : hostStep content state.host hostAction = some host) :
      Moves state action { state with host := host }

theorem advances_of_advance {event : Event} {later : Stage}
    (advanced : advance hostKey content state job stage event = some later) :
    Advances hostKey content state job stage event later := by
  unfold advance at advanced
  split at advanced
  · rename_i loaded
    cases loaded <;> cases advanced
    · exact .unloaded
    · exact .loaded
  · cases advanced
    cases found : findReceipt state.receipts job.claimHash with
    | none => exact .unnamed found
    | some hash => exact .named hash found
  · rename_i hash
    cases advanced
    cases read : @readOwnReceipt platform hostKey (state.host.view content) job.claimHash hash with
    | none => exact .unmatched hash read
    | some stored => exact .matched hash stored read
  · cases advanced
    exact .unsigned
  · cases advanced
    exact .certified _
  · rename_i receipt hash call left hashes
    dsimp only at advanced
    split at advanced <;> cases advanced
    rename_i gone
    exact .stored receipt hash call left hashes (Option.isNone_iff_eq_none.mp gone)
  · cases advanced

theorem moves_of_resume {event : Event}
    (found : state.uploads id = some (.working job stage))
    (taken : resume hostKey content state id job stage event = some next) :
    Moves content state (.resume id event : Action platform hostKey) next := by
  unfold resume at taken
  split at taken
  · cases taken
    exact .sign id job _ found
  · rename_i receipt statement left hashes call
    unfold ingestNext at taken
    split at taken
    · rename_i unwritten
      cases taken
      exact .advance id job _ _ _ found (.skipped receipt statement left hashes call unwritten)
    · rename_i offer offers
      dsimp only at taken
      split at taken
      · cases taken
      · rename_i fresh
        obtain ⟨host, began, rfl⟩ := Option.map_eq_some_iff.mp taken
        exact .ingest id job receipt statement left hashes call offer host found offers fresh began
  · rename_i receipt hashes
    unfold finish at taken
    split at taken
    · rename_i signed
      cases taken
      exact .advance id job _ _ _ found (.kept signed hashes)
    · rename_i old
      exact .answer id job receipt hashes (fun signed same => old signed same) _ found taken
  · exact .index id job _ _ _ _ found taken
  · obtain ⟨later, advanced, rfl⟩ := Option.map_eq_some_iff.mp taken
    exact .advance id job _ _ _ found (advances_of_advance advanced)

/-- Each step is one of these. -/
theorem moves_of_step (taken : claimStep content state action = some next) :
    Moves content state action next := by
  cases action with
  | arrive id upload =>
      simp only [claimStep] at taken
      split at taken <;> cases taken
      rename_i new
      exact .arrive id upload (Option.isNone_iff_eq_none.mp new)
  | check id =>
      simp only [claimStep] at taken
      split at taken
      · rename_i upload checking
        split at taken
        · cases taken
          exact .refuse id upload _ checking
        · rename_i job passed
          obtain ⟨lock, joined, rfl⟩ := Option.map_eq_some_iff.mp taken
          exact .join id upload job lock checking joined
      · cases taken
  | enter id =>
      simp only [claimStep] at taken
      split at taken
      · rename_i job queued
        obtain ⟨lock, entered, rfl⟩ := Option.map_eq_some_iff.mp taken
        exact .enter id job lock queued entered
      · cases taken
  | resume id event =>
      simp only [claimStep] at taken
      split at taken
      · rename_i job stage found
        exact moves_of_resume found taken
      · cases taken
  | reject id =>
      simp only [claimStep] at taken
      split at taken
      · rename_i job stage found
        exact .reject id job stage _ found taken
      · cases taken
  | clear id =>
      obtain ⟨lock, cleared, rfl⟩ := Option.map_eq_some_iff.mp taken
      exact .clear id lock cleared
  | write | store | fail =>
      obtain ⟨host, stepped, rfl⟩ := Option.map_eq_some_iff.mp taken
      exact .traffic _ _ host rfl stepped

/-! ## The lock of a claim -/

def Stage.isRunning : Stage → Bool
  | .queued | .answered _ | .rejected => false
  | _ => true

/-- Each upload past its check has joined the lock of its claim, and runs only in its turn. -/
structure Locked (lock : PromiseLock JsString UploadId)
    (uploads : Table UploadId (Task platform)) : Prop where
  queues : ∀ claimHash, ∃ items, lock.Queue claimHash items
  joined : ∀ id job stage, uploads id = some (.working job stage) →
    ∃ turn, lock.turns id = some (job.claimHash, turn) ∧ (stage.isRunning = true → turn = .running)

theorem locked_idle : @Locked platform .idle .empty :=
  ⟨fun claimHash => ⟨[], PromiseLock.queue_idle claimHash⟩, fun _ _ _ found => by cases found⟩

section

variable {lock after : PromiseLock JsString UploadId} {uploads : Table UploadId (Task platform)}
  {task : Task platform} {other : UploadId} {otherJob : Job platform} {otherStage : Stage}

/-- No two uploads of a claim are under its lock. -/
theorem Locked.alone (locked : Locked lock uploads) (found : uploads id = some (.working job stage))
    (running : stage.isRunning = true) (also : uploads other = some (.working otherJob otherStage))
    (runs : otherStage.isRunning = true) (same : otherJob.claimHash = job.claimHash) :
    other = id := by
  obtain ⟨items, queue⟩ := locked.queues job.claimHash
  obtain ⟨turn, here, isRunning⟩ := locked.joined id job stage found
  obtain ⟨otherTurn, there, otherRuns⟩ := locked.joined other otherJob otherStage also
  rw [isRunning running] at here
  rw [otherRuns runs, same] at there
  exact queue.running_unique there here

theorem Locked.put (locked : Locked lock uploads)
    (queues : ∀ claimHash, ∃ items, after.Queue claimHash items)
    (others : ∀ other, other ≠ id → after.turns other = lock.turns other)
    (own : ∀ job stage, task = .working job stage →
      ∃ turn, after.turns id = some (job.claimHash, turn) ∧
        (stage.isRunning = true → turn = .running)) :
    Locked after (uploads.put id task) := by
  refine ⟨queues, ?_⟩
  intro other job stage found
  by_cases same : other = id
  · subst same
    rw [Table.put_self, Option.some.injEq] at found
    exact own job stage found
  · rw [Table.put_other same] at found
    rw [others other same]
    exact locked.joined other job stage found

/-- A step that leaves the lock alone. -/
theorem Locked.park (locked : Locked lock uploads)
    (own : ∀ job stage, task = .working job stage →
      ∃ turn, lock.turns id = some (job.claimHash, turn) ∧
        (stage.isRunning = true → turn = .running)) : Locked lock (uploads.put id task) :=
  locked.put locked.queues (fun _ _ => rfl) own

/-- A running call goes on. -/
theorem Locked.goOn (locked : Locked lock uploads)
    (found : uploads id = some (.working job stage)) (running : stage.isRunning = true)
    (later : Stage) : Locked lock (uploads.put id (.working job later)) := by
  apply locked.park
  intro same after is
  cases is
  obtain ⟨turn, joined, runs⟩ := locked.joined id job stage found
  exact ⟨turn, joined, fun _ => runs running⟩

theorem Locked.settle (locked : Locked lock uploads)
    (found : uploads id = some (.working job stage)) (settled : lock.settle id = some after)
    {last : Stage} (turned : last.isRunning = false) :
    Locked after (uploads.put id (.working job last)) := by
  have queues : ∀ claimHash, ∃ items, after.Queue claimHash items := by
    intro claimHash
    obtain ⟨items, queue⟩ := locked.queues claimHash
    exact queue.settle settled
  obtain ⟨claimHash, running, rfl⟩ := PromiseLock.settle_eq settled
  obtain ⟨turn, joined, -⟩ := locked.joined id job stage found
  rw [running, Option.some.injEq, Prod.mk.injEq] at joined
  refine locked.put queues (fun other different => Table.put_other different) ?_
  intro same later is
  cases is
  refine ⟨.settled, ?_, by simp [turned]⟩
  rw [← joined.1]
  exact Table.put_self

end

theorem settle_eq (settled : settle state id job stage = some next) :
    ∃ lock, state.lock.settle id = some lock ∧
      next = { state.park id (.working job stage) with lock := lock } := by
  obtain ⟨lock, left, rfl⟩ := Option.map_eq_some_iff.mp settled
  exact ⟨lock, left, rfl⟩

theorem answerOf_isRunning (receipt : Option (Signed JsValue)) (hashes : List JsString) :
    (answerOf receipt hashes).isRunning = false := by
  unfold answerOf
  split
  · rfl
  · split <;> rfl

/-- However a receipt was indexed, the call is over, and no other claim's entry was written. -/
theorem indexReceipt_eq {receipt : Signed JsValue} {hashes : List JsString} {written : Bool}
    (indexed : indexReceipt state id job receipt hashes written = some next) :
    ∃ receipts lock last, state.lock.settle id = some lock ∧ last.isRunning = false ∧
      (∀ other, other ≠ job.claimHash → receipts other = state.receipts other) ∧
      next = { state.park id (.working job last) with receipts := receipts, lock := lock } := by
  unfold indexReceipt at indexed
  split at indexed
  · obtain ⟨lock, settled, rfl⟩ := settle_eq indexed
    exact ⟨state.receipts, lock, .rejected, settled, rfl, fun _ _ => rfl, rfl⟩
  · obtain ⟨lock, settled, rfl⟩ := settle_eq indexed
    refine ⟨_, lock, _, settled, answerOf_isRunning _ _, ?_, rfl⟩
    intro other different
    split
    · exact Table.put_other different
    · rfl

theorem Advances.isRunning {event : Event} {later : Stage}
    (advances : Advances hostKey content state job stage event later) :
    stage.isRunning = true := by
  cases advances <;> rfl

theorem Locked.step (locked : Locked state.lock state.uploads)
    (moves : Moves content state action next) : Locked next.lock next.uploads := by
  cases moves with
  | arrive id upload new =>
      apply locked.park
      intro job stage is
      cases is
  | refuse id upload verification checking =>
      apply locked.park
      intro job stage is
      cases is
  | join id upload job lock checking joined =>
      have queues : ∀ claimHash, ∃ items, lock.Queue claimHash items := by
        intro claimHash
        obtain ⟨items, queue⟩ := locked.queues claimHash
        exact queue.join joined
      obtain ⟨-, rfl⟩ := PromiseLock.join_eq joined
      refine locked.put queues (fun other different => Table.put_other different) ?_
      intro same stage is
      cases is
      exact ⟨_, Table.put_self, by simp [Stage.isRunning]⟩
  | enter id job lock queued entered =>
      have queues : ∀ claimHash, ∃ items, lock.Queue claimHash items := by
        intro claimHash
        obtain ⟨items, queue⟩ := locked.queues claimHash
        exact ⟨items, queue.enter entered⟩
      obtain ⟨claimHash, previous, waits, -, rfl⟩ := PromiseLock.enter_eq entered
      obtain ⟨turn, joined, -⟩ := locked.joined id job .queued queued
      rw [waits, Option.some.injEq, Prod.mk.injEq] at joined
      refine locked.put queues (fun other different => Table.put_other different) ?_
      intro same stage is
      cases is
      refine ⟨.running, ?_, fun _ => rfl⟩
      rw [← joined.1]
      exact Table.put_self
  | advance id job stage event later found advances =>
      exact locked.goOn found advances.isRunning later
  | sign id job signature found => exact locked.goOn found rfl _
  | ingest id job receipt statement left hashes call offer host found =>
      exact locked.goOn found rfl _
  | answer id job receipt hashes old turned found settled =>
      obtain ⟨lock, left, rfl⟩ := settle_eq settled
      exact locked.settle found left (answerOf_isRunning _ _)
  | index id job receipt hashes written turned found indexed =>
      obtain ⟨receipts, lock, last, settled, turned, -, rfl⟩ := indexReceipt_eq indexed
      exact locked.settle found settled turned
  | reject id job stage turned found settled =>
      obtain ⟨lock, left, rfl⟩ := settle_eq settled
      exact locked.settle found left rfl
  | clear id lock cleared =>
      refine ⟨?_, ?_⟩
      · intro claimHash
        obtain ⟨items, queue⟩ := locked.queues claimHash
        exact ⟨items, queue.clear cleared⟩
      · obtain ⟨claimHash, -, rfl | ⟨-, rfl⟩⟩ := PromiseLock.clear_eq cleared
        · exact locked.joined
        · exact locked.joined
  | traffic action hostAction host is stepped => exact locked

/-- Of the uploads of a claim at most one is under its lock. -/
def OneRunning (uploads : Table UploadId (Task platform)) : Prop :=
  ∀ id other job otherJob stage otherStage, uploads id = some (.working job stage) →
    uploads other = some (.working otherJob otherStage) → otherJob.claimHash = job.claimHash →
      stage.isRunning = true → otherStage.isRunning = true → other = id

/-- In every run, with calls that answer and calls that reject. -/
theorem one_upload_under_the_lock {guard : ClaimHost platform → Action platform hostKey → Prop}
    {files : JsString → Bool × Option BlobMeta × Option (List JsString)}
    {receipts : Table JsString JsString}
    (reached : Reaches (claimStep content) guard (.opened files receipts) state) :
    OneRunning state.uploads := by
  have locked : Locked state.lock state.uploads :=
    reached.invariant (fun state => Locked state.lock state.uploads) locked_idle
      fun _ locked _ taken => locked.step (moves_of_step taken)
  intro id other job otherJob stage otherStage found also same running runs
  exact locked.alone found running also runs same

end Tapes.Uploads
