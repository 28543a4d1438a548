import Tapes.Recorder.PendingUploads

namespace Tapes.Recorder

open Tapes.Js Tapes.Machine

/-! Which saved recordings a closed page would leave behind with neither their audio on the host nor an
upload in the queue. -/

/-- Its document has a descriptor, or the queue has its upload. -/
def Device.Remembered (device : Device) (pending : PendingUpload) : Prop :=
  (∃ doc, device.docs pending.docUrl = some doc ∧ doc.blob.isSome = true) ∨ pending ∈ device.queue

structure Remembers (device : Device) : Prop where
  stored : ∀ pending ∈ device.saved, device.Remembered pending
  sent : ∀ endpoint next, deviceStep device (.openPage (some endpoint)) = some next →
    ∀ pending ∈ device.queue, ∃ upload, next.uploads upload = some ⟨pending, none⟩
  statements : ∀ action next, deviceStep device action = some next → ∀ docUrl doc,
    device.docs docUrl = some doc → ∃ later, next.docs docUrl = some later ∧
      ∀ hash ∈ doc.statements.getD [], hash ∈ later.statements.getD []

def SavedOffline (device : Device) : DeviceAction → Prop
  | .save _ _ _ => device.endpoint = none
  | _ => True

variable {device next : Device} {action : DeviceAction} {pending other : PendingUpload}
  {queue : List PendingUpload} {docUrl : JsString} {upload : UploadId}

/-! ## The queue -/

theorem mem_addPendingUpload : other ∈ addPendingUpload queue pending ↔
    other ∈ queue ∧ other.docUrl ≠ pending.docUrl ∨ other = pending := by
  simp [addPendingUpload]

theorem mem_removePendingUpload :
    other ∈ removePendingUpload queue docUrl ↔ other ∈ queue ∧ other.docUrl ≠ docUrl := by
  simp [removePendingUpload]

/-! ## Uploads that begin -/

/-- Uploads have begun for the whole list, each under an id of its own. -/
structure Began (device : Device) (queue : List PendingUpload) (after : Device) : Prop where
  sameQueue : after.queue = device.queue
  sameDocs : after.docs = device.docs
  sameSaved : after.saved = device.saved
  earlier : ∀ upload < device.nextUpload, after.uploads upload = device.uploads upload
  running : ∀ upload running, after.uploads upload = some running →
    device.uploads upload = some running ∨ running.pending ∈ queue
  sent : ∀ pending ∈ queue, ∃ upload, after.uploads upload = some ⟨pending, none⟩

theorem began (online : device.endpoint.isSome = true) (queue : List PendingUpload) :
    Began device queue (queue.foldl storeRecordingAudio device) := by
  induction queue generalizing device with
  | nil =>
      exact ⟨rfl, rfl, rfl, fun _ _ => rfl, fun _ _ => .inl, fun _ member => nomatch member⟩
  | cons first rest induction =>
      let begun : Device := { device with
        uploads := device.uploads.put device.nextUpload ⟨first, none⟩
        nextUpload := device.nextUpload + 1 }
      have starts : storeRecordingAudio device first = begun := by
        unfold storeRecordingAudio
        split
        · rename_i offline
          rw [offline] at online
          cases online
        · rfl
      rw [List.foldl_cons, starts]
      have later : Began begun rest (rest.foldl storeRecordingAudio begun) := @induction begun online
      refine ⟨later.sameQueue, later.sameDocs, later.sameSaved, ?_, ?_, ?_⟩
      · intro upload below
        rw [later.earlier upload (Nat.lt_succ_of_lt below)]
        exact Table.put_other (Nat.ne_of_lt below)
      · intro upload held found
        obtain old | new := later.running upload held found
        · obtain ⟨-, rfl⟩ | ⟨-, before⟩ := Table.put_cases old
          · exact .inr List.mem_cons_self
          · exact .inl before
        · exact .inr (List.mem_cons_of_mem first new)
      · intro pending member
        obtain rfl | behind := List.mem_cons.mp member
        · refine ⟨device.nextUpload, ?_⟩
          rw [later.earlier device.nextUpload (Nat.lt_succ_self _)]
          exact Table.put_self
        · exact later.sent pending behind

theorem retryPending_cases (device : Device) :
    retryPending device = device ∨ Began device device.queue (retryPending device) := by
  unfold retryPending
  split
  · exact .inl rfl
  · rename_i online
    exact .inr (began (by simpa [Option.isSome_iff_ne_none] using online) device.queue)

/-! ## The invariant -/

/-- Every upload that is queued or under way is that of a saved recording, of which each document has
one. -/
structure Device.Sound (device : Device) : Prop where
  created : ∀ pending ∈ device.saved, ∃ doc, device.docs pending.docUrl = some doc
  single : ∀ pending ∈ device.saved, ∀ other ∈ device.saved, pending.docUrl = other.docUrl →
    pending = other
  queued : ∀ pending ∈ device.queue, pending ∈ device.saved
  running : ∀ upload running, device.uploads upload = some running → running.pending ∈ device.saved

theorem Device.Sound.began {after : Device} (sound : device.Sound)
    (began : Began device queue after) (saved : ∀ pending ∈ queue, pending ∈ device.saved) :
    after.Sound := by
  refine ⟨?_, ?_, ?_, ?_⟩
  · rw [began.sameSaved, began.sameDocs]
    exact sound.created
  · rw [began.sameSaved]
    exact sound.single
  · rw [began.sameSaved, began.sameQueue]
    exact sound.queued
  · intro upload held found
    rw [began.sameSaved]
    obtain old | new := began.running upload held found
    · exact sound.running upload held old
    · exact saved held.pending new

theorem Device.Sound.retry (sound : device.Sound) : (retryPending device).Sound := by
  obtain same | began := retryPending_cases device
  · rw [same]
    exact sound
  · exact sound.began began sound.queued

/-- The upload of a saved recording begins, or goes to the queue. -/
theorem Device.Sound.store (sound : device.Sound) (member : pending ∈ device.saved) :
    (storeRecordingAudio device pending).Sound := by
  unfold storeRecordingAudio
  split
  · refine ⟨sound.created, sound.single, ?_, sound.running⟩
    intro other inside
    obtain ⟨old, _⟩ | rfl := mem_addPendingUpload.mp inside
    · exact sound.queued other old
    · exact member
  · refine ⟨sound.created, sound.single, sound.queued, ?_⟩
    intro upload running found
    obtain ⟨-, rfl⟩ | ⟨-, before⟩ := Table.put_cases found
    · exact member
    · exact sound.running upload running before

theorem Device.Sound.otherDoc (sound : device.Sound) (absent : device.docs docUrl = none)
    (member : pending ∈ device.saved) : pending.docUrl ≠ docUrl := by
  intro same
  obtain ⟨doc, found⟩ := sound.created pending member
  rw [same, absent] at found
  cases found

/-- The document is there, and it is for this recording. -/
theorem Device.Sound.create {doc : RecordingDoc} (sound : device.Sound)
    (absent : device.docs pending.docUrl = none) : Device.Sound { device with
      docs := device.docs.put pending.docUrl doc, saved := device.saved ++ [pending] } := by
  have other (held : PendingUpload) (member : held ∈ device.saved) : held.docUrl ≠ pending.docUrl :=
    sound.otherDoc absent member
  refine ⟨?_, ?_, fun _ member => List.mem_append_left _ (sound.queued _ member),
    fun upload running found => List.mem_append_left _ (sound.running upload running found)⟩
  · intro held member
    obtain old | new := List.mem_append.mp member
    · obtain ⟨doc, found⟩ := sound.created held old
      exact ⟨doc, (Table.put_other (other held old)).trans found⟩
    · rw [List.mem_singleton.mp new]
      exact ⟨doc, Table.put_self⟩
  · intro left leftMember right rightMember same
    obtain old | new := List.mem_append.mp leftMember
    · obtain also | last := List.mem_append.mp rightMember
      · exact sound.single left old right also same
      · rw [List.mem_singleton.mp last] at same
        exact absurd same (other left old)
    · obtain rfl := List.mem_singleton.mp new
      obtain also | last := List.mem_append.mp rightMember
      · exact absurd same.symm (other right also)
      · exact (List.mem_singleton.mp last).symm

theorem modify_isSome {docs : Table JsString RecordingDoc} {change : RecordingDoc → RecordingDoc}
    {key : JsString} (there : ∃ doc, docs key = some doc) (changed : JsString) :
    ∃ doc, docs.modify changed change key = some doc := by
  obtain ⟨doc, found⟩ := there
  by_cases same : key = changed
  · subst same
    exact ⟨change doc, by rw [Table.modify, Function.update_self, found, Option.map_some]⟩
  · exact ⟨doc, by rw [Table.modify, Function.update_of_ne same, found]⟩

theorem Device.Sound.finish (sound : device.Sound) (upload : UploadId) : (device.finish upload).Sound := by
  refine ⟨sound.created, sound.single, sound.queued, ?_⟩
  exact @Table.All.remove _ _ device.uploads (fun _ running => running.pending ∈ device.saved) _ upload
    sound.running

theorem Device.Sound.step (sound : device.Sound) (taken : deviceStep device action = some next) :
    next.Sound := by
  cases action with
  | save docUrl filepath claim =>
      simp only [deviceStep] at taken
      split at taken <;> cases taken
      rename_i new
      have created := @Device.Sound.create device ⟨docUrl, filepath, claim⟩ ⟨filepath, none, none⟩ sound
        new.2.2
      exact created.store (List.mem_append_right _ (List.mem_singleton_self _))
  | setEndpoint endpoint =>
      simp only [deviceStep] at taken
      split at taken <;> cases taken
      have same : Device.Sound { device with endpoint := endpoint } :=
        ⟨sound.created, sound.single, sound.queued, sound.running⟩
      exact same.retry
  | openPage endpoint =>
      simp only [deviceStep] at taken
      split at taken <;> cases taken
      have same : Device.Sound { device with page := true, endpoint := endpoint } :=
        ⟨sound.created, sound.single, sound.queued, sound.running⟩
      exact same.retry
  | stored upload answer =>
      simp only [deviceStep] at taken
      split at taken <;> cases taken
      rename_i pending found
      have known : pending ∈ device.saved := sound.running upload ⟨pending, none⟩ found
      refine ⟨sound.created, sound.single, sound.queued, ?_⟩
      intro other running there
      obtain ⟨-, rfl⟩ | ⟨-, before⟩ := Table.put_cases there
      · exact known
      · exact sound.running other running before
  | found upload =>
      simp only [deviceStep] at taken
      split at taken <;> cases taken
      have finished := sound.finish upload
      refine ⟨fun pending member => modify_isSome (sound.created pending member) _, sound.single, ?_,
        finished.running⟩
      intro pending member
      exact sound.queued pending (mem_removePendingUpload.mp member).1
  | failed upload =>
      simp only [deviceStep] at taken
      split at taken <;> cases taken
      rename_i pending stored found
      have finished := sound.finish upload
      refine ⟨sound.created, sound.single, ?_, finished.running⟩
      intro other member
      obtain ⟨old, _⟩ | rfl := mem_addPendingUpload.mp member
      · exact sound.queued other old
      · exact sound.running upload _ found
  | list docUrl hash =>
      simp only [deviceStep] at taken
      split at taken <;> cases taken
      exact ⟨fun pending member => modify_isSome (sound.created pending member) _, sound.single,
        sound.queued, sound.running⟩
  | close =>
      cases taken
      exact ⟨sound.created, sound.single, sound.queued, fun _ _ found => nomatch found⟩

/-! ## What each step leaves of a document -/

theorem describe_keeps (doc : RecordingDoc) (answer : StoredBlob) :
    ∀ hash ∈ doc.statements.getD [], hash ∈ (doc.describe answer).statements.getD [] := by
  intro hash member
  unfold RecordingDoc.describe
  dsimp only
  split
  · exact member
  · exact List.mem_append_left _ member

/-- It is still there, with every statement it listed, and with a descriptor if it had one. -/
def RecordingDoc.GrowsTo (doc later : RecordingDoc) : Prop :=
  (doc.blob.isSome = true → later.blob.isSome = true) ∧
    ∀ hash ∈ doc.statements.getD [], hash ∈ later.statements.getD []

theorem modify_grows {docs : Table JsString RecordingDoc} {change : RecordingDoc → RecordingDoc}
    {key : JsString} {doc : RecordingDoc} (grows : ∀ doc : RecordingDoc, doc.GrowsTo (change doc))
    (found : docs key = some doc) (changed : JsString) :
    ∃ later, docs.modify changed change key = some later ∧ doc.GrowsTo later := by
  by_cases same : key = changed
  · subst same
    refine ⟨change doc, ?_, grows doc⟩
    rw [Table.modify, Function.update_self, found, Option.map_some]
  · refine ⟨doc, ?_, id, fun _ => id⟩
    rw [Table.modify, Function.update_of_ne same, found]

theorem retryPending_same (device : Device) : (retryPending device).docs = device.docs ∧
    (retryPending device).saved = device.saved ∧ (retryPending device).queue = device.queue := by
  obtain same | began := retryPending_cases device
  · rw [same]
    exact ⟨rfl, rfl, rfl⟩
  · exact ⟨began.sameDocs, began.sameSaved, began.sameQueue⟩

theorem storeRecordingAudio_docs (device : Device) (pending : PendingUpload) :
    (storeRecordingAudio device pending).docs = device.docs := by
  unfold storeRecordingAudio
  split <;> rfl

/-- A step takes nothing from a document. -/
theorem doc_of_step {doc : RecordingDoc} (taken : deviceStep device action = some next)
    (found : device.docs docUrl = some doc) :
    ∃ later, next.docs docUrl = some later ∧ doc.GrowsTo later := by
  have kept : doc.GrowsTo doc := ⟨id, fun _ => id⟩
  cases action with
  | save created filepath claim =>
      simp only [deviceStep] at taken
      split at taken <;> cases taken
      rename_i new
      have other : docUrl ≠ created := by
        rintro rfl
        rw [new.2.2] at found
        cases found
      rw [storeRecordingAudio_docs]
      exact ⟨doc, (Table.put_other other).trans found, kept⟩
  | setEndpoint | openPage =>
      simp only [deviceStep] at taken
      split at taken <;> cases taken
      rw [(retryPending_same _).1]
      exact ⟨doc, found, kept⟩
  | stored | failed =>
      simp only [deviceStep] at taken
      split at taken <;> cases taken
      exact ⟨doc, found, kept⟩
  | found upload =>
      simp only [deviceStep] at taken
      split at taken <;> cases taken
      rename_i pending answer _
      exact modify_grows (fun doc => ⟨fun _ => rfl, describe_keeps doc answer⟩) found pending.docUrl
  | list listed hash =>
      simp only [deviceStep] at taken
      split at taken <;> cases taken
      have grows (doc : RecordingDoc) : doc.GrowsTo
          { doc with statements := some (doc.statements.getD [] ++ [hash]) } :=
        ⟨id, fun _ => List.mem_append_left _⟩
      exact modify_grows grows found listed
  | close =>
      cases taken
      exact ⟨doc, found, kept⟩

theorem sent_of_openPage {endpoint : JsString}
    (taken : deviceStep device (.openPage (some endpoint)) = some next) :
    ∀ pending ∈ device.queue, ∃ upload, next.uploads upload = some ⟨pending, none⟩ := by
  simp only [deviceStep] at taken
  split at taken <;> cases taken
  exact (began rfl device.queue).sent

/-! ## Which steps forget a recording -/

theorem Device.Remembered.later (remembered : device.Remembered pending)
    (taken : deviceStep device action = some next)
    (stays : pending ∈ device.queue → next.Remembered pending) : next.Remembered pending := by
  obtain ⟨doc, found, described⟩ | queued := remembered
  · obtain ⟨later, there, grows⟩ := doc_of_step taken found
    exact .inl ⟨later, there, grows.1 described⟩
  · exact stays queued

/-- A step other than a save forgets no recording. -/
theorem remembered_of_step (sound : device.Sound) (stored : ∀ pending ∈ device.saved,
      device.Remembered pending) (taken : deviceStep device action = some next)
    (other : ∀ docUrl filepath claim, action ≠ .save docUrl filepath claim) :
    ∀ pending ∈ next.saved, next.Remembered pending := by
  cases action with
  | save docUrl filepath claim => exact absurd rfl (other docUrl filepath claim)
  | setEndpoint | openPage =>
      have step := taken
      simp only [deviceStep] at taken
      split at taken <;> cases taken
      obtain ⟨-, saved, queue⟩ := retryPending_same _
      intro pending member
      rw [saved] at member
      refine (stored pending member).later step fun queued => .inr ?_
      rw [queue]
      exact queued
  | stored | list =>
      have step := taken
      simp only [deviceStep] at taken
      split at taken <;> cases taken
      intro pending member
      exact (stored pending member).later step .inr
  | failed upload =>
      have step := taken
      simp only [deviceStep] at taken
      split at taken <;> cases taken
      rename_i failed answer found
      intro pending member
      refine (stored pending member).later step fun queued => .inr (mem_addPendingUpload.mpr ?_)
      by_cases same : pending.docUrl = failed.docUrl
      · exact .inr (sound.single pending member failed (sound.running upload _ found) same)
      · exact .inl ⟨queued, same⟩
  | found upload =>
      have step := taken
      simp only [deviceStep] at taken
      split at taken <;> cases taken
      rename_i sent answer found
      intro pending member
      refine (stored pending member).later step fun queued => ?_
      by_cases same : pending.docUrl = sent.docUrl
      · obtain ⟨doc, there⟩ := sound.created pending member
        refine .inl ⟨doc.describe answer, ?_, rfl⟩
        rw [same] at there ⊢
        simp only [Table.modify, Function.update_self, there, Option.map_some]
      · exact .inr (mem_removePendingUpload.mpr ⟨queued, same⟩)
  | close =>
      cases taken
      exact stored

/-- A save forgets its recording at once, unless it puts it in the queue. -/
theorem remembered_of_save_iff {filepath : JsString} {claim : Option JsString} (sound : device.Sound)
    (stored : ∀ pending ∈ device.saved, device.Remembered pending)
    (taken : deviceStep device (.save docUrl filepath claim) = some next) :
    (∀ pending ∈ next.saved, next.Remembered pending) ↔ device.endpoint = none := by
  have step := taken
  simp only [deviceStep] at taken
  split at taken
  · rename_i new
    have other (pending : PendingUpload) (member : pending ∈ device.saved) : pending.docUrl ≠ docUrl :=
      sound.otherDoc new.2.2 member
    simp only [storeRecordingAudio, Option.some.injEq] at taken
    cases host : device.endpoint with
    | none =>
        simp only [host] at taken
        subst taken
        refine iff_of_true ?_ rfl
        intro pending member
        obtain old | last := List.mem_append.mp member
        · refine (stored pending old).later step fun queued => .inr ?_
          exact mem_addPendingUpload.mpr (.inl ⟨queued, other pending old⟩)
        · exact .inr (mem_addPendingUpload.mpr (.inr (List.mem_singleton.mp last)))
    | some endpoint =>
        simp only [host] at taken
        subst taken
        refine iff_of_false (fun remembered => ?_) (by simp)
        -- Its document is new, and so is not the one of any upload in the queue.
        obtain ⟨doc, found, described⟩ | queued := remembered ⟨docUrl, filepath, claim⟩
          (List.mem_append_right _ (List.mem_singleton_self _))
        · simp only [Table.put_self, Option.some.injEq] at found
          subst found
          cases described
        · exact other _ (sound.queued _ queued) rfl
  · cases taken

theorem remembers_of_step_iff (sound : device.Sound) (remembers : Remembers device)
    (taken : deviceStep device action = some next) :
    Remembers next ↔ SavedOffline device action := by
  have always (stored : ∀ pending ∈ next.saved, next.Remembered pending) : Remembers next :=
    ⟨stored, fun _ _ opened => sent_of_openPage opened, fun _ _ stepped docUrl doc found => by
      obtain ⟨later, there, grows⟩ := doc_of_step stepped found
      exact ⟨later, there, grows.2⟩⟩
  cases action with
  | save docUrl filepath claim =>
      have same := remembered_of_save_iff sound remembers.stored taken
      exact ⟨fun next => same.mp next.stored, fun offline => always (same.mpr offline)⟩
  | _ =>
      refine iff_of_true (always ?_) trivial
      exact remembered_of_step sound remembers.stored taken fun _ _ _ => by simp

theorem new_sound : Device.new.Sound where
  created := fun _ member => by cases member
  single := fun _ member => by cases member
  queued := fun _ member => by cases member
  running := fun _ _ found => by cases found

theorem new_remembers : Remembers Device.new where
  stored := fun _ member => by cases member
  sent := fun _ _ opened => sent_of_openPage opened
  statements := fun _ _ _ _ _ found => by cases found

/-- Every recording is remembered all along a run exactly where none is saved with an endpoint. -/
theorem remembers_along_iff (actions : List DeviceAction) (final : Device)
    (ran : run deviceStep Device.new actions = some final) :
    HoldsAlong deviceStep Remembers Device.new actions ↔
      MeetsAlong deviceStep SavedOffline Device.new actions :=
  holdsAlong_iff (fun sound taken => sound.step taken)
    (fun sound remembers taken => remembers_of_step_iff sound remembers taken)
    new_sound new_remembers ran

/-! ## A page closed under an upload -/

def host : Option JsString := some (js "https://host")

def savedOnline : List DeviceAction :=
  [.openPage host, .save (js "automerge:take") (js "take.webm") (some (js "claim")), .close]

def savedOnTheTrain : List DeviceAction :=
  [.openPage none, .save (js "automerge:take") (js "take.webm") (some (js "claim")), .close,
    .openPage host]

/-- The recording has no descriptor, and no upload is left of it. -/
theorem closed_under_an_upload_forgets :
    ¬ HoldsAlong deviceStep Remembers Device.new savedOnline := by
  intro along
  have closed := (((along.2 _ rfl).2 _ rfl).2 _ rfl).stored
  obtain ⟨doc, found, described⟩ | queued := closed ⟨js "automerge:take", js "take.webm", some (js "claim")⟩
    (by decide)
  · cases found
    cases described
  · cases queued

theorem saved_on_the_train_is_remembered :
    HoldsAlong deviceStep Remembers Device.new savedOnTheTrain :=
  (remembers_along_iff savedOnTheTrain _ rfl).mpr
    ⟨trivial, fun _ taken => ⟨by cases taken; rfl, fun _ _ =>
      ⟨trivial, fun _ _ => ⟨trivial, fun _ _ => trivial⟩⟩⟩⟩

end Tapes.Recorder
