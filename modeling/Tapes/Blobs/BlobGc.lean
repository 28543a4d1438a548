import Tapes.Provenance.Signing

namespace Tapes.Blobs

open Tapes.Js
open Tapes.Provenance (statementMimeType)

/-! Mark-and-sweep for the blob store, over the documents and objects as they stand. -/

structure StoredObject where
  hash : JsString
  size : Nat
  nlink : Nat
  ctimeMs : Int
deriving DecidableEq

/-- What a sweep is run on.  `document` is what a URL holds, and the failures say
which lookups of candidates and of recordings fail, with the error's text.
`mimeType`, `refs` and `removes` are the store's answers about a hash. -/
structure GcInput where
  storage : List (JsString × List JsString)
  document : JsString → JsValue
  rootFailure : JsString → Option JsString
  recordingFailure : JsString → Option JsString
  seedRoots : List JsString
  objects : List StoredObject
  mimeType : JsString → Option JsString
  refs : JsString → List JsString
  removes : JsString → Bool
  graceMs : Int
  now : Int

structure BlobGcResult where
  scanned : Nat
  live : Nat
  swept : List JsString
  skippedYoung : Nat
  reclaimedBytes : Nat
  stillHardlinked : Nat
  roots : List JsString
  abortedReason : Option JsString
deriving DecidableEq

/-- A document's lookup: the error's text, or what it holds. -/
def findDoc (document : JsString → JsValue) (failure : JsString → Option JsString)
    (url : JsString) : Except JsString JsValue :=
  match failure url with
  | some error => .error error
  | none => .ok (document url)

/-- Document ids by the storage layout: a directory named for the first two
characters of an id holds the rest. -/
def storedDocumentUrls (storage : List (JsString × List JsString)) : List JsString :=
  (storage.filter fun directory => directory.1.head? ≠ some 0x2E).flatMap fun (directory, rests) =>
    rests.map fun rest => js "automerge:" ++ directory ++ rest

def isRootDoc (doc : JsValue) : Bool := (doc.get (js "recordings")).array?.isSome

/-- The recordings a root document lists, junk entries left out. -/
def recordingsOf (doc : JsValue) : List JsString :=
  ((doc.get (js "recordings")).array?.getD []).filterMap JsValue.string?

/-- The hashes a recording references: its audio and its statements. -/
def hashesOf (doc : JsValue) : List JsString :=
  ((doc.get (js "blob")).get (js "hash")).string?.toList ++
    ((doc.get (js "statements")).array?.getD []).filterMap JsValue.string?

def candidates (input : GcInput) : List JsString :=
  (input.seedRoots ++ storedDocumentUrls input.storage).foldl addTo []

/-! ## Mark -/

structure Roots where
  roots : List JsString
  recordingUrls : List JsString
deriving DecidableEq

/-- The loop over the candidates.  A seeded root that fails ends the sweep; any
other document that fails is passed over. -/
def markRoots (input : GcInput) : List JsString → Roots → Except JsString Roots
  | [], marked => .ok marked
  | url :: rest, marked =>
      match findDoc input.document input.rootFailure url with
      | .error error =>
          if url ∈ input.seedRoots then
            .error (js "Could not resolve announced root document " ++ url ++ js ": " ++ error)
          else markRoots input rest marked
      | .ok doc =>
          if isRootDoc doc then
            markRoots input rest
              ⟨marked.roots ++ [url], (recordingsOf doc).foldl addTo marked.recordingUrls⟩
          else markRoots input rest marked

def markRecordings (input : GcInput) : List JsString → List JsString → Except JsString (List JsString)
  | [], live => .ok live
  | url :: rest, live =>
      match findDoc input.document input.recordingFailure url with
      | .error error => .error (js "Could not resolve recording " ++ url ++ js ": " ++ error)
      | .ok doc => markRecordings input rest ((hashesOf doc).foldl addTo live)

/-- The whole mark phase, with the reason when it is abandoned. -/
def mark (input : GcInput) : Except JsString (Roots × List JsString) :=
  match markRoots input (candidates input) ⟨[], []⟩ with
  | .error reason => .error reason
  | .ok marked =>
      if marked.roots = [] ∧ input.objects ≠ [] then
        .error (js "No root documents found; refusing to sweep")
      else
        match markRecordings input marked.recordingUrls [] with
        | .error reason => .error reason
        | .ok live => .ok (marked, live)

/-! ## Sweep -/

def isOwnedStatement (input : GcInput) (hash : JsString) (ownerUrls : List JsString) : Bool :=
  input.mimeType hash = some statementMimeType && (input.refs hash).any (· ∈ ownerUrls)

def sweepObject (input : GcInput) (marked : Roots) (live : List JsString)
    (result : BlobGcResult) (object : StoredObject) : BlobGcResult :=
  if object.hash ∈ live then result
  else if input.now - object.ctimeMs < input.graceMs then
    { result with skippedYoung := result.skippedYoung + 1 }
  else if isOwnedStatement input object.hash (marked.recordingUrls ++ marked.roots) then result
  else if input.removes object.hash then
    let swept := { result with swept := result.swept ++ [object.hash] }
    if 1 < object.nlink then { swept with stillHardlinked := swept.stillHardlinked + 1 }
    else { swept with reclaimedBytes := swept.reclaimedBytes + object.size }
  else result

def collectOrphanedBlobs (input : GcInput) : BlobGcResult :=
  match mark input with
  | .error reason => ⟨input.objects.length, 0, [], 0, 0, 0, [], some reason⟩
  | .ok (marked, live) =>
      input.objects.foldl (sweepObject input marked live)
        ⟨input.objects.length, live.length, [], 0, 0, 0, marked.roots, none⟩

/-! ## What the host stores -/

/-- A file or a directory of the storage is named for the end of the document's id, in a directory
that is named for its start and is not hidden. -/
def StoredDocument (input : GcInput) (url : JsString) : Prop :=
  ∃ directory rests, (directory, rests) ∈ input.storage ∧ directory.head? ≠ some 0x2E ∧
    ∃ rest ∈ rests, url = js "automerge:" ++ directory ++ rest

/-- A root document among the documents stored on the host. -/
def StoredRoot (input : GcInput) (url : JsString) : Prop :=
  StoredDocument input url ∧ isRootDoc (input.document url) = true

/-- The recording that a root document stored on the host lists. -/
def StoredRecording (input : GcInput) (recording : JsString) : Prop :=
  ∃ root, StoredRoot input root ∧ recording ∈ recordingsOf (input.document root)

/-- A hash that a recording of a stored root document references. -/
def Referenced (input : GcInput) (hash : JsString) : Prop :=
  ∃ recording, StoredRecording input recording ∧ hash ∈ hashesOf (input.document recording)

def Unresolved (input : GcInput) : Prop :=
  (∃ root, StoredRoot input root ∧ input.rootFailure root ≠ none) ∨
    ∃ recording, StoredRecording input recording ∧ input.recordingFailure recording ≠ none

/-- No referenced object is swept, and nothing at all when a stored root or one of
its recordings does not resolve. -/
def NeverSweepsReferenced (input : GcInput) : Prop :=
  (∀ hash ∈ (collectOrphanedBlobs input).swept, ¬ Referenced input hash) ∧
    (Unresolved input → (collectOrphanedBlobs input).swept = [])

/-! ## What is marked -/

/-- A candidate whose lookup gives a root document. -/
structure ResolvesToRoot (input : GcInput) (url : JsString) : Prop where
  resolves : input.rootFailure url = none
  root : isRootDoc (input.document url) = true

def Candidate (input : GcInput) (url : JsString) : Prop :=
  url ∈ input.seedRoots ∨ StoredDocument input url

/-- A recording that a candidate's root document lists, of those that resolve. -/
def MarkedRecording (input : GcInput) (recording : JsString) : Prop :=
  ∃ url, Candidate input url ∧ ResolvesToRoot input url ∧
    recording ∈ recordingsOf (input.document url)

variable {input : GcInput}

/-- The listing is of the documents that are stored. -/
theorem mem_storedDocumentUrls {url : JsString} :
    url ∈ storedDocumentUrls input.storage ↔ StoredDocument input url := by
  simp only [storedDocumentUrls, List.mem_flatMap, List.mem_filter, decide_eq_true_eq, List.mem_map,
    StoredDocument, Prod.exists]
  constructor
  · rintro ⟨directory, rests, ⟨inside, shown⟩, rest, member, rfl⟩
    exact ⟨directory, rests, inside, shown, rest, member, rfl⟩
  · rintro ⟨directory, rests, inside, shown, rest, member, rfl⟩
    exact ⟨directory, rests, ⟨inside, shown⟩, rest, member, rfl⟩

theorem mem_candidates {url : JsString} : url ∈ candidates input ↔ Candidate input url := by
  simp [candidates, mem_foldl_addTo, Candidate, mem_storedDocumentUrls]

theorem findDoc_none {document : JsString → JsValue} {failure : JsString → Option JsString}
    {url : JsString} (resolves : failure url = none) :
    findDoc document failure url = .ok (document url) := by
  simp [findDoc, resolves]

theorem findDoc_some {document : JsString → JsValue} {failure : JsString → Option JsString}
    {url error : JsString} (fails : failure url = some error) :
    findDoc document failure url = .error error := by
  simp [findDoc, fails]

/-- One turn of the loop over the candidates. -/
theorem markRoots_cons {url : JsString} {rest : List JsString} {before after : Roots}
    (marks : markRoots input (url :: rest) before = .ok after) :
    (url ∈ input.seedRoots → input.rootFailure url = none) ∧
      ∃ middle, markRoots input rest middle = .ok after ∧
        (∀ each, each ∈ middle.roots ↔
          each ∈ before.roots ∨ each = url ∧ ResolvesToRoot input url) ∧
        ∀ recording, recording ∈ middle.recordingUrls ↔ recording ∈ before.recordingUrls ∨
          ResolvesToRoot input url ∧ recording ∈ recordingsOf (input.document url) := by
  simp only [markRoots] at marks
  cases failure : input.rootFailure url with
  | some error =>
      have unresolved : ¬ ResolvesToRoot input url := fun resolved => by
        rw [resolved.resolves] at failure
        cases failure
      simp only [findDoc_some failure] at marks
      split at marks
      · cases marks
      · rename_i unseeded
        exact ⟨fun seeded => absurd seeded unseeded, before, marks, by simp [unresolved],
          by simp [unresolved]⟩
  | none =>
      simp only [findDoc_none failure] at marks
      refine ⟨fun _ => rfl, ?_⟩
      split at marks
      · rename_i root
        have resolved : ResolvesToRoot input url := ⟨failure, root⟩
        exact ⟨_, marks, by simp [resolved], by simp [resolved, mem_foldl_addTo]⟩
      · rename_i notRoot
        have unresolved : ¬ ResolvesToRoot input url := fun resolved => notRoot resolved.root
        exact ⟨before, marks, by simp [unresolved], by simp [unresolved]⟩

/-- When the loop ends no seed has failed, and the roots and recordings are those of
the candidates that resolve. -/
theorem markRoots_eq_ok {urls : List JsString} {before after : Roots}
    (marks : markRoots input urls before = .ok after) :
    (∀ url ∈ urls, url ∈ input.seedRoots → input.rootFailure url = none) ∧
    (∀ each, each ∈ after.roots ↔
      each ∈ before.roots ∨ each ∈ urls ∧ ResolvesToRoot input each) ∧
    ∀ recording, recording ∈ after.recordingUrls ↔ recording ∈ before.recordingUrls ∨
      ∃ url ∈ urls, ResolvesToRoot input url ∧ recording ∈ recordingsOf (input.document url) := by
  induction urls generalizing before with
  | nil =>
      cases marks
      simp
  | cons url rest induction =>
      obtain ⟨seed, middle, continues, middleRoots, middleRecordings⟩ := markRoots_cons marks
      obtain ⟨seeds, roots, recordings⟩ := induction continues
      refine ⟨?_, ?_, ?_⟩
      · intro each member seeded
        rcases List.mem_cons.mp member with rfl | later
        · exact seed seeded
        · exact seeds each later seeded
      · intro each
        rw [roots, middleRoots, or_assoc, List.mem_cons, or_and_right]
        have same : each = url ∧ ResolvesToRoot input url ↔
            each = url ∧ ResolvesToRoot input each :=
          and_congr_right fun same => by rw [same]
        rw [same]
      · intro recording
        rw [recordings, middleRecordings, or_assoc]
        simp only [List.mem_cons, exists_eq_or_imp]

theorem markRoots_total {urls : List JsString} (before : Roots)
    (seeds : ∀ url ∈ urls, url ∈ input.seedRoots → input.rootFailure url = none) :
    ∃ after, markRoots input urls before = .ok after := by
  induction urls generalizing before with
  | nil => exact ⟨before, rfl⟩
  | cons url rest induction =>
      have later : ∀ each ∈ rest, each ∈ input.seedRoots → input.rootFailure each = none :=
        fun each member => seeds each (List.mem_cons_of_mem _ member)
      simp only [markRoots]
      cases failure : input.rootFailure url with
      | some error =>
          have unseeded : url ∉ input.seedRoots := fun seeded => by
            rw [seeds url List.mem_cons_self seeded] at failure
            cases failure
          simp only [findDoc_some failure, if_neg unseeded]
          exact induction before later
      | none =>
          simp only [findDoc_none failure]
          split
          · exact induction _ later
          · exact induction before later

theorem markRecordings_eq_ok {urls before after : List JsString}
    (marks : markRecordings input urls before = .ok after) :
    (∀ url ∈ urls, input.recordingFailure url = none) ∧
    ∀ hash, hash ∈ after ↔ hash ∈ before ∨ ∃ url ∈ urls, hash ∈ hashesOf (input.document url) := by
  induction urls generalizing before with
  | nil =>
      cases marks
      simp
  | cons url rest induction =>
      simp only [markRecordings] at marks
      cases failure : input.recordingFailure url with
      | some error =>
          simp only [findDoc_some failure] at marks
          cases marks
      | none =>
          simp only [findDoc_none failure] at marks
          obtain ⟨resolves, live⟩ := induction marks
          refine ⟨?_, ?_⟩
          · intro each member
            rcases List.mem_cons.mp member with rfl | later
            · exact failure
            · exact resolves each later
          · intro hash
            rw [live, mem_foldl_addTo, or_assoc]
            simp only [List.mem_cons, exists_eq_or_imp]

theorem markRecordings_total {urls : List JsString} (before : List JsString)
    (resolves : ∀ url ∈ urls, input.recordingFailure url = none) :
    ∃ after, markRecordings input urls before = .ok after := by
  induction urls generalizing before with
  | nil => exact ⟨before, rfl⟩
  | cons url rest induction =>
      simp only [markRecordings, findDoc_none (resolves url List.mem_cons_self)]
      exact induction _ fun each member => resolves each (List.mem_cons_of_mem _ member)

/-! ## When the sweep is abandoned -/

/-- No seed fails, there is a root to mark from, and no recording of one fails. -/
structure MarkCompletes (input : GcInput) : Prop where
  seeds : ∀ seed ∈ input.seedRoots, input.rootFailure seed = none
  rooted : input.objects ≠ [] → ∃ url, Candidate input url ∧ ResolvesToRoot input url
  recordings : ∀ recording, MarkedRecording input recording →
    input.recordingFailure recording = none

theorem mark_eq_ok {marked : Roots} {live : List JsString}
    (marks : mark input = .ok (marked, live)) :
    MarkCompletes input ∧
    (∀ url, url ∈ marked.roots ↔ Candidate input url ∧ ResolvesToRoot input url) ∧
    (∀ recording, recording ∈ marked.recordingUrls ↔ MarkedRecording input recording) ∧
    ∀ hash, hash ∈ live ↔
      ∃ recording, MarkedRecording input recording ∧ hash ∈ hashesOf (input.document recording) := by
  simp only [mark] at marks
  split at marks
  · cases marks
  · rename_i found rootsMarked
    split at marks
    · cases marks
    · rename_i rooted
      split at marks
      · cases marks
      · rename_i hashes recordingsMarked
        cases marks
        obtain ⟨seeds, roots, recordings⟩ := markRoots_eq_ok rootsMarked
        obtain ⟨resolve, live⟩ := markRecordings_eq_ok recordingsMarked
        simp only [List.not_mem_nil, false_or, mem_candidates] at seeds roots recordings live
        have sameRecordings : ∀ recording,
            recording ∈ marked.recordingUrls ↔ MarkedRecording input recording := recordings
        refine ⟨⟨fun seed seeded => seeds seed (.inl seeded) seeded, ?_, ?_⟩, roots, recordings, ?_⟩
        · intro objects
          obtain ⟨url, member⟩ := List.exists_mem_of_ne_nil _ fun none => rooted ⟨none, objects⟩
          exact ⟨url, (roots url).mp member⟩
        · exact fun recording listed => resolve recording ((sameRecordings recording).mpr listed)
        · intro hash
          simp only [live, sameRecordings]

theorem mark_total (completes : MarkCompletes input) : ∃ result, mark input = .ok result := by
  obtain ⟨marked, rootsMarked⟩ := markRoots_total ⟨[], []⟩
    (fun url _ seeded => completes.seeds url seeded : ∀ url ∈ candidates input, _)
  obtain ⟨-, roots, recordings⟩ := markRoots_eq_ok rootsMarked
  simp only [List.not_mem_nil, false_or, mem_candidates] at roots recordings
  have rooted : ¬ (marked.roots = [] ∧ input.objects ≠ []) := by
    intro refused
    obtain ⟨url, root⟩ := completes.rooted refused.2
    have member := (roots url).mpr root
    rw [refused.1] at member
    cases member
  obtain ⟨live, recordingsMarked⟩ := markRecordings_total []
    fun recording member => completes.recordings recording ((recordings recording).mp member)
  refine ⟨(marked, live), ?_⟩
  simp only [mark, rootsMarked, if_neg rooted, recordingsMarked]

/-! ## What is swept -/

def OwnedStatement (input : GcInput) (hash : JsString) : Prop :=
  input.mimeType hash = some statementMimeType ∧
    ∃ ref ∈ input.refs hash, MarkedRecording input ref ∨ Candidate input ref ∧ ResolvesToRoot input ref

/-- Unreferenced by what was marked, old enough, unowned, and still there to remove. -/
structure Sweepable (input : GcInput) (object : StoredObject) : Prop where
  unreferenced : ∀ recording, MarkedRecording input recording →
    object.hash ∉ hashesOf (input.document recording)
  old : input.graceMs ≤ input.now - object.ctimeMs
  unowned : ¬ OwnedStatement input object.hash
  removes : input.removes object.hash = true

theorem sweepObject_swept {marked : Roots} {live : List JsString} {result : BlobGcResult}
    {object : StoredObject} {hash : JsString} :
    hash ∈ (sweepObject input marked live result object).swept ↔
      hash ∈ result.swept ∨ object.hash = hash ∧ object.hash ∉ live ∧
        input.graceMs ≤ input.now - object.ctimeMs ∧
        isOwnedStatement input object.hash (marked.recordingUrls ++ marked.roots) = false ∧
        input.removes object.hash = true := by
  unfold sweepObject
  dsimp only
  split_ifs with inLive young owned removes linked
  · simp [inLive]
  · simp [young]
  · simp [owned]
  · simp [inLive, owned, removes, not_lt.mp young, eq_comm]
  · simp [inLive, owned, removes, not_lt.mp young, eq_comm]
  · simp [removes]

theorem foldl_sweepObject_swept {marked : Roots} {live : List JsString} {hash : JsString}
    (objects : List StoredObject) (result : BlobGcResult) :
    hash ∈ (objects.foldl (sweepObject input marked live) result).swept ↔
      hash ∈ result.swept ∨ ∃ object ∈ objects, object.hash = hash ∧ object.hash ∉ live ∧
        input.graceMs ≤ input.now - object.ctimeMs ∧
        isOwnedStatement input object.hash (marked.recordingUrls ++ marked.roots) = false ∧
        input.removes object.hash = true := by
  induction objects generalizing result with
  | nil => simp
  | cons object rest induction =>
      rw [List.foldl_cons, induction, sweepObject_swept, or_assoc]
      simp only [List.mem_cons, exists_eq_or_imp]

/-- What the whole sweep removes. -/
theorem mem_swept_iff {hash : JsString} :
    hash ∈ (collectOrphanedBlobs input).swept ↔
      MarkCompletes input ∧ ∃ object ∈ input.objects, object.hash = hash ∧ Sweepable input object := by
  simp only [collectOrphanedBlobs]
  split
  · rename_i reason abandoned
    have incomplete : ¬ MarkCompletes input := fun completes => by
      obtain ⟨result, marks⟩ := mark_total completes
      rw [abandoned] at marks
      cases marks
    simp [incomplete]
  · rename_i marked live marks
    obtain ⟨completes, roots, recordings, lives⟩ := mark_eq_ok marks
    have owned : ∀ object : StoredObject,
        isOwnedStatement input object.hash (marked.recordingUrls ++ marked.roots) = false ↔
          ¬ OwnedStatement input object.hash := by
      intro object
      rw [← Bool.not_eq_true, not_iff_not]
      simp [isOwnedStatement, OwnedStatement, roots, recordings]
    rw [foldl_sweepObject_swept]
    simp only [List.not_mem_nil, false_or, completes, true_and, lives, owned, not_exists, not_and]
    refine exists_congr fun object => and_congr_right fun _ => and_congr_right fun _ => ?_
    exact ⟨fun ⟨unreferenced, old, unowned, removes⟩ => ⟨unreferenced, old, unowned, removes⟩,
      fun sweepable =>
        ⟨sweepable.unreferenced, sweepable.old, sweepable.unowned, sweepable.removes⟩⟩

/-- The mark phase is abandoned, or it leaves no object to sweep. -/
def NothingToSweep (input : GcInput) : Prop :=
  MarkCompletes input → ∀ object ∈ input.objects, ¬ Sweepable input object

theorem swept_eq_nil_iff : (collectOrphanedBlobs input).swept = [] ↔ NothingToSweep input := by
  rw [List.eq_nil_iff_forall_not_mem]
  simp only [mem_swept_iff, NothingToSweep]
  constructor
  · intro none completes object member sweepable
    exact none object.hash ⟨completes, object, member, rfl, sweepable⟩
  · intro nothing hash swept
    obtain ⟨completes, object, member, -, sweepable⟩ := swept
    exact nothing completes object member sweepable

/-! ## When no referenced object is swept -/

theorem markedRecording_of_stored
    (resolves : ∀ root, StoredRoot input root → input.rootFailure root = none)
    {recording : JsString} (stored : StoredRecording input recording) :
    MarkedRecording input recording := by
  obtain ⟨root, isRoot, listed⟩ := stored
  exact ⟨root, .inr isRoot.1, ⟨resolves root isRoot, isRoot.2⟩, listed⟩

/-- A sweep spares every referenced object, and sweeps nothing when something will not
resolve, exactly when every stored root resolves or there is nothing to sweep. -/
theorem neverSweepsReferenced_iff (input : GcInput) :
    NeverSweepsReferenced input ↔
      (∀ root, StoredRoot input root → input.rootFailure root = none) ∨ NothingToSweep input := by
  constructor
  · intro never
    by_cases resolves : ∀ root, StoredRoot input root → input.rootFailure root = none
    · exact .inl resolves
    · simp only [not_forall] at resolves
      obtain ⟨root, isRoot, fails⟩ := resolves
      exact .inr (swept_eq_nil_iff.mp (never.2 (.inl ⟨root, isRoot, fails⟩)))
  · intro condition
    rcases condition with resolves | nothing
    · refine ⟨?_, ?_⟩
      · intro hash swept referenced
        obtain ⟨-, object, -, rfl, sweepable⟩ := mem_swept_iff.mp swept
        obtain ⟨recording, stored, listed⟩ := referenced
        exact sweepable.unreferenced recording (markedRecording_of_stored resolves stored) listed
      · intro unresolved
        rw [swept_eq_nil_iff]
        intro completes
        rcases unresolved with ⟨root, isRoot, fails⟩ | ⟨recording, stored, fails⟩
        · exact absurd (resolves root isRoot) fails
        · exact absurd
            (completes.recordings recording (markedRecording_of_stored resolves stored)) fails
    · have none : (collectOrphanedBlobs input).swept = [] := swept_eq_nil_iff.mpr nothing
      exact ⟨by simp [none], fun _ => none⟩

/-! ## A root that does not resolve -/

/-- The announced root is empty; another root on disk lists the recording that
references the stored object, and its lookup times out. -/
def timedOutRoot : GcInput where
  storage := [(js "aa", [js "mine", js "other"])]
  document url :=
    if url = js "automerge:aamine" then .object [(js "recordings", .array [])]
    else if url = js "automerge:aaother" then
      .object [(js "recordings", .array [.string (js "automerge:take")])]
    else .object [(js "blob", .object [(js "hash", .string (js "c0ffee"))])]
  rootFailure url := if url = js "automerge:aaother" then some (js "TimeoutError") else none
  recordingFailure _ := none
  seedRoots := [js "automerge:aamine"]
  objects := [⟨js "c0ffee", 1, 1, 0⟩]
  mimeType _ := some (js "audio/wav")
  refs _ := []
  removes _ := true
  graceMs := 24 * 60 * 60 * 1000
  now := 2 * 24 * 60 * 60 * 1000

theorem timedOutRoot_swept : (collectOrphanedBlobs timedOutRoot).swept = [js "c0ffee"] := by
  decide +kernel

/-- One timed-out lookup of a root on disk deletes the audio of its recordings. -/
theorem sweeps_audio_of_timed_out_root : ¬ NeverSweepsReferenced timedOutRoot := by
  intro never
  refine never.1 (js "c0ffee") (by rw [timedOutRoot_swept]; exact List.mem_singleton_self _) ?_
  have stored : StoredDocument timedOutRoot (js "automerge:aaother") :=
    ⟨js "aa", [js "mine", js "other"], List.mem_singleton_self _, by decide, js "other",
      by decide, rfl⟩
  exact ⟨js "automerge:take", ⟨js "automerge:aaother", ⟨stored, by decide +kernel⟩,
    by decide +kernel⟩, by decide +kernel⟩

end Tapes.Blobs
