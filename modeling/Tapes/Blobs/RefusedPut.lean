import Tapes.Blobs.CachePut

namespace Tapes.Blobs

open Tapes.Js
open Tapes.Uploads (isValidBlobHash sizeOfBytes)

/-! A refused `blob:cache-put`: its release takes back what its ingest added, and leaves the
store as it was only where the ingest added no more than that. -/

variable {sha256 : Sha256} {disk before after : Disk} {bytes : Bytes}
  {hash docUrl mimeType ext now : JsString}

/-! ## One hash at a time -/

/-- Only the files of one hash may differ. -/
def Disk.Elsewhere (before after : Disk) (hash : JsString) : Prop :=
  ∀ other, other ≠ hash → after.files other = before.files other

theorem Disk.Elsewhere.trans {middle : Disk} (first : before.Elsewhere middle hash)
    (second : middle.Elsewhere after hash) : before.Elsewhere after hash :=
  fun other apart => (second other apart).trans (first other apart)

theorem Disk.set_elsewhere (disk : Disk) (hash : JsString) (files : Files)
    (named : ∀ metadata, files.metadata = some metadata → metadata.hash = hash) :
    disk.Elsewhere (disk.set hash files named) hash := by
  intro other apart
  rw [Disk.set_files, Function.update_of_ne apart]

@[simp] theorem Disk.writeRefs_object (disk : Disk) (hash : JsString) (refs : List JsString) :
    ((disk.writeRefs hash refs).files hash).object = (disk.files hash).object := by
  simp [Disk.writeRefs]

@[simp] theorem Disk.writeRefs_metadata (disk : Disk) (hash : JsString) (refs : List JsString) :
    ((disk.writeRefs hash refs).files hash).metadata = (disk.files hash).metadata := by
  simp [Disk.writeRefs]

@[simp] theorem Disk.writeRefs_readRefs (disk : Disk) (hash : JsString) (refs : List JsString) :
    (disk.writeRefs hash refs).readRefs hash = refs := by
  simp [Disk.writeRefs, Disk.readRefs]

theorem Disk.addRef_cases (disk : Disk) (hash docUrl : JsString) :
    (docUrl ∈ disk.readRefs hash ∧ (disk.addRef hash docUrl).2 = disk) ∨
      (docUrl ∉ disk.readRefs hash ∧
        (disk.addRef hash docUrl).2 = disk.writeRefs hash (disk.readRefs hash ++ [docUrl])) := by
  unfold Disk.addRef
  by_cases present : docUrl ∈ disk.readRefs hash
  · exact .inl ⟨present, by simp only [if_pos present]⟩
  · exact .inr ⟨present, by simp only [if_neg present]⟩

theorem Disk.addRef_elsewhere (disk : Disk) (hash docUrl : JsString) :
    disk.Elsewhere (disk.addRef hash docUrl).2 hash := by
  rcases disk.addRef_cases hash docUrl with ⟨_, same⟩ | ⟨_, written⟩
  · rw [same]
    exact fun _ _ => rfl
  · rw [written]
    exact disk.set_elsewhere _ _ _

@[simp] theorem Disk.addRef_object (disk : Disk) (hash docUrl : JsString) :
    ((disk.addRef hash docUrl).2.files hash).object = (disk.files hash).object := by
  rcases disk.addRef_cases hash docUrl with ⟨_, same⟩ | ⟨_, written⟩
  · rw [same]
  · rw [written, Disk.writeRefs_object]

@[simp] theorem Disk.addRef_metadata (disk : Disk) (hash docUrl : JsString) :
    ((disk.addRef hash docUrl).2.files hash).metadata = (disk.files hash).metadata := by
  rcases disk.addRef_cases hash docUrl with ⟨_, same⟩ | ⟨_, written⟩
  · rw [same]
  · rw [written, Disk.writeRefs_metadata]

@[simp] theorem Disk.addRef_readRefs (disk : Disk) (hash docUrl : JsString) :
    (disk.addRef hash docUrl).2.readRefs hash = addTo (disk.readRefs hash) docUrl := by
  rcases disk.addRef_cases hash docUrl with ⟨present, same⟩ | ⟨absent, written⟩
  · rw [same, addTo, if_pos present]
  · rw [written, Disk.writeRefs_readRefs, addTo, if_neg absent]

theorem filter_addTo (refs : List JsString) (docUrl : JsString) :
    (addTo refs docUrl).filter (· ≠ docUrl) = refs.filter (· ≠ docUrl) := by
  unfold addTo
  by_cases present : docUrl ∈ refs
  · rw [if_pos present]
  · rw [if_neg present]
    simp

/-! ## The release -/

/-- What a release leaves of a hash: all but the reference while another document owns the
bytes, and nothing when none does. -/
theorem Disk.releaseRef_cases (disk : Disk) (hash docUrl : JsString) :
    let next := (disk.readRefs hash).filter (· ≠ docUrl)
    let after := (disk.releaseRef hash docUrl).2
    disk.Elsewhere after hash ∧
      ((next ≠ [] ∧ (after.files hash).object = (disk.files hash).object ∧
        (after.files hash).metadata = (disk.files hash).metadata ∧ after.readRefs hash = next) ∨
      (next = [] ∧ after.files hash = ⟨none, none, none, none⟩)) := by
  intro next after
  by_cases absent : next.length = (disk.readRefs hash).length ∧ disk.readRefs hash ≠ []
  · have same : after = disk := by
      change (disk.releaseRef hash docUrl).2 = disk
      simp only [Disk.releaseRef]
      rw [if_pos absent]
    have all : next = disk.readRefs hash := List.filter_sublist.eq_of_length absent.1
    rw [same]
    exact ⟨fun _ _ => rfl, .inl ⟨all ▸ absent.2, rfl, rfl, all.symm⟩⟩
  · by_cases last : next = []
    · have unlinked : after = disk.unlinkAll hash := by
        change (disk.releaseRef hash docUrl).2 = _
        simp only [Disk.releaseRef]
        rw [if_neg absent, if_neg (not_not_intro last)]
      rw [unlinked]
      exact ⟨disk.set_elsewhere _ _ _, .inr ⟨last, by simp [Disk.unlinkAll]⟩⟩
    · have written : after = disk.writeRefs hash next := by
        change (disk.releaseRef hash docUrl).2 = _
        simp only [Disk.releaseRef]
        rw [if_neg absent, if_pos last]
      rw [written]
      exact ⟨disk.set_elsewhere _ _ _, .inl ⟨last, by simp, by simp, by simp⟩⟩

/-! ## The ingest -/

/-- What an ingest leaves of the hash it stored. -/
structure Ingested (before after : Disk) (hash docUrl : JsString) (bytes : Bytes) : Prop where
  elsewhere : before.Elsewhere after hash
  object : (after.files hash).object = some ((before.files hash).object.getD bytes)
  described : (after.files hash).metadata.isSome
  kept : (before.files hash).object.isSome → (before.files hash).metadata.isSome →
    (after.files hash).metadata = (before.files hash).metadata
  refs : after.readRefs hash = addTo (before.readRefs hash) docUrl

theorem Disk.finalizeMeta_elsewhere (disk : Disk) (hash : JsString) (size : JsNumber)
    (mimeType ext now : JsString) :
    disk.Elsewhere (disk.finalizeMeta hash size mimeType ext now).2 hash :=
  disk.set_elsewhere hash { disk.files hash with metadata := some ⟨hash, size, mimeType, ext, now⟩ }
    (by rintro _ ⟨⟩; rfl)

@[simp] theorem Disk.finalizeMeta_object (disk : Disk) (hash : JsString) (size : JsNumber)
    (mimeType ext now : JsString) :
    ((disk.finalizeMeta hash size mimeType ext now).2.files hash).object =
      (disk.files hash).object := by
  simp [Disk.finalizeMeta]

@[simp] theorem Disk.finalizeMeta_metadata (disk : Disk) (hash : JsString) (size : JsNumber)
    (mimeType ext now : JsString) :
    ((disk.finalizeMeta hash size mimeType ext now).2.files hash).metadata =
      some ⟨hash, size, mimeType, ext, now⟩ := by
  simp [Disk.finalizeMeta]

@[simp] theorem Disk.finalizeMeta_readRefs (disk : Disk) (hash : JsString) (size : JsNumber)
    (mimeType ext now : JsString) :
    (disk.finalizeMeta hash size mimeType ext now).2.readRefs hash = disk.readRefs hash := by
  simp [Disk.finalizeMeta, Disk.readRefs]

theorem Disk.place_elsewhere (disk : Disk) (hash : JsString) (bytes : Bytes) :
    disk.Elsewhere (disk.place hash bytes) hash :=
  disk.set_elsewhere hash { disk.files hash with object := some bytes } (disk.named hash)

@[simp] theorem Disk.place_object (disk : Disk) (hash : JsString) (bytes : Bytes) :
    ((disk.place hash bytes).files hash).object = some bytes := by
  simp [Disk.place]

@[simp] theorem Disk.place_readRefs (disk : Disk) (hash : JsString) (bytes : Bytes) :
    (disk.place hash bytes).readRefs hash = disk.readRefs hash := by
  simp [Disk.place, Disk.readRefs]

theorem Sha256.has_hex (sha256 : Sha256) (disk : Disk) (bytes : Bytes) :
    disk.has (sha256.hex bytes) = (disk.files (sha256.hex bytes)).object.isSome := by
  simp [Disk.has, sha256.valid bytes]

/-- The meta file found names the hash it is kept under. -/
theorem Disk.statBlob_cases (valid : isValidBlobHash hash = true)
    (object : (disk.files hash).object = some bytes) :
    ((disk.files hash).metadata = none ∧ disk.statBlob hash = none) ∨
      ((disk.files hash).metadata.isSome ∧
        ∃ found, disk.statBlob hash = some found ∧ found.hash = hash) := by
  unfold Disk.statBlob
  rw [if_pos valid, object]
  cases metadata : (disk.files hash).metadata with
  | none => exact .inl ⟨rfl, rfl⟩
  | some existing =>
      dsimp only
      generalize sizeOfBytes bytes = size
      exact .inr ⟨rfl, { existing with size }, rfl, disk.named hash existing metadata⟩

theorem ingestStream_absent (absent : (disk.files (sha256.hex bytes)).object = none) :
    ∃ result after, ingestStream sha256 now disk bytes ⟨mimeType, ext, docUrl, none⟩ =
        (.ok result, after) ∧ result.metadata.hash = sha256.hex bytes ∧
      Ingested disk after (sha256.hex bytes) docUrl bytes := by
  have has := sha256.has_hex disk bytes
  rw [absent] at has
  simp only [ingestStream, Option.filter_none, has, Option.isSome_none, Bool.false_eq_true,
    if_false]
  refine ⟨_, _, rfl, rfl, ?_⟩
  exact
    { elsewhere := ((disk.place_elsewhere _ _).trans
        (Disk.finalizeMeta_elsewhere _ _ _ _ _ _)).trans (Disk.addRef_elsewhere _ _ _)
      object := by simp [absent]
      described := by simp
      kept := fun held _ => by simp [absent] at held
      refs := by simp }

theorem ingestStream_present {held : Bytes}
    (object : (disk.files (sha256.hex bytes)).object = some held) :
    ∃ result after, ingestStream sha256 now disk bytes ⟨mimeType, ext, docUrl, none⟩ =
        (.ok result, after) ∧ result.metadata.hash = sha256.hex bytes ∧
      Ingested disk after (sha256.hex bytes) docUrl bytes := by
  have has := sha256.has_hex disk bytes
  rw [object] at has
  have owned := (Disk.addRef_object disk (sha256.hex bytes) docUrl).trans object
  have elsewhere := disk.addRef_elsewhere (sha256.hex bytes) docUrl
  simp only [ingestStream, Option.filter_none, has, Option.isSome_some, if_true]
  rcases Disk.statBlob_cases (sha256.valid bytes) owned with
    ⟨metadata, stat⟩ | ⟨metadata, found, stat, names⟩
  · rw [stat]
    rw [Disk.addRef_metadata] at metadata
    refine ⟨_, _, rfl, rfl, ?_⟩
    exact
      { elsewhere := elsewhere.trans (Disk.finalizeMeta_elsewhere _ _ _ _ _ _)
        object := by simp [object]
        described := by simp
        kept := fun _ listed => by simp [metadata] at listed
        refs := by simp }
  · rw [stat]
    refine ⟨_, _, rfl, names, ?_⟩
    exact
      { elsewhere
        object := by simp [object]
        described := metadata
        kept := fun _ _ => by simp
        refs := by simp }

/-- The result names the hash of the bytes, whatever the store held. -/
theorem ingestStream_ingested (sha256 : Sha256) (now : JsString) (disk : Disk) (bytes : Bytes)
    (mimeType ext docUrl : JsString) :
    ∃ result after, ingestStream sha256 now disk bytes ⟨mimeType, ext, docUrl, none⟩ =
        (.ok result, after) ∧ result.metadata.hash = sha256.hex bytes ∧
      Ingested disk after (sha256.hex bytes) docUrl bytes := by
  cases object : (disk.files (sha256.hex bytes)).object with
  | none => exact ingestStream_absent object
  | some held => exact ingestStream_present object

/-! ## The refusal -/

/-- The objects, the meta files and the references of a store, as its reads give them. -/
structure Disk.SameHoldings (before after : Disk) : Prop where
  objects : ∀ hash, (after.files hash).object = (before.files hash).object
  metas : ∀ hash, (after.files hash).metadata = (before.files hash).metadata
  refs : ∀ hash, after.readRefs hash = before.readRefs hash

theorem Disk.SameHoldings.of_hash (elsewhere : before.Elsewhere after hash)
    (object : (after.files hash).object = (before.files hash).object)
    (metadata : (after.files hash).metadata = (before.files hash).metadata)
    (refs : after.readRefs hash = before.readRefs hash) : before.SameHoldings after where
  objects other := by
    by_cases same : other = hash
    · rw [same, object]
    · rw [elsewhere other same]
  metas other := by
    by_cases same : other = hash
    · rw [same, metadata]
    · rw [elsewhere other same]
  refs other := by
    by_cases same : other = hash
    · rw [same, refs]
    · rw [Disk.readRefs, elsewhere other same, Disk.readRefs]

/-- Releasing the reference takes back exactly what the ingest of these bytes would add:
either another document owns them and this one does not, or the store has nothing of them. -/
def Disk.Undoable (disk : Disk) (hash docUrl : JsString) : Prop :=
  if disk.has hash then
    (disk.files hash).metadata.isSome ∧ docUrl ∉ disk.readRefs hash ∧ disk.readRefs hash ≠ []
  else (disk.files hash).metadata = none ∧ disk.readRefs hash = []

instance (disk : Disk) (hash docUrl : JsString) : Decidable (disk.Undoable hash docUrl) := by
  unfold Disk.Undoable; infer_instance

theorem undone_present {held : Bytes} {ingested : Disk}
    (added : Ingested disk ingested hash docUrl bytes)
    (object : (disk.files hash).object = some held) :
    disk.SameHoldings (ingested.releaseRef hash docUrl).2 ↔
      (disk.files hash).metadata.isSome ∧ docUrl ∉ disk.readRefs hash ∧ disk.readRefs hash ≠ [] := by
  obtain ⟨elsewhere, left⟩ := ingested.releaseRef_cases hash docUrl
  rw [added.refs, filter_addTo] at left
  have others : docUrl ∉ disk.readRefs hash ↔
      (disk.readRefs hash).filter (· ≠ docUrl) = disk.readRefs hash := by
    rw [List.filter_eq_self]
    constructor
    · intro absent ref member
      simpa using fun same : ref = docUrl => absent (same ▸ member)
    · intro apart member
      simpa using apart docUrl member
  constructor
  · intro same
    rcases left with ⟨owned, _, metadata, refs⟩ | ⟨_, unlinked⟩
    · have all := refs.symm.trans (same.refs hash)
      refine ⟨?_, others.mpr all, all ▸ owned⟩
      rw [← same.metas hash, metadata]
      exact added.described
    · have lost := same.objects hash
      rw [unlinked, object] at lost
      exact nomatch lost
  · rintro ⟨described, absent, owned⟩
    have all := others.mp absent
    rcases left with ⟨_, kept, metadata, refs⟩ | ⟨last, _⟩
    · apply Disk.SameHoldings.of_hash (added.elsewhere.trans elsewhere)
      · rw [kept, added.object, object, Option.getD_some]
      · rw [metadata, added.kept (by rw [object]; rfl) described]
      · rw [refs, all]
    · exact absurd (all.symm.trans last) owned

theorem undone_absent {ingested : Disk} (added : Ingested disk ingested hash docUrl bytes)
    (object : (disk.files hash).object = none) :
    disk.SameHoldings (ingested.releaseRef hash docUrl).2 ↔
      (disk.files hash).metadata = none ∧ disk.readRefs hash = [] := by
  obtain ⟨elsewhere, left⟩ := ingested.releaseRef_cases hash docUrl
  rw [added.refs, filter_addTo] at left
  constructor
  · intro same
    have metadata := same.metas hash
    have refs := same.refs hash
    rcases left with ⟨_, kept, _⟩ | ⟨_, unlinked⟩
    · have gained := same.objects hash
      rw [kept, added.object, object] at gained
      exact nomatch gained
    · rw [unlinked] at metadata
      rw [Disk.readRefs, unlinked] at refs
      exact ⟨metadata.symm, refs.symm⟩
  · rintro ⟨metadata, refs⟩
    rw [refs] at left
    rcases left with ⟨owned, _⟩ | ⟨_, unlinked⟩
    · exact absurd rfl owned
    · apply Disk.SameHoldings.of_hash (added.elsewhere.trans elsewhere)
      · rw [unlinked, object]
      · rw [unlinked, metadata]
      · rw [refs, Disk.readRefs, unlinked, Option.getD_none]

theorem Sha256.undoable_iff {ingested : Disk}
    (added : Ingested disk ingested (sha256.hex bytes) docUrl bytes) :
    disk.SameHoldings (ingested.releaseRef (sha256.hex bytes) docUrl).2 ↔
      disk.Undoable (sha256.hex bytes) docUrl := by
  have has := sha256.has_hex disk bytes
  unfold Disk.Undoable
  cases object : (disk.files (sha256.hex bytes)).object with
  | none =>
      rw [object] at has
      rw [undone_absent added object, if_neg (by simp [has])]
  | some held =>
      rw [object] at has
      rw [undone_present added object, if_pos (by simp [has])]

theorem handle_mismatched (sha256 : Sha256) (now : JsString) (disk : Disk) {data : CachePut}
    (mismatched : sha256.hex data.bytes ≠ data.hash) :
    ∃ ingested, Ingested disk ingested (sha256.hex data.bytes) data.docUrl data.bytes ∧
      handle sha256 now (some disk) data =
        (.error (.mismatch data.hash (sha256.hex data.bytes)),
          some (ingested.releaseRef (sha256.hex data.bytes) data.docUrl).2) := by
  obtain ⟨result, ingested, answer, names, added⟩ :=
    ingestStream_ingested sha256 now disk data.bytes data.mimeType [] data.docUrl
  refine ⟨ingested, added, ?_⟩
  simp only [handle, answer, names, if_pos mismatched]

/-- The request is answered with an error, and the store holds what it held before. -/
def RefusesCleanly (sha256 : Sha256) (now : JsString) (disk : Disk) (data : CachePut) : Prop :=
  ∃ failure after, handle sha256 now (some disk) data = (.error failure, some after) ∧
    disk.SameHoldings after

theorem refused_put_leaves_the_store_iff (sha256 : Sha256) (now : JsString) (disk : Disk)
    (data : CachePut) (mismatched : sha256.hex data.bytes ≠ data.hash) :
    RefusesCleanly sha256 now disk data ↔
      disk.Undoable (sha256.hex data.bytes) data.docUrl := by
  obtain ⟨ingested, added, answer⟩ := handle_mismatched sha256 now disk mismatched
  rw [← Sha256.undoable_iff added]
  constructor
  · rintro ⟨failure, after, answered, same⟩
    rw [answer] at answered
    cases answered
    exact same
  · intro same
    exact ⟨_, _, answer, same⟩

/-! A sample: a fetch whose bytes are those of another recording the store holds. -/

def abcHash : JsString := js "ba7816bf8f01cfea414140de5dae2223b00361a396177a9cb410ff61f20015ad"

def abc : Bytes := [0x61, 0x62, 0x63]

/-- Right for the bytes `abc`, the only ones hashed here. -/
def abcDigest : Sha256 where
  hex _ := abcHash
  valid _ := by decide +kernel

/-- A store that holds the bytes for these documents alone. -/
def holding (refs : List JsString) : Disk where
  files hash :=
    if hash = abcHash then
      ⟨some abc, some ⟨abcHash, sizeOfBytes abc, js "audio/wav", js ".wav", js "then"⟩, some refs, none⟩
    else ⟨none, none, none, none⟩
  named hash metadata found := by
    split at found
    · rename_i same
      cases found
      exact same.symm
    · exact nomatch found

/-- The hash asked for is another one. -/
def wrongFetch : CachePut := ⟨js "00", js "audio/wav", js "automerge:one", abc⟩

theorem wrong_fetch_is_undone_beside_another_owner :
    RefusesCleanly abcDigest (js "now") (holding [js "automerge:two"]) wrongFetch := by
  have mismatched : abcDigest.hex wrongFetch.bytes ≠ wrongFetch.hash := by decide +kernel
  exact (refused_put_leaves_the_store_iff abcDigest (js "now") (holding [js "automerge:two"])
    wrongFetch mismatched).mpr (by decide +kernel)

/-- The document that asked is the last owner of the bytes it got: the refusal unlinks them. -/
theorem wrong_fetch_unlinks_owned_audio :
    abcDigest.hex wrongFetch.bytes ≠ wrongFetch.hash ∧
      ¬ RefusesCleanly abcDigest (js "now") (holding [js "automerge:one"]) wrongFetch := by
  have mismatched : abcDigest.hex wrongFetch.bytes ≠ wrongFetch.hash := by decide +kernel
  refine ⟨mismatched, ?_⟩
  rintro ⟨failure, after, answered, same⟩
  obtain ⟨ingested, added, answer⟩ :=
    handle_mismatched abcDigest (js "now") (holding [js "automerge:one"]) mismatched
  rw [answer] at answered
  cases answered
  have undoable := (Sha256.undoable_iff added).mp same
  exact absurd undoable (by decide +kernel)

end Tapes.Blobs
