import Mathlib.Logic.Function.Basic
import Tapes.Js.OrderedMap
import Tapes.Js.WholeNumber
import Tapes.Uploads.BlobHost

namespace Tapes.Blobs

open Tapes.Js
open Tapes.Uploads (isValidBlobHash resolveExt sizeOfBytes)

/-! The store's files for every hash, and the `blob:cache-put` request, which ingests what a
device fetched and takes it back when the bytes are not the ones asked for. -/

/-! ## The files -/

/-- The platform's SHA-256, as a hex digest. -/
structure Sha256 where
  hex : Bytes → JsString
  valid : ∀ bytes, isValidBlobHash (hex bytes) = true

/-- A meta file: all of the source's `BlobMeta`. -/
structure MetaFile where
  hash : JsString
  size : JsNumber
  mimeType : JsString
  ext : JsString
  createdAt : JsString
deriving DecidableEq

/-- The files of one hash: its object, its sidecars, and the receipt named for it. -/
structure Files where
  object : Option Bytes
  metadata : Option MetaFile
  refs : Option (List JsString)
  receipt : Option JsString
deriving DecidableEq

/-- `finalizeMeta` alone writes a meta file, so each names the hash it is kept under. -/
structure Disk where
  files : JsString → Files
  named : ∀ hash metadata, (files hash).metadata = some metadata → metadata.hash = hash

def Disk.set (disk : Disk) (hash : JsString) (files : Files)
    (named : ∀ metadata, files.metadata = some metadata → metadata.hash = hash) : Disk where
  files := Function.update disk.files hash files
  named other metadata found := by
    by_cases same : other = hash
    · subst other
      rw [Function.update_self] at found
      exact named metadata found
    · rw [Function.update_of_ne same] at found
      exact disk.named other metadata found

@[simp] theorem Disk.set_files (disk : Disk) (hash : JsString) (files : Files)
    (named : ∀ metadata, files.metadata = some metadata → metadata.hash = hash) :
    (disk.set hash files named).files = Function.update disk.files hash files := rfl

def Disk.readRefs (disk : Disk) (hash : JsString) : List JsString :=
  (disk.files hash).refs.getD []

def Disk.writeRefs (disk : Disk) (hash : JsString) (refs : List JsString) : Disk :=
  disk.set hash { disk.files hash with refs := some refs } (disk.named hash)

def Disk.has (disk : Disk) (hash : JsString) : Bool :=
  isValidBlobHash hash && (disk.files hash).object.isSome

/-- The object is the source of truth for presence. -/
def Disk.statBlob (disk : Disk) (hash : JsString) : Option MetaFile :=
  if isValidBlobHash hash then
    match (disk.files hash).metadata, (disk.files hash).object with
    | some metadata, some bytes => some { metadata with size := sizeOfBytes bytes }
    | _, _ => none
  else none

def Disk.addRef (disk : Disk) (hash docUrl : JsString) : List JsString × Disk :=
  let refs := disk.readRefs hash
  if docUrl ∈ refs then (refs, disk)
  else (refs ++ [docUrl], disk.writeRefs hash (refs ++ [docUrl]))

def Disk.unlinkAll (disk : Disk) (hash : JsString) : Disk :=
  disk.set hash ⟨none, none, none, none⟩ (fun _ found => nomatch found)

structure Released where
  removed : Bool
  refs : List JsString
deriving DecidableEq

def Disk.releaseRef (disk : Disk) (hash docUrl : JsString) : Released × Disk :=
  let refs := disk.readRefs hash
  let next := refs.filter (· ≠ docUrl)
  if next.length = refs.length ∧ refs ≠ [] then (⟨false, refs⟩, disk)
  else if next ≠ [] then (⟨false, next⟩, disk.writeRefs hash next)
  else (⟨true, []⟩, disk.unlinkAll hash)

def Disk.finalizeMeta (disk : Disk) (hash : JsString) (size : JsNumber)
    (mimeType ext now : JsString) : MetaFile × Disk :=
  let metadata : MetaFile := ⟨hash, size, mimeType, ext, now⟩
  (metadata, disk.set hash { disk.files hash with metadata := some metadata }
    (by rintro _ ⟨⟩; rfl))

/-! ## Ingesting a stream -/

inductive Failure where
  | unavailable
  | tooLarge (limit : Nat)
  | mismatch (expected got : JsString)
deriving DecidableEq

def Failure.message : Failure → JsString
  | .unavailable => js "Blob store is not available"
  | .tooLarge limit => js "Blob exceeds the " ++ numberText (toNumber limit) ++ js " byte limit"
  | .mismatch expected got => js "Blob hash mismatch: expected " ++ expected ++ js ", got " ++ got

/-- `ext` is empty where the caller names none. -/
structure IngestOptions where
  mimeType : JsString
  ext : JsString
  docUrl : JsString
  maxBytes : Option Nat

structure IngestResult where
  metadata : MetaFile
  deduped : Bool
deriving DecidableEq

/-- `rename` of the scratch file to the object's path. -/
def Disk.place (disk : Disk) (hash : JsString) (bytes : Bytes) : Disk :=
  disk.set hash { disk.files hash with object := some bytes } (disk.named hash)

def ingestStream (sha256 : Sha256) (now : JsString) (disk : Disk) (bytes : Bytes)
    (options : IngestOptions) : Except Failure IngestResult × Disk :=
  match options.maxBytes.filter (· < bytes.length) with
  | some limit => (.error (.tooLarge limit), disk)
  | none =>
      let hash := sha256.hex bytes
      let size := sizeOfBytes bytes
      let ext := resolveExt options.mimeType options.ext
      if disk.has hash then
        let owned := (disk.addRef hash options.docUrl).2
        match owned.statBlob hash with
        | some existing => (.ok ⟨existing, true⟩, owned)
        | none =>
            let described := owned.finalizeMeta hash size options.mimeType ext now
            (.ok ⟨described.1, true⟩, described.2)
      else
        let placed := disk.place hash bytes
        let described := placed.finalizeMeta hash size options.mimeType ext now
        (.ok ⟨described.1, false⟩, (described.2.addRef hash options.docUrl).2)

/-! ## The request -/

structure CachePut where
  hash : JsString
  mimeType : JsString
  docUrl : JsString
  bytes : Bytes

/-- `blob:cache-put`, whose answer is the hash it stored. -/
def handle (sha256 : Sha256) (now : JsString) (store : Option Disk) (data : CachePut) :
    Except Failure JsString × Option Disk :=
  match store with
  | none => (.error .unavailable, none)
  | some disk =>
      match ingestStream sha256 now disk data.bytes ⟨data.mimeType, [], data.docUrl, none⟩ with
      | (.error failure, after) => (.error failure, some after)
      | (.ok ingested, after) =>
          let hash := ingested.metadata.hash
          if hash ≠ data.hash then
            (.error (.mismatch data.hash hash), some (after.releaseRef hash data.docUrl).2)
          else (.ok hash, some after)

end Tapes.Blobs
