import Tapes.Js.OrderedMap
import Tapes.Js.Text
import Tapes.Machine.Run
import Tapes.Machine.Table

namespace Tapes.Blobs

open Tapes.Js Tapes.Machine

/-! The blob store's files for one content hash, and the calls on it: one step for
each await, with the per-hash lock as a queue of calls. -/

abbrev CallId := Nat

/-- The content of the meta file that an ingest chooses. -/
structure BlobMeta where
  mimeType : JsString
  ext : JsString
deriving DecidableEq

/-- `copied` is a file that cannot be linked into the store, as across filesystems. -/
inductive Source where
  | stream
  | file
  | copied
deriving DecidableEq

/-- An ingest whose bytes are hashed, with the type and extension resolved. -/
structure Ingest where
  source : Source
  docUrl : JsString
  metadata : BlobMeta
deriving DecidableEq

/-- The files of a hash that an unlink removes. -/
inductive Piece where
  | object
  | metadata
  | refs
deriving DecidableEq

/-- A call between two of its steps, named for what it awaits. `joining`, `claiming`,
`addingRef`, `releasing` and `removing` await the lock. -/
inductive Call where
  | checking (ingest : Ingest)
  | discarding (ingest : Ingest)
  | joining (ingest : Ingest)
  | readingMeta (ingest : Ingest)
  | statting (ingest : Ingest) (existing : BlobMeta)
  | repairing (ingest : Ingest)
  | preparing (ingest : Ingest)
  | placing (ingest : Ingest)
  | describing (ingest : Ingest) (deduped : Bool)
  | claiming (ingest : Ingest) (deduped : Bool)
  | addingRef (docUrl : JsString)
  | releasing (docUrl : JsString)
  | removing
  | unlinking (owner : Option JsString) (existed : Bool) (left : List Piece)
deriving DecidableEq

inductive Result where
  | ingested (docUrl : JsString) (metadata : BlobMeta) (deduped : Bool)
  | refs (refs : List JsString)
  | released (removed : Bool) (refs : List JsString)
  | removed (existed : Bool)
deriving DecidableEq

/-- `lock` is the queue of calls for the hash, its head the holder.  `owed` are the
documents whose ingest has succeeded, with no `releaseRef` of theirs and no `remove`
begun since. -/
structure Store where
  object : Bool
  metadata : Option BlobMeta
  refs : Option (List JsString)
  lock : List CallId
  calls : Table CallId Call
  owed : List JsString
  results : List (CallId × Result)

/-- Whatever an earlier run of the process left on disk. -/
def Store.opened (object : Bool) (metadata : Option BlobMeta) (refs : Option (List JsString)) : Store :=
  ⟨object, metadata, refs, [], .empty, [], []⟩

def readRefs (store : Store) : List JsString := store.refs.getD []

def Store.park (store : Store) (call : CallId) (phase : Call) : Store :=
  { store with calls := store.calls.put call phase }

def Store.return (store : Store) (call : CallId) (result : Result) : Store :=
  { store with
    calls := store.calls.remove call
    results := store.results ++ [(call, result)] }

/-- An ingest returns: its document is owed the bytes from now on. -/
def Store.succeed (store : Store) (call : CallId) (ingest : Ingest) (metadata : BlobMeta)
    (deduped : Bool) : Store :=
  { store.return call (.ingested ingest.docUrl metadata deduped) with
    owed := addTo store.owed ingest.docUrl }

/-- A call that joins the queue for the lock. -/
def Store.enqueue (store : Store) (call : CallId) (phase : Call) : Store :=
  { store.park call phase with lock := store.lock ++ [call] }

def Store.unlock (store : Store) : Store := { store with lock := store.lock.tail }

/-- `addRef` under the lock, which alone writes the refs file. -/
def Store.addRef (store : Store) (docUrl : JsString) : Store :=
  { store with refs := some (addTo (readRefs store) docUrl) }

/-- `releaseRef` under the lock. -/
def releaseRef (store : Store) (call : CallId) (docUrl : JsString) : Store :=
  let refs := readRefs store
  let next := refs.filter (· ≠ docUrl)
  if next.length = refs.length ∧ refs ≠ [] then
    (store.return call (.released false refs)).unlock
  else if next ≠ [] then
    ({ store with refs := some next }.return call (.released false next)).unlock
  else store.park call (.unlinking (some docUrl) true [.object, .metadata, .refs])

def resume (store : Store) (call : CallId) : Call → Option Store
  | .checking ingest =>
      if store.object then
        match ingest.source with
        | .stream => some (store.park call (.discarding ingest))
        | .file | .copied => some (store.enqueue call (.joining ingest))
      else some (store.park call (.preparing ingest))
  | .discarding ingest => some (store.enqueue call (.joining ingest))
  | .joining ingest =>
      if store.lock.head? = some call then
        some ((store.addRef ingest.docUrl).park call (.readingMeta ingest)).unlock
      else none
  | .readingMeta ingest =>
      match store.metadata with
      | some existing => some (store.park call (.statting ingest existing))
      | none => some (store.park call (.repairing ingest))
  | .statting ingest existing =>
      if store.object then some (store.succeed call ingest existing true)
      else some (store.park call (.repairing ingest))
  | .repairing ingest =>
      some ({ store with metadata := some ingest.metadata }.succeed call ingest ingest.metadata true)
  | .preparing ingest => some (store.park call (.placing ingest))
  | .placing ingest =>
      -- A rename replaces an object that is there; a link finds it (EEXIST).
      let deduped := store.object && ingest.source = .file
      some ({ store with object := true }.park call (.describing ingest deduped))
  | .describing ingest deduped =>
      some ({ store with metadata := some ingest.metadata }.enqueue call (.claiming ingest deduped))
  | .claiming ingest deduped =>
      if store.lock.head? = some call then
        some ((store.addRef ingest.docUrl).succeed call ingest ingest.metadata deduped).unlock
      else none
  | .addingRef docUrl =>
      if store.lock.head? = some call then
        let added := store.addRef docUrl
        some (added.return call (.refs (readRefs added))).unlock
      else none
  | .releasing docUrl =>
      if store.lock.head? = some call then some (releaseRef store call docUrl) else none
  | .removing =>
      if store.lock.head? = some call then
        some (store.park call (.unlinking none store.object [.object, .metadata, .refs]))
      else none
  | .unlinking owner existed left =>
      if left = [] then
        some (store.return call
          (if owner.isSome then .released true [] else .removed existed)).unlock
      else none

def Store.drop (store : Store) : Piece → Store
  | .object => { store with object := false }
  | .metadata => { store with metadata := none }
  | .refs => { store with refs := none }

/-- One of the removals an unlink has under way. -/
def removePiece (store : Store) (call : CallId) (piece : Piece) : Call → Option Store
  | .unlinking owner existed left =>
      if piece ∈ left then
        some ((store.drop piece).park call (.unlinking owner existed (left.filter (· ≠ piece))))
      else none
  | _ => none

/-- An ingest that fails outside the lock leaves what it has put in place. -/
def failIngest (store : Store) (call : CallId) : Call → Option Store
  | .checking _ | .discarding _ | .readingMeta _ | .statting _ _ | .repairing _ | .preparing _
  | .placing _ | .describing _ _ => some { store with calls := store.calls.remove call }
  | _ => none

inductive Action where
  | ingest (call : CallId) (ingest : Ingest)
  | addRef (call : CallId) (docUrl : JsString)
  | releaseRef (call : CallId) (docUrl : JsString)
  | remove (call : CallId)
  | resume (call : CallId)
  | removePiece (call : CallId) (piece : Piece)
  | fail (call : CallId)

def start (store : Store) (call : CallId) (begin : Store → Store) : Option Store :=
  if (store.calls call).isNone then some (begin store) else none

def step (store : Store) : Action → Option Store
  | .ingest call ingest => start store call fun store => store.park call (.checking ingest)
  | .addRef call docUrl => start store call fun store => store.enqueue call (.addingRef docUrl)
  | .releaseRef call docUrl =>
      start store call fun store =>
        { store.enqueue call (.releasing docUrl) with owed := store.owed.filter (· ≠ docUrl) }
  | .remove call =>
      start store call fun store => { store.enqueue call .removing with owed := [] }
  | .resume call => (store.calls call).bind (resume store call)
  | .removePiece call piece => (store.calls call).bind (removePiece store call piece)
  | .fail call => (store.calls call).bind (failIngest store call)

end Tapes.Blobs
