import Tapes.Js.RankSort
import Tapes.Uploads.BlobHost

namespace Tapes.Uploads

open Tapes.Js Tapes.Provenance
open Tapes.Blobs (BlobMeta)

/-! `replicateBlob`: the audio of a recording and then its statements, sent to a host. -/

/-! ## The statements in the order they are sent -/

/-- `payload` is undefined where the bytes have none. -/
structure Fetched where
  hash : JsString
  bytes : Bytes
  payload : JsValue

/-- `value ?? undefined`. -/
def orUndefined : JsValue → JsValue
  | .null => .undefined
  | value => value

/-- Of bytes that are text. -/
def readPayload (bytes : Bytes) : JsValue :=
  match (utf8DecodeFatal bytes).bind parse with
  | some value => orUndefined (value.get (js "payload"))
  | none => .undefined

def hasPayloadType (payload : JsValue) (type : JsString) : Bool :=
  (payload.get (js "type")).string? = some type

def isDeviceLink (payload : JsValue) : Bool :=
  hasPayloadType payload deviceCertificateType || hasPayloadType payload deviceVouchType

/-- What each statement has to follow. -/
def rank (payload : JsValue) : Nat :=
  if hasPayloadType payload recordingClaimType then 0
  else if isDeviceLink payload then 1
  else if hasPayloadType payload deviceRevocationType then 3
  else 2

def Fetched.names (fetched : Fetched) (hash : JsString) : Bool :=
  hasPayloadType fetched.payload recordingClaimType &&
    (fetched.payload.get (js "deviceCert")).string? = some hash

/-- The first claim that names the link. -/
def claimNaming (fetched : List Fetched) (hash : JsString) : Option JsString :=
  (fetched.find? fun statement => statement.names hash).map Fetched.hash

def fetchAll (source : JsString → Option Bytes) (hashes : List JsString) : List Fetched :=
  hashes.filterMap fun hash => (source hash).map fun bytes => ⟨hash, bytes, readPayload bytes⟩

/-- The statements that could be fetched, in the order a host will take them, each certificate
or vouch with the address of a claim that names it. The sort is in place. -/
def fetchStatements (source : JsString → Option Bytes) (hashes : List JsString) :
    List (Fetched × Option JsString) :=
  let sorted := (fetchAll source hashes).insertionSort fun left right =>
    rank left.payload ≤ rank right.payload
  sorted.map fun statement =>
    (statement, if isDeviceLink statement.payload then claimNaming sorted statement.hash else none)

/-! ## The host they are sent to -/

/-- No call but this one is under way, so the ingest is a single step. -/
def ingestStream (platform : Platform) (view : StoreView) (offer : Offer) : StoreView :=
  let hash := sha256Hex platform offer.bytes
  if (view.object hash).isSome then
    if (view.mimeType hash).isSome then view
    else { view with
      mimeType := Function.update view.mimeType hash (some offer.ingest.metadata.mimeType) }
  else
    { object := Function.update view.object hash (some offer.bytes)
      mimeType := Function.update view.mimeType hash (some offer.ingest.metadata.mimeType) }

/-- The host after an upload that it takes. -/
def copyBlob (platform : Platform) (docUrl : JsString) (view : StoreView) (mimeType : JsString)
    (bytes : Bytes) (forClaim : Option JsString) : Option StoreView :=
  (handleUpload platform view mimeType bytes docUrl forClaim).map (ingestStream platform view)

def emptyView : StoreView := ⟨fun _ => none, fun _ => none⟩

/-- A recording as its document lists it, with statements that can all be fetched. `mimeType`
is the audio's type as a host reads it. -/
structure Recording (platform : Platform) where
  audio : Bytes
  mimeType : JsString
  docUrl : JsString
  hashes : List JsString
  source : JsString → Option Bytes
  served : ∀ hash ∈ hashes, ∃ bytes signed, source hash = some bytes ∧
    sha256Hex platform bytes = hash ∧ IsStatement bytes signed

variable {platform : Platform}

def copyStatement (platform : Platform) (docUrl : JsString) (view : StoreView)
    (statement : Fetched × Option JsString) : StoreView :=
  (copyBlob platform docUrl view statementMimeType statement.1.bytes statement.2).getD view

/-- What an empty host holds afterwards. Audio above the host's limit is refused. -/
def replicateBlob (maxBlobBytes : Nat) (recording : Recording platform) : StoreView :=
  let copied :=
    if maxBlobBytes < recording.audio.length then none
    else copyBlob platform recording.docUrl emptyView recording.mimeType recording.audio none
  match copied with
  | none => emptyView
  | some view =>
      (fetchStatements recording.source recording.hashes).foldl
        (copyStatement platform recording.docUrl) view

end Tapes.Uploads
