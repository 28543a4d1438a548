import Tapes.Blobs.BlobStore
import Tapes.Js.JsonParsed
import Tapes.Provenance.Codec
import Tapes.Uploads.StatementUpload

namespace Tapes.Uploads

open Tapes.Js Tapes.Provenance Tapes.Machine
open Tapes.Blobs (BlobMeta CallId Ingest Store)

/-! Every writer of the host's blob store: what each one checks of the bytes it stores, and
the type it stores them under. -/

/-! ## Types and extensions -/

def mimeTypeByExtension : List (JsString × JsString) :=
  [(js ".wav", js "audio/wav"), (js ".mp3", js "audio/mpeg"), (js ".ogg", js "audio/ogg"),
    (js ".flac", js "audio/flac"), (js ".mp4", js "audio/mp4"), (js ".m4a", js "audio/mp4"),
    (js ".webm", js "audio/webm")]

def extensionByMimeType : List (JsString × JsString) :=
  [(js "audio/wav", js ".wav"), (js "audio/x-wav", js ".wav"), (js "audio/wave", js ".wav"),
    (js "audio/mpeg", js ".mp3"), (js "audio/ogg", js ".ogg"), (js "audio/flac", js ".flac"),
    (js "audio/mp4", js ".mp4"), (js "audio/webm", js ".webm")]

/-- `ext` is the lower-case extension of the file's path. -/
def mimeTypeOfFile (ext : JsString) : JsString :=
  (mimeTypeByExtension.lookup ext).getD (js "application/octet-stream")

def resolveExt (mimeType fallbackExt : JsString) : JsString :=
  match fallbackExt with
  | [] => (extensionByMimeType.lookup mimeType).getD (js ".bin")
  | 0x2E :: _ => fallbackExt
  | _ => 0x2E :: fallbackExt

/-! ## Writers -/

/-- Bytes for the store, and the ingest that puts them there. -/
structure Offer where
  bytes : Bytes
  ingest : Ingest
deriving DecidableEq

def streamed (bytes : Bytes) (mimeType ext docUrl : JsString) : Offer :=
  ⟨bytes, .stream, docUrl, mimeType, resolveExt mimeType ext⟩

@[simp] theorem streamed_bytes (bytes : Bytes) (mimeType ext docUrl : JsString) :
    (streamed bytes mimeType ext docUrl).bytes = bytes := rfl

/-- A statement as its canonical JSON, so that its store hash is its address. -/
def storeStatement (signed : Signed JsValue) (docUrl : JsString) : Option Offer :=
  (statementBytes signed).map fun bytes => streamed bytes statementMimeType (js ".json") docUrl

/-- `view` is what the checks find when they read the store. -/
def handleStatementUpload (platform : Platform) (view : StoreView) (bytes : Bytes)
    (docUrl : JsString) (forClaim : Option JsString) : Option Offer :=
  if bytes.length ≤ maxStatementBytes then
    match checkUploadedStatement platform bytes view forClaim with
    | .error _ => none
    | .ok _ => some (streamed bytes statementMimeType (js ".json") docUrl)
  else none

/-- `contentType` is the media type of the header, trimmed and in lower case. -/
def handleUpload (platform : Platform) (view : StoreView) (contentType : JsString) (bytes : Bytes)
    (docUrl : JsString) (forClaim : Option JsString) : Option Offer :=
  let isStatement := contentType = statementMimeType
  if ¬ isStatement ∧ (js "audio/").isPrefixOf contentType = false then none
  else if docUrl = [] then none
  else if isStatement then handleStatementUpload platform view bytes docUrl forClaim
  else some (streamed bytes contentType [] docUrl)

/-- The claim sent with an upload, if it holds. -/
def checkedClaim (platform : Platform) (encoded : JsString) (received : BlobDescriptor) :
    Option (Signed JsValue × RecordingClaim) :=
  (decodeSignedStatement encoded).bind fun signed =>
    match checkRecordingClaim platform signed received with
    | .error _ => none
    | .ok claim => some (signed, claim.payload)

/-- The certificate or vouch to store with the claim: the one it names, for its device key. -/
def certificateFor (platform : Platform) (claim : RecordingClaim) (encoded : JsString) :
    Option (Signed JsValue) :=
  (decodeSignedStatement encoded).bind fun signed =>
    match checkDeviceLink platform signed with
    | some (.ok link) =>
        if (statementBytes signed).map (sha256Hex platform) = claim.deviceCert ∧
            claim.deviceCert.isSome ∧ link.deviceKey = claim.deviceKey then some signed
        else none
    | _ => none

/-- A statement that the host has just signed, or its own receipt for a claim sent again,
which it verifies with its own key. -/
structure HostStatement (platform : Platform) (hostKeys : List JsString) where
  signed : Signed JsValue
  key : JsString
  own : key ∈ hostKeys
  plain : Parsed signed.payload
  valid : verifyStatement platform signed key = true
  type : statementTypeOf signed ∈ [some .receipt, some .session, some .revocation]

variable (platform : Platform) (hostKeys : List JsString)

inductive Write where
  | upload (contentType : JsString) (bytes : Bytes) (docUrl : JsString) (forClaim : Option JsString)
      (view : StoreView)
  | claim (encoded : JsString) (received : BlobDescriptor) (docUrl : JsString)
  | certificate (encoded : JsString) (received : BlobDescriptor) (certificate docUrl : JsString)
  | hostStatement (statement : HostStatement platform hostKeys) (docUrl : JsString)
  | file (ext : JsString) (copied : Bool) (bytes : Bytes) (docUrl : JsString)
  | cachePut (mimeType : JsString) (bytes : Bytes) (docUrl : JsString)

variable {platform hostKeys}

/-- What the writer gives the store, if its checks pass. -/
def offered : Write platform hostKeys → Option Offer
  | .upload contentType bytes docUrl forClaim view =>
      handleUpload platform view contentType bytes docUrl forClaim
  | .claim encoded received docUrl =>
      (checkedClaim platform encoded received).bind fun (signed, _) =>
        storeStatement signed docUrl
  | .certificate encoded received certificate docUrl =>
      (checkedClaim platform encoded received).bind fun (_, claim) =>
        (certificateFor platform claim certificate).bind (storeStatement · docUrl)
  | .hostStatement statement docUrl => storeStatement statement.signed docUrl
  | .file ext copied bytes docUrl =>
      some ⟨bytes, if copied then .copied else .file, docUrl, mimeTypeOfFile ext, ext⟩
  | .cachePut mimeType bytes docUrl => some (streamed bytes mimeType [] docUrl)

/-! ## The host -/

/-- The files of each hash and the calls on it. -/
abbrev Host := JsString → Store

/-- A new process finds the files as they are, and no calls. -/
def reopened (store : Store) : Store := { store with lock := [], calls := .empty }

def emptyHost : Host := fun _ => .opened false none none

variable (platform hostKeys) in
inductive HostAction where
  | write (call : CallId) (write : Write platform hostKeys)
  | store (hash : JsString) (action : Blobs.Action)
  | restart

/-- The ingest of an offer begins at the address of its bytes. `content` says which bytes have
an address: two different ones with one digest are never offered. -/
def beginIngest (platform : Platform) (content : JsString → Bytes) (host : Host) (call : CallId)
    (offer : Offer) : Option Host :=
  let hash := sha256Hex platform offer.bytes
  if content hash = offer.bytes then
    (Blobs.step (host hash) (.ingest call offer.ingest)).map (Function.update host hash)
  else none

def hostStep (content : JsString → Bytes) (host : Host) :
    HostAction platform hostKeys → Option Host
  | .write call write => (offered write).bind (beginIngest platform content host call)
  | .store _ (.ingest _ _) => none
  | .store hash action => (Blobs.step (host hash) action).map (Function.update host hash)
  | .restart => some fun hash => reopened (host hash)

/-- The store as a check reads it. -/
def Host.view (content : JsString → Bytes) (host : Host) : StoreView where
  object hash := if (host hash).object then some (content hash) else none
  mimeType hash := (host hash).metadata.map BlobMeta.mimeType

section

variable {content : JsString → Bytes} {host next : Host} {action : HostAction platform hostKeys}

/-- A step is one of one hash's store, where an ingest is one that a writer offers, or a
restart. -/
theorem hostStep_cases (taken : hostStep content host action = some next) :
    (∃ hash storeAction store, Blobs.step (host hash) storeAction = some store ∧
      next = Function.update host hash store ∧
      ∀ call ingest, storeAction = .ingest call ingest →
        ∃ write bytes, action = .write call write ∧ offered write = some ⟨bytes, ingest⟩ ∧
          sha256Hex platform bytes = hash ∧ content hash = bytes) ∨
    (action = .restart ∧ next = fun hash => reopened (host hash)) := by
  cases action with
  | write call write =>
      obtain ⟨⟨bytes, ingest⟩, offers, began⟩ := Option.bind_eq_some_iff.mp taken
      simp only [beginIngest] at began
      split at began
      · rename_i named
        obtain ⟨store, stepped, rfl⟩ := Option.map_eq_some_iff.mp began
        refine .inl ⟨_, _, store, stepped, rfl, ?_⟩
        intro other otherIngest same
        cases same
        exact ⟨write, bytes, rfl, offers, rfl, named⟩
      · cases began
  | store hash action =>
      cases action with
      | ingest call ingest => cases taken
      | addRef | releaseRef | remove | resume | removePiece | fail =>
          obtain ⟨store, stepped, rfl⟩ := Option.map_eq_some_iff.mp taken
          refine .inl ⟨hash, _, store, stepped, rfl, ?_⟩
          intro call ingest same
          cases same
  | restart => exact .inr ⟨rfl, (Option.some.inj taken).symm⟩

end

end Tapes.Uploads
