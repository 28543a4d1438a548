import Tapes.Js.PosixPath
import Tapes.Server.Http
import Tapes.Uploads.StatementUpload

namespace Tapes.Server

open Tapes.Js
open Tapes.Blobs (StoredBlob)
open Tapes.Provenance (statementMimeType)
open Tapes.Uploads (isValidBlobHash maxStatementBytes)

/-! The `/blobs` routes, with and without a store. An answer of the store that is `none` is an
operation that throws. -/

def blobPathPrefix : JsString := js "/blobs"

def isBlobPath (pathname : JsString) : Bool :=
  pathname = blobPathPrefix || (blobPathPrefix ++ [Path.slash]).isPrefixOf pathname

def defaultMaxBlobBytes : Nat := 512 * 1024 * 1024

def defaultMaxStoreBytes : Nat := 32 * 1024 * 1024 * 1024

/-- What the store's `ingestStream` returns. -/
structure Ingested where
  hash : JsString
  size : JsNumber
  mimeType : JsString
  ext : JsString
  deduped : Bool

/-- What is asked of `ingestStream`. -/
structure IngestOptions where
  mimeType : JsString
  ext : Option JsString
  docUrl : JsString
  maxBytes : Option Nat

structure BlobStore where
  totalBytes : Option Nat
  has : JsString → Option Bool
  stat : JsString → Option (Option StoredBlob)
  releaseRef : JsString → JsString → Option Unit
  ingestStream : RequestBody → IngestOptions → Except Thrown Ingested
  /-- The client's claim and the statements stored with it. -/
  verifyClaimOnIngest : Request → Ingested → Option (JsValue × JsValue)
  /-- The problem, if there is one. -/
  checkUploadedStatement : Bytes → Option JsString → Option (Option JsString)
  /-- The read stream fails or the client hangs up before the body is sent. -/
  breaksOff : Bool

def BlobStore.ingest (store : BlobStore) (body : RequestBody) (options : IngestOptions) :
    Handler Ingested :=
  match store.ingestStream body options with
  | .ok ingested => pure ingested
  | .error error => throw error

def ingestedMembers (ingested : Ingested) : List (JsString × JsValue) :=
  [(js "hash", .string ingested.hash), (js "size", .number ingested.size),
    (js "mimeType", .string ingested.mimeType), (js "ext", .string ingested.ext),
    (js "deduped", .boolean ingested.deduped)]

def tooLargeMessage (limit : Nat) : JsString :=
  js "Blob exceeds the " ++ numberText (toNumber limit) ++ js " byte limit"

/-- A body that is too large is answered, anything else goes on. -/
def answerTooLarge (error : Thrown) : Handler Unit :=
  match error with
  | .blobTooLarge limit => sendError 413 (tooLargeMessage limit)
  | other => throw other

def handleStatementUpload (store : BlobStore) (request : Request) (docUrl : JsString)
    (forClaim : Option JsString) : Handler Unit := do
  let bytes ← tryCatch (some <$> readBody request.body maxStatementBytes) fun error => do
    answerTooLarge error
    return none
  match bytes with
  | none => pure ()
  | some bytes =>
      match ← call (store.checkUploadedStatement bytes forClaim) with
      | some problem =>
          sendJson 422 (.object [(js "error", .string (js "Statement not stored: " ++ problem)),
            (js "problem", .string problem)])
      | none =>
          let ingested ← store.ingest ⟨bytes, false⟩ ⟨statementMimeType, some (js ".json"), docUrl, none⟩
          sendJson (if ingested.deduped then 200 else 201) (.object (ingestedMembers ingested))

def ingestAudio (store : BlobStore) (request : Request) (docUrl : JsString) : Handler Unit := do
  let ingested ← store.ingest request.body
    ⟨request.mediaType, none, docUrl, some defaultMaxBlobBytes⟩
  let (claim, statements) ← call (store.verifyClaimOnIngest request ingested)
  sendJson (if ingested.deduped then 200 else 201)
    (.object (ingestedMembers ingested ++ [(js "claim", claim), (js "statements", statements)]))

def handleUpload (store : BlobStore) (request : Request) (url : Url) : Handler Unit :=
  let isStatement := request.mediaType = statementMimeType
  if ¬ isStatement ∧ (js "audio/").isPrefixOf request.mediaType = false then
    sendError 415 (js "Expected an audio/* or " ++ statementMimeType ++ js " Content-Type")
  else
    match (url.param (js "doc")).or request.recordingUrl with
    | none | some [] => sendError 400 (js "Missing owning document url")
    | some docUrl => do
        let total ← call store.totalBytes
        if defaultMaxStoreBytes ≤ total then sendError 507 (js "Blob store is full")
        else if isStatement then
          handleStatementUpload store request docUrl (url.param (js "for"))
        else tryCatch (ingestAudio store request docUrl) answerTooLarge

/-- Only these answers have the blob for a body. -/
def isPiped (response : Blobs.Response) : Blobs.Method → Bool
  | .get => response.status = 200 || response.status = 206
  | .head => false

/-- A read that throws, fails or is broken off leaves the response destroyed behind its head. -/
def handleDownload (store : BlobStore) (request : Request) (hash : JsString) (method : Blobs.Method) :
    Handler Unit := do
  let stored ← call (store.stat hash)
  let response := Blobs.handleDownload stored request.range method
  writeHead response.status response.headers
  if response.torn ∨ (isPiped response method ∧ store.breaksOff) then finish .destroyed
  else finish (.ended (.bytes response.sent))

def handleDelete (store : BlobStore) (url : Url) (hash : JsString) : Handler Unit :=
  match url.param (js "doc") with
  | none | some [] => sendError 400 (js "Missing owning document url")
  | some docUrl => do
      if ← call (store.has hash) then
        call (store.releaseRef hash docUrl)
        sendStatus 204
      else sendError 404 (js "Unknown blob")

def handleBlob (store : BlobStore) (request : Request) (url : Url) : Handler Unit :=
  if url.pathname = blobPathPrefix then
    if request.verb = js "POST" then handleUpload store request url
    else sendError 405 (js "Method not allowed")
  else
    match decodeURIComponent (url.pathname.drop (blobPathPrefix ++ [Path.slash]).length) with
    | none => throw .malformedUri
    | some hash =>
        if isValidBlobHash hash = false then sendError 400 (js "Malformed blob hash")
        else if request.verb = js "GET" then handleDownload store request hash .get
        else if request.verb = js "HEAD" then handleDownload store request hash .head
        else if request.verb = js "DELETE" then handleDelete store url hash
        else sendError 405 (js "Method not allowed")

/-- The end of a route that has failed. -/
def recover (message : JsString) : Handler Unit := do
  if (← get).heads = [] then sendError 500 message
  else finish .destroyed

def handleBlobRequest (store : BlobStore) (token : Option JsString) (parseUrl : JsString → Option Url) :
    RouteHandler := fun request => do
  let url ← newUrl parseUrl request
  if isBlobPath url.pathname = false then return false
  else if request.verb = js "OPTIONS" then
    sendStatus 204
    return true
  else if isAuthorized request url token = false then
    sendError 401 (js "Unauthorized")
    return true
  else
    tryCatch (handleBlob store request url) fun _ => recover (js "Blob request failed")
    return true

def unavailableBlobRequestHandler (parseUrl : JsString → Option Url) : RouteHandler := fun request => do
  let url ← newUrl parseUrl request
  if isBlobPath url.pathname = false then return false
  else
    send ⟨503, [jsonType], .json (errorBody (js "Blob store not configured"))⟩
    return true

end Tapes.Server
