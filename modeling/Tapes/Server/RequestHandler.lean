import Tapes.Pairing.Fingerprint
import Tapes.Server.Routes

namespace Tapes.Server

open Tapes.Js
open Tapes.Pairing (toLowerCase)

/-! The request handler of the sync server: the routes in their order, then the health check or the
built web client. -/

/-! ## Static files -/

/-- No unit beyond ASCII is lowered to a unit of these extensions. -/
def staticMimeTypes : List (JsString × JsString) :=
  [(js ".html", js "text/html; charset=utf-8"), (js ".js", js "text/javascript; charset=utf-8"),
    (js ".mjs", js "text/javascript; charset=utf-8"), (js ".css", js "text/css; charset=utf-8"),
    (js ".json", js "application/json; charset=utf-8"),
    (js ".map", js "application/json; charset=utf-8"), (js ".wasm", js "application/wasm"),
    (js ".svg", js "image/svg+xml"), (js ".png", js "image/png"), (js ".jpg", js "image/jpeg"),
    (js ".jpeg", js "image/jpeg"), (js ".gif", js "image/gif"), (js ".webp", js "image/webp"),
    (js ".ico", js "image/x-icon"), (js ".woff", js "font/woff"), (js ".woff2", js "font/woff2"),
    (js ".ttf", js "font/ttf"), (js ".txt", js "text/plain; charset=utf-8"),
    (js ".webmanifest", js "application/manifest+json")]

def staticMimeType (target : JsString) : JsString :=
  (staticMimeTypes.lookup (toLowerCase (Path.extname target))).getD (js "application/octet-stream")

/-- Every read of a request has a disk of its own: a file may come or go between them. -/
abbrev Disk := JsString → Option Bytes

def serve (disk : Disk) (target : JsString) : Handler Unit := do
  let data ← call (disk target)
  writeHead 200 [(contentType, staticMimeType target)]
  finish (.served target data)

def indexPath (root : JsString) : JsString := Path.join [root, js "index.html"]

/-- Guards against path traversal outside the served directory. -/
def filePath (root requestedPath : JsString) : JsString :=
  let candidate := Path.join [root, requestedPath]
  if candidate = root ∨ (root ++ [Path.slash]).isPrefixOf candidate then candidate else indexPath root

def plainText : JsString × JsString := (contentType, js "text/plain")

/-- A missing file, a directory or a route of the single page falls back to the index. -/
def serveOrFallBack (first second : Disk) (root requestedPath : JsString) : Handler Unit :=
  tryCatch (serve first (filePath root requestedPath)) fun _ =>
    tryCatch (serve second (indexPath root)) fun _ =>
      send ⟨404, [plainText], .text (js "Not found")⟩

def serveWebClient (first second : Disk) (root : JsString) (parseUrl : JsString → Option Url)
    (request : Request) : Handler Unit := do
  let url ← newUrl parseUrl request
  match decodeURIComponent url.pathname with
  | none => throw .malformedUri
  | some decoded => serveOrFallBack first second root (Path.normalize decoded)

/-! ## The handler -/

def tryRoutes (request : Request) : List RouteHandler → Handler Bool
  | [] => return false
  | route :: rest => do
      if ← route request then return true
      else tryRoutes request rest

/-- The server, and what it finds on the disk during the request. -/
structure SyncServer where
  webClientPath : Option JsString
  blobStore : Option BlobStore
  eventStore : Option EventStore
  challenge : JsString
  vouching : Option Vouching
  passkeyRecords : Option PasskeyRecords
  certificate : Certificate
  pairingToken : Option JsString
  directory : Path.WorkingDirectory
  firstRead : Disk
  secondRead : Disk

def createRequestHandler (server : SyncServer) (parseUrl : JsString → Option Url)
    (routes : List RouteHandler) (request : Request) : Handler Unit := do
  if ← tryRoutes request routes then return ()
  else
    match server.webClientPath with
    | none | some [] => send ⟨200, [plainText], .text (js "tapes-sync-server")⟩
    | some webClientPath =>
        serveWebClient server.firstRead server.secondRead
          (Path.resolve server.directory webClientPath) parseUrl request

def SyncServer.routes (server : SyncServer) (parseUrl : JsString → Option Url) : List RouteHandler :=
  let token := server.pairingToken
  [match server.blobStore with
    | some store => handleBlobRequest store token parseUrl
    | none => unavailableBlobRequestHandler parseUrl,
    match server.eventStore with
    | some store => handleEventRequest store token parseUrl
    | none => unavailableEventRequestHandler parseUrl,
    handleSyncChallengeRequest server.challenge token parseUrl] ++
  (server.vouching.map fun vouching => handleVouchRequest vouching token parseUrl).toList ++
  (server.passkeyRecords.map fun records => handlePasskeyRecordRequest records token parseUrl).toList ++
  [handleCaRequest server.certificate parseUrl]

/-- What the server does with a request. -/
def SyncServer.respond (server : SyncServer) (parseUrl : JsString → Option Url) (request : Request) :
    EStateM.Result Thrown ServerResponse Unit :=
  (createRequestHandler server parseUrl (server.routes parseUrl) request).run .fresh

end Tapes.Server
