import Tapes.Blobs.BlobHttp
import Tapes.Js.Uri

namespace Tapes.Server

open Tapes.Js
open Tapes.Blobs (corsHeaders contentLength)

/-! Requests and responses of the sync server, and what its routes share.

A handler throws or returns, and what it has sent by then is sent.
-/

/-! ## Requests and responses -/

/-- A body, as far as it comes, and whether the client hangs up then. -/
structure RequestBody where
  bytes : Bytes
  broken : Bool

/-- `mediaType` is the media type of the content type, trimmed and in lower case. -/
structure Request where
  url : Option JsString
  method : Option JsString
  authorization : Option JsString
  mediaType : JsString
  recordingUrl : Option JsString
  range : Option JsString
  body : RequestBody

/-- The parts of a parsed URL that are read. -/
structure Url where
  pathname : JsString
  query : JsString

def Url.param (url : Url) (name : JsString) : Option JsString := getParam (parseQuery url.query) name

inductive Thrown where
  | invalidUrl
  | malformedUri
  | headersSent
  | blobTooLarge (limit : Nat)
  | failed

inductive Body where
  | empty
  | text (content : JsString)
  | json (value : JsValue)
  | bytes (content : Bytes)

/-- How a response ends. `served` is the end with a static file. -/
inductive Finish where
  | ended (body : Body)
  | served (path : JsString) (content : Bytes)
  | destroyed

structure Head where
  status : Nat
  headers : List (JsString × JsString)

/-- `headers` are those set before the head is written. -/
structure ServerResponse where
  headers : List (JsString × JsString)
  heads : List Head
  finished : List Finish

def ServerResponse.fresh : ServerResponse := ⟨[], [], []⟩

abbrev Handler (α : Type) := EStateM Thrown ServerResponse α

abbrev RouteHandler := Request → Handler Bool

/-! ## Writing a response -/

/-- A second head throws. -/
def writeHead (status : Nat) (headers : List (JsString × JsString)) : Handler Unit := do
  let response ← get
  if response.heads = [] then
    set { response with heads := [⟨status, response.headers ++ headers⟩] }
  else throw .headersSent

def setHeader (name value : JsString) : Handler Unit :=
  modify fun response => { response with headers := response.headers ++ [(name, value)] }

def finish (how : Finish) : Handler Unit :=
  modify fun response => { response with finished := response.finished ++ [how] }

structure Reply where
  status : Nat
  headers : List (JsString × JsString)
  body : Body

def send (reply : Reply) : Handler Unit := do
  writeHead reply.status reply.headers
  finish (.ended reply.body)

def contentType : JsString := js "Content-Type"

def jsonType : JsString × JsString := (contentType, js "application/json; charset=utf-8")

def sendJson (status : Nat) (value : JsValue) : Handler Unit :=
  send ⟨status, corsHeaders ++ [jsonType,
    (contentLength, numberText (toNumber (utf8Encode (stringify value)).length))], .json value⟩

def sendStatus (status : Nat) : Handler Unit := send ⟨status, corsHeaders, .empty⟩

def errorBody (message : JsString) : JsValue := .object [(js "error", .string message)]

def sendError (status : Nat) (message : JsString) : Handler Unit := sendJson status (errorBody message)

/-- An operation outside of the server, which may throw. -/
def call (answer : Option α) : Handler α :=
  match answer with
  | some value => pure value
  | none => throw .failed

/-! ## What every route does first -/

def Request.target (request : Request) : JsString := request.url.getD (js "/")

/-- `new URL(request.url ?? '/', 'http://localhost')`. -/
def newUrl (parseUrl : JsString → Option Url) (request : Request) : Handler Url :=
  match parseUrl request.target with
  | some url => pure url
  | none => throw .invalidUrl

def Request.verb (request : Request) : JsString := request.method.getD (js "GET")

def timingSafeMatch (left right : JsString) : Bool := utf8Encode left = utf8Encode right

def bearer : JsString := js "Bearer "

def isAuthorized (request : Request) (url : Url) (token : Option JsString) : Bool :=
  match token with
  | none | some [] => true
  | some token =>
      match request.authorization.filter (bearer.isPrefixOf ·) with
      | some header => timingSafeMatch (header.drop bearer.length) token
      | none => (url.param (js "t")).any (timingSafeMatch · token)

/-- `readStatementBody`. -/
def readBody (body : RequestBody) (limit : Nat) : Handler Bytes :=
  if limit < body.bytes.length then throw (.blobTooLarge limit)
  else if body.broken then throw .failed
  else pure body.bytes

/-- Undefined for a body that is too large, no JSON or no object. -/
def readJsonBody (body : RequestBody) (limit : Nat) : Handler (Option JsValue) :=
  tryCatch
    (do
      let bytes ← readBody body limit
      return (parse (utf8Decode bytes)).filter JsValue.isObjectLike)
    fun error =>
      match error with
      | .blobTooLarge _ => pure none
      | other => throw other

end Tapes.Server
