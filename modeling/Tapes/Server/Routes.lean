import Tapes.Server.BlobRoute

namespace Tapes.Server

open Tapes.Js
open Tapes.Blobs (corsHeaders contentLength)
open Tapes.Uploads (isHexUnit)

/-! The other routes of the sync server: events, challenges, the roster and its vouches, passkey
records and the root certificate. -/

/-! ## Events -/

def eventsPath : JsString := js "/events"

def aggregatesPath : JsString := js "/events/aggregates"

/-- `take` is the rate limiter's answer and `retryAfter` what it tells to wait. -/
structure EventStore where
  take : Bool
  retryAfter : JsString
  handleIngest : Request → Option Reply
  handleAggregates : Request → Option Reply

def handleEventRequest (store : EventStore) (token : Option JsString) (parseUrl : JsString → Option Url) :
    RouteHandler := fun request => do
  let url ← newUrl parseUrl request
  let isAggregates := url.pathname = aggregatesPath
  if ¬ isAggregates ∧ url.pathname ≠ eventsPath then return false
  else if request.verb = js "OPTIONS" then
    sendStatus 204
    return true
  else if isAuthorized request url token = false then
    sendError 401 (js "Unauthorized")
    return true
  else if ¬ (if isAggregates then request.verb = js "GET" ∨ request.verb = js "HEAD"
      else request.verb = js "POST") then
    sendError 405 (js "Method not allowed")
    return true
  else if store.take = false then
    let payload := errorBody (js "Too many event batches")
    send ⟨429, corsHeaders ++ [jsonType,
      (contentLength, numberText (toNumber (utf8Encode (stringify payload)).length)),
      (js "Retry-After", store.retryAfter)], .json payload⟩
    return true
  else
    tryCatch
      (do
        let reply ← call (if isAggregates then store.handleAggregates request
          else store.handleIngest request)
        send reply)
      fun _ => recover (js (if isAggregates then "Aggregate read failed" else "Event ingest failed"))
    return true

def unavailableEventRequestHandler (parseUrl : JsString → Option Url) : RouteHandler := fun request => do
  let url ← newUrl parseUrl request
  if url.pathname ≠ eventsPath ∧ url.pathname ≠ aggregatesPath then return false
  else
    send ⟨503, [jsonType], .json (errorBody (js "Event store not configured"))⟩
    return true

/-! ## Challenges -/

def syncChallengePath : JsString := js "/challenge"

def allow (methods : String) : List (JsString × JsString) := corsHeaders ++ [(js "Allow", js methods)]

def noStore : Handler Unit := setHeader (js "Cache-Control") (js "no-store")

def handleSyncChallengeRequest (challenge : JsString) (token : Option JsString)
    (parseUrl : JsString → Option Url) : RouteHandler := fun request => do
  let url ← newUrl parseUrl request
  if url.pathname ≠ syncChallengePath then return false
  else if request.verb = js "OPTIONS" then
    sendStatus 204
    return true
  else if request.verb ≠ js "GET" then
    send ⟨405, allow "GET,OPTIONS", .empty⟩
    return true
  else if isAuthorized request url token = false then
    sendError 401 (js "Unauthorized")
    return true
  else
    noStore
    sendJson 200 (.object [(js "challenge", .string challenge)])
    return true

/-! ## The roster and vouches -/

inductive VouchRoute where
  | roster
  | pinChange
  | requests
  | vouchState (address : JsString)
  | status (id : JsString)
  | pin (id : JsString)
deriving DecidableEq

def rosterPath : JsString := js "/people"

def pinChangePath : JsString := rosterPath ++ js "/pin"

def vouchesPath : JsString := js "/vouches"

def vouchStatePath : JsString := vouchesPath ++ js "/state"

/-- `[\w-]`. -/
def isIdUnit (unit : UInt16) : Bool :=
  (0x30 ≤ unit && unit ≤ 0x39) || (0x41 ≤ unit && unit ≤ 0x5A) || (0x61 ≤ unit && unit ≤ 0x7A) ||
    unit = 0x5F || unit = 0x2D

/-- What is behind a path and a slash. -/
def behind (path pathname : JsString) : Option JsString :=
  let front := path ++ [Path.slash]
  if front.isPrefixOf pathname then some (pathname.drop front.length) else none

/-- `^/vouches/state/([0-9a-f]{64})$`. -/
def matchState (pathname : JsString) : Option JsString :=
  (behind vouchStatePath pathname).filter fun address => address.length = 64 ∧ address.all isHexUnit

/-- `^/vouches/([\w-]+)(/pin)?$`. -/
def matchVouch (pathname : JsString) : Option VouchRoute :=
  match behind vouchesPath pathname with
  | none => none
  | some rest =>
      let id := rest.takeWhile isIdUnit
      if id = [] then none
      else if rest.drop id.length = [] then some (.status id)
      else if rest.drop id.length = js "/pin" then some (.pin id)
      else none

def matchRoute (pathname : JsString) : Option VouchRoute :=
  if pathname = rosterPath then some .roster
  else if pathname = pinChangePath then some .pinChange
  else if pathname = vouchesPath then some .requests
  else
    match matchState pathname with
    | some address => some (.vouchState address)
    | none => matchVouch pathname

/-- `answer` is what a post comes to: a join, a changed PIN, a request for a vouch or a PIN. -/
structure Vouching where
  roster : Option JsValue
  signedVouchState : JsString → Option (Option JsValue)
  status : JsString → Option (Option JsValue)
  answer : VouchRoute → JsValue → Option Reply

def VouchRoute.readOnly : VouchRoute → Bool
  | .status _ | .vouchState _ => true
  | _ => false

def VouchRoute.methods : VouchRoute → String
  | .roster => "GET,POST,OPTIONS"
  | .status _ | .vouchState _ => "GET,OPTIONS"
  | _ => "POST,OPTIONS"

def maxVouchBodyBytes : Nat := 16 * 1024

/-- What a GET reads, none where it reads nothing. -/
def Vouching.read (vouching : Vouching) : VouchRoute → Option (Handler Unit)
  | .roster => some do
      let people ← call vouching.roster
      sendJson 200 (.object [(js "people", people)])
  | .vouchState address => some do
      match ← call (vouching.signedVouchState address) with
      | none => sendError 404 (js "unknown-vouch")
      | some state => sendJson 200 state
  | .status id => some do
      match ← call (vouching.status id) with
      | none => sendError 404 (js "unknown-request")
      | some status => sendJson 200 status
  | _ => none

/-- A JSON body is read whole before it is answered. -/
def postJson (body : RequestBody) (limit : Nat) (malformed : Handler Unit)
    (answer : JsValue → Option Reply) : Handler Unit := do
  match ← readJsonBody body limit with
  | none => malformed
  | some value =>
      let reply ← call (answer value)
      send reply

def Vouching.post (vouching : Vouching) (request : Request) (route : VouchRoute) : Handler Unit :=
  postJson request.body maxVouchBodyBytes (sendError 400 (js "malformed")) (vouching.answer route)

def Vouching.handle (vouching : Vouching) (request : Request) (route : VouchRoute) : Handler Unit :=
  match if request.verb = js "GET" then vouching.read route else none with
  | some reading => reading
  | none =>
      if request.verb ≠ js "POST" ∨ route.readOnly then send ⟨405, allow route.methods, .empty⟩
      else vouching.post request route

def handleVouchRequest (vouching : Vouching) (token : Option JsString) (parseUrl : JsString → Option Url) :
    RouteHandler := fun request => do
  let url ← newUrl parseUrl request
  match matchRoute url.pathname with
  | none => return false
  | some route =>
      if request.verb = js "OPTIONS" then
        sendStatus 204
        return true
      else if isAuthorized request url token = false then
        sendError 401 (js "Unauthorized")
        return true
      else
        noStore
        vouching.handle request route
        return true

/-! ## Passkey records -/

def passkeyRecordsPath : JsString := js "/person-key-records"

def passkeyRecordFetchPath : JsString := passkeyRecordsPath ++ js "/fetch"

def maxPasskeyBodyBytes : Nat := 8 * 1024

structure PasskeyRecords where
  store : JsValue → Option Reply
  fetch : JsValue → Option Reply

def PasskeyRecords.post (records : PasskeyRecords) (request : Request) (fetching : Bool) : Handler Unit :=
  postJson request.body maxPasskeyBodyBytes
    (sendJson 400 (.object [(js "ok", .boolean false), (js "error", .string (js "malformed"))]))
    (if fetching then records.fetch else records.store)

def handlePasskeyRecordRequest (records : PasskeyRecords) (token : Option JsString)
    (parseUrl : JsString → Option Url) : RouteHandler := fun request => do
  let url ← newUrl parseUrl request
  let fetching : Bool := url.pathname = passkeyRecordFetchPath
  if ¬ fetching ∧ url.pathname ≠ passkeyRecordsPath then return false
  else if request.verb = js "OPTIONS" then
    sendStatus 204
    return true
  else if isAuthorized request url token = false then
    sendError 401 (js "Unauthorized")
    return true
  else
    noStore
    if request.verb ≠ js "POST" then
      send ⟨405, allow "POST,OPTIONS", .empty⟩
      return true
    else
      records.post request fetching
      return true

/-! ## The root certificate -/

def caCertPath : JsString := js "/ca.crt"

def trustPagePath : JsString := js "/trust"

/-- `trustPage` renders the page for the fingerprint of the link. -/
structure Certificate where
  rootCertPem : Option JsString
  trustPage : Option JsString → JsString

def sendPage (request : Request) (type page : JsString) : Handler Unit :=
  send ⟨200, corsHeaders ++ [(contentType, type),
      (contentLength, numberText (toNumber (utf8Encode page).length)),
      (js "Cache-Control", js "no-store")],
    if request.verb = js "HEAD" then .empty else .bytes (utf8Encode page)⟩

def handleCaRequest (certificate : Certificate) (parseUrl : JsString → Option Url) : RouteHandler :=
  fun request => do
    let url ← newUrl parseUrl request
    if url.pathname ≠ caCertPath ∧ url.pathname ≠ trustPagePath then return false
    else if request.verb = js "OPTIONS" then
      sendStatus 204
      return true
    else if request.verb ≠ js "GET" ∧ request.verb ≠ js "HEAD" then
      send ⟨405, allow "GET,HEAD,OPTIONS", .empty⟩
      return true
    else if url.pathname = trustPagePath then
      sendPage request (js "text/html; charset=utf-8") (certificate.trustPage (url.param (js "fp")))
      return true
    else
      match certificate.rootCertPem with
      | none | some [] =>
          sendError 503 (js "This host is not running over HTTPS, so it has no certificate")
          return true
      | some pem =>
          sendPage request (js "application/x-x509-ca-cert") pem
          return true

end Tapes.Server
