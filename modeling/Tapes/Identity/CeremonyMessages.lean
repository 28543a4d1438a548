import Tapes.Identity.Ceremony
import Tapes.Js.Uri
import Tapes.Provenance.PersonKeyBackup

namespace Tapes.Identity.Ceremony

open Tapes.Js
open Tapes.Provenance (trim)

/-! The passkey page and the guest that opens it: what each reads of a message and what each sends.

An origin is the text that the browser puts on a message.
-/

/-! ## The message shapes -/

def protocol : JsString := js "tapes-person-key-ceremony"

def protocolVersion : JsValue := .number (.finite false .one)

def ceremonyHost : JsString := js "identity.tapes.network"

def relyingPartyIdName : JsString := js "tapes.network"

inductive CeremonyAction where
  | create
  | get
deriving DecidableEq

def CeremonyAction.text : CeremonyAction → JsString
  | .create => js "create"
  | .get => js "get"

/-- What both sides check before any other field. -/
def speaks (data : JsValue) : Bool :=
  (data.get (js "tapes")).string? = some protocol &&
    (data.get (js "version")).number?.any (·.strictEquals (.finite false .one))

def typeOf (data : JsValue) : Option JsString := (data.get (js "type")).string?

def envelope (members : List (JsString × JsValue)) : JsValue :=
  .object ((js "tapes", .string protocol) :: (js "version", protocolVersion) :: members)

/-! ## The page -/

/-- What a version 1 page reads of a request. -/
structure CeremonyRequest where
  nonce : JsString
  action : CeremonyAction
  hostName : JsString
  personName : Option JsString
  userId : Option JsString
  credentialIds : List JsString
deriving DecidableEq

/-- `/[\u0000-\u001f\u007f-\u009f]/` -/
def isControlUnit (unit : UInt16) : Bool := unit ≤ 0x1F || 0x7F ≤ unit && unit ≤ 0x9F

def label (value : JsValue) : JsString :=
  let text := match value.string? with
    | some name => trim (name.map fun unit => if isControlUnit unit then 0x20 else unit)
    | none => []
  if text = [] then js "a Tapes host" else text.take 64

def readAction (value : JsValue) : Option CeremonyAction :=
  match value.string? with
  | some name =>
      if name = js "create" then some .create
      else if name = js "get" then some .get
      else none
  | none => none

def asRequest (data : JsValue) : Option CeremonyRequest := do
  guard (speaks data)
  guard (typeOf data = some (js "request"))
  let nonce ← (data.get (js "nonce")).string?
  guard (nonce ≠ [])
  let action ← readAction (data.get (js "action"))
  return {
    nonce
    action
    hostName := label (data.get (js "hostName"))
    personName := (data.get (js "personName")).string?.map (·.take 64)
    userId := (data.get (js "userId")).string?
    credentialIds := ((data.get (js "credentialIds")).array?.getD []).filterMap JsValue.string? }

/-- The relying party id for the page's host. -/
def relyingPartyId (host : JsString) : Option JsString :=
  if host = ceremonyHost then some relyingPartyIdName
  else if host = js "localhost" || (js ".localhost").isSuffixOf host then some host
  else none

/-- The parts of a parsed URL that the page reads. -/
structure PageUrl where
  origin : JsString
  protocol : JsString
  hostname : JsString

/-- `hash` is the fragment with its first `#`. -/
def openerOrigin (parseUrl : JsString → Option PageUrl) (hash : JsString) : Option JsString := do
  let claimed ← getParam (parseQuery (hash.drop 1)) (js "o")
  guard (claimed ≠ [])
  let url ← parseUrl claimed
  guard (url.origin = claimed)
  let isLocal := url.hostname = js "localhost" || url.hostname = js "127.0.0.1"
  guard (url.protocol = js "https:" || url.protocol = js "http:" && isLocal)
  return url.origin

inductive Reason where
  | declined
  | unsupported
  | noPrf
  | failed
deriving DecidableEq

def Reason.text : Reason → JsString
  | .declined => js "declined"
  | .unsupported => js "unsupported"
  | .noPrf => js "no-prf"
  | .failed => js "failed"

def readyMessage : JsValue := envelope [(js "type", .string (js "ready"))]

def resultMessage (nonce rpId credentialId prf : JsString) : JsValue :=
  envelope [(js "nonce", .string nonce), (js "type", .string (js "result")),
    (js "rpId", .string rpId), (js "credentialId", .string credentialId), (js "prf", .string prf)]

def errorMessage (nonce : JsString) (reason : Reason) : JsValue :=
  envelope [(js "nonce", .string nonce), (js "type", .string (js "error")),
    (js "reason", .string reason.text)]

/-! ## The guest -/

/-- What the guest asks for. -/
structure GuestRequest where
  action : CeremonyAction
  hostName : JsString
  personName : Option JsString
  userId : Option JsString
  credentialIds : Option (List JsString)

def optionalText (value : Option JsString) : JsValue := (value.map JsValue.string).getD .undefined

def requestMessage (nonce : JsString) (request : GuestRequest) : JsValue :=
  envelope [(js "type", .string (js "request")), (js "nonce", .string nonce),
    (js "action", .string request.action.text), (js "hostName", .string request.hostName),
    (js "personName", optionalText request.personName), (js "userId", optionalText request.userId),
    (js "credentialIds",
      ((request.credentialIds.map fun ids => JsValue.array (ids.map .string)).getD .undefined))]

inductive Problem where
  | blocked
  | closed
  | timeout
  | told (reason : Reason)
deriving DecidableEq

inductive Outcome where
  | ok (credentialId rpId : JsString) (prf : Bytes)
  | problem (problem : Problem)
deriving DecidableEq

/-- A malformed result is a failure. -/
def result (data : JsValue) : Outcome :=
  let prf := (data.get (js "prf")).string?.bind Provenance.fromBase64Url
  match (data.get (js "credentialId")).string?, (data.get (js "rpId")).string?,
      prf.filter (·.length = 32) with
  | some credentialId, some rpId, some prf => .ok credentialId rpId prf
  | _, _, _ => .problem (.told .failed)

def readReason (value : JsValue) : Reason :=
  ([.declined, .unsupported, .noPrf, .failed].find? fun reason =>
    value.string? = some reason.text).getD .failed

/-- What the guest does about a message of its own tab and the page's origin. -/
inductive Reading where
  | ignored
  | ready
  | outcome (outcome : Outcome)
deriving DecidableEq

def read (nonce : JsString) (data : JsValue) : Reading :=
  if !speaks data then .ignored
  else if typeOf data = some (js "ready") then .ready
  else if (data.get (js "nonce")).string? ≠ some nonce then .ignored
  else if typeOf data = some (js "result") then .outcome (result data)
  else if typeOf data = some (js "error") then
    .outcome (.problem (.told (readReason (data.get (js "reason")))))
  else .ignored

/-! ## What each side makes of the other's messages -/

variable {nonce other rpId credentialId prf : JsString} {request : GuestRequest} {reason : Reason}

/-- The request that a page reads, with its own limits to the texts. -/
def GuestRequest.asked (request : GuestRequest) (nonce : JsString) : CeremonyRequest where
  nonce
  action := request.action
  hostName := label (.string request.hostName)
  personName := request.personName.map (·.take 64)
  userId := request.userId
  credentialIds := request.credentialIds.getD []

theorem string?_optionalText (text : Option JsString) : (optionalText text).string? = text := by
  cases text <;> rfl

theorem filterMap_strings (ids : List JsString) :
    (ids.map JsValue.string).filterMap JsValue.string? = ids := by
  induction ids with
  | nil => rfl
  | cons first rest induction =>
      rw [List.map_cons, List.filterMap_cons]
      exact congrArg (first :: ·) induction

theorem asRequest_requestMessage (hasNonce : nonce ≠ []) (request : GuestRequest) :
    asRequest (requestMessage nonce request) = some (request.asked nonce) := by
  have action : readAction (.string request.action.text) = some request.action := by
    cases request.action <;> decide
  have ids : (((request.credentialIds.map fun ids => JsValue.array (ids.map .string)).getD
      .undefined).array?.getD []).filterMap JsValue.string? = request.credentialIds.getD [] := by
    cases request.credentialIds with
    | none => rfl
    | some ids => exact filterMap_strings ids
  have speaking : speaks (requestMessage nonce request) = true := rfl
  have type : typeOf (requestMessage nonce request) = some (js "request") := rfl
  have nonceMember : (requestMessage nonce request).get (js "nonce") = .string nonce := rfl
  have actionMember : (requestMessage nonce request).get (js "action") =
      .string request.action.text := rfl
  have hostMember : (requestMessage nonce request).get (js "hostName") = .string request.hostName := rfl
  have personMember : (requestMessage nonce request).get (js "personName") =
      optionalText request.personName := rfl
  have userMember : (requestMessage nonce request).get (js "userId") = optionalText request.userId := rfl
  have idsMember : (requestMessage nonce request).get (js "credentialIds") =
      (request.credentialIds.map fun ids => JsValue.array (ids.map .string)).getD .undefined := rfl
  have text (value : JsString) : (JsValue.string value).string? = some value := rfl
  simp only [asRequest, speaking, type, nonceMember, actionMember, hostMember, personMember,
    userMember, idsMember, text, action, ids, string?_optionalText]
  simp [guard, hasNonce, GuestRequest.asked]

/-- A guest takes a result for its own request only. -/
theorem read_resultMessage : read nonce (resultMessage other rpId credentialId prf) =
    if other = nonce then .outcome (result (resultMessage other rpId credentialId prf)) else .ignored := by
  have speaking : speaks (resultMessage other rpId credentialId prf) = true := rfl
  have type : typeOf (resultMessage other rpId credentialId prf) = some (js "result") := rfl
  have nonceMember : (resultMessage other rpId credentialId prf).get (js "nonce") = .string other := rfl
  have notReady : js "result" ≠ js "ready" := by decide
  simp only [read, speaking, type, nonceMember, JsValue.string?, Bool.not_true, Bool.false_eq_true,
    if_false, Option.some.injEq, notReady, ne_eq, ite_not, if_true]

theorem result_resultMessage {bytes : Bytes} {spelled : JsString}
    (spells : toBase64Url bytes = some spelled) :
    result (resultMessage nonce rpId credentialId spelled) =
      if bytes.length = 32 then .ok credentialId rpId bytes else .problem (.told .failed) := by
  rw [toBase64Url_eq, Option.some.injEq] at spells
  have idMember : (resultMessage nonce rpId credentialId spelled).get (js "credentialId") =
      .string credentialId := rfl
  have rpMember : (resultMessage nonce rpId credentialId spelled).get (js "rpId") = .string rpId := rfl
  have prfMember : (resultMessage nonce rpId credentialId spelled).get (js "prf") = .string spelled := rfl
  have decoded : Provenance.fromBase64Url spelled = some bytes := by
    rw [← spells]
    exact Provenance.fromBase64Url_toBase64Url bytes
  simp only [result, idMember, rpMember, prfMember, JsValue.string?, Option.bind_some, decoded]
  by_cases whole : bytes.length = 32 <;> simp [whole, Option.filter]

theorem read_errorMessage_ne {outcome : Outcome}
    (told : read nonce (errorMessage other reason) = .outcome outcome) :
    ∃ reason, outcome = .problem (.told reason) := by
  have speaking : speaks (errorMessage other reason) = true := rfl
  have type : typeOf (errorMessage other reason) = some (js "error") := rfl
  have notReady : js "error" ≠ js "ready" := by decide
  have notResult : js "error" ≠ js "result" := by decide
  simp only [read, speaking, type, Bool.not_true, Bool.false_eq_true, if_false, Option.some.injEq,
    notReady, notResult, if_true] at told
  split at told
  · cases told
  · cases told
    exact ⟨_, rfl⟩

end Tapes.Identity.Ceremony
