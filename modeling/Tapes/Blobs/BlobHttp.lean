import Tapes.Js.JsonText
import Tapes.Js.WholeNumber
import Tapes.Provenance.PersonKeyBackup

namespace Tapes.Blobs

open Tapes.Js
open Tapes.Provenance (trim)

/-! The download route of `/blobs`: how a `Range` header is read, and what is answered. -/

/-! ## Ranges -/

inductive ParsedRange where
  | ok (start last : JsNumber)
  | unsatisfiable
  | none
deriving DecidableEq

def rangeUnit : JsString := js "bytes="

/-- `/^bytes=(\d*)-(\d*)$/`. -/
def matchRange (text : JsString) : Option (List Nat × List Nat) :=
  if rangeUnit.isPrefixOf text then
    match takeDigits (text.drop rangeUnit.length) with
    | (rawStart, 0x2D :: rest) =>
        match takeDigits rest with
        | (rawEnd, []) => some (rawStart, rawEnd)
        | _ => none
    | _ => none
  else none

def parseSuffix (rawEnd : List Nat) (size : JsNumber) : ParsedRange :=
  let suffix := toNumber (digitsValue rawEnd)
  if suffix.strictEquals (toNumber 0) then .unsatisfiable
  else .ok ((toNumber 0).max (size.minus suffix)) (size.minus (toNumber 1))

def parseRange (header : Option JsString) (size : JsNumber) : ParsedRange :=
  match matchRange (trim (header.getD [])) with
  | none => .none
  | some ([], []) => .unsatisfiable
  | some ([], rawEnd) => parseSuffix rawEnd size
  | some (rawStart, rawEnd) =>
      let start := toNumber (digitsValue rawStart)
      if start.lessThan size then
        let last := if rawEnd = [] then size.minus (toNumber 1)
          else (toNumber (digitsValue rawEnd)).min (size.minus (toNumber 1))
        if last.lessThan start then .unsatisfiable else .ok start last
      else .unsatisfiable

/-! ## The answer -/

/-- `size` is what the store's `stat` reports. -/
structure StoredBlob where
  hash : JsString
  mimeType : JsString
  ext : JsString
  bytes : Bytes
  size : JsNumber
  counted : size.Is bytes.length

/-- A number that a read stream takes as an offset: a safe integer that is not negative. -/
def offset? : JsNumber → Option Nat
  | .finite negative magnitude =>
      if magnitude.units % 2 ^ 1074 = 0 ∧ magnitude.units / 2 ^ 1074 < 2 ^ 53 ∧
          (negative → magnitude.units = 0) then some (magnitude.units / 2 ^ 1074)
      else none
  | _ => none

/-- The bytes of `createReadStream`, none where it throws. Both ends are inclusive. -/
def readBlob (bytes : Bytes) (start last : JsNumber) : Option Bytes :=
  match offset? start, offset? last with
  | some first, some past =>
      if first ≤ past then some ((bytes.drop first).take (past + 1 - first)) else none
  | _, _ => none

inductive Method where
  | get
  | head

/-- `sent` is the body as far as it is sent, `torn` whether the connection is destroyed then. -/
structure Response where
  status : Nat
  headers : List (JsString × JsString)
  sent : Bytes
  torn : Bool

def corsHeaders : List (JsString × JsString) :=
  [(js "Access-Control-Allow-Origin", js "*"),
    (js "Access-Control-Allow-Methods", js "GET,HEAD,POST,DELETE,OPTIONS"),
    (js "Access-Control-Allow-Headers",
      js "authorization,content-type,range,x-tapes-recording-claim,x-tapes-device-certificate"),
    (js "Access-Control-Expose-Headers", js "content-length,content-range,accept-ranges,etag"),
    (js "Access-Control-Max-Age", js "86400")]

def contentLength : JsString := js "Content-Length"

def sendJson (status : Nat) (body : JsValue) (method : Method) : Response :=
  let payload := utf8Encode (stringify body)
  { status
    headers := corsHeaders ++ [(js "Content-Type", js "application/json; charset=utf-8"),
      (contentLength, numberText (toNumber payload.length))]
    sent := match method with
      | .get => payload
      | .head => []
    torn := false }

def blobHeaders (blob : StoredBlob) : List (JsString × JsString) :=
  corsHeaders ++ [(js "Content-Type", blob.mimeType), (js "Accept-Ranges", js "bytes"),
    (js "ETag", js "\"" ++ blob.hash ++ js "\""),
    (js "Cache-Control", js "private, max-age=31536000, immutable"),
    (js "Content-Disposition", js "inline; filename=\"" ++ blob.hash ++ blob.ext ++ js "\"")]

/-- A read that throws does so after the head is written. -/
def sendBody (status : Nat) (headers : List (JsString × JsString)) (body : Option Bytes)
    (method : Method) : Response :=
  match method, body with
  | .head, _ => ⟨status, headers, [], false⟩
  | .get, some bytes => ⟨status, headers, bytes, false⟩
  | .get, none => ⟨status, headers, [], true⟩

def handleDownload (blob : Option StoredBlob) (range : Option JsString) (method : Method) : Response :=
  match blob with
  | none => sendJson 404 (.object [(js "error", .string (js "Unknown blob"))]) method
  | some blob =>
      match parseRange range blob.size with
      | .unsatisfiable =>
          ⟨416, corsHeaders ++ [(js "Content-Range", js "bytes */" ++ numberText blob.size)], [], false⟩
      | .ok start last =>
          sendBody 206 (blobHeaders blob ++
            [(contentLength, numberText ((last.minus start).plus (toNumber 1))),
              (js "Content-Range", js "bytes " ++ numberText start ++ js "-" ++ numberText last ++
                js "/" ++ numberText blob.size)])
            (readBlob blob.bytes start last) method
      | .none =>
          sendBody 200 (blobHeaders blob ++ [(contentLength, numberText blob.size)])
            (some blob.bytes) method

def Response.announced (response : Response) : Option JsString :=
  (response.headers.find? (·.1 = contentLength)).map Prod.snd

end Tapes.Blobs
