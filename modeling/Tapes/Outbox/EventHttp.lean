import Tapes.Outbox.EventQueue

namespace Tapes.Outbox

open Tapes.Js
open Tapes.Events (PlaybackEvent)

/-! The `/events` route: how it reads a batch and judges each event of it. -/

structure Limits where
  maxBatchEvents : Nat
  maxBodyBytes : Nat

def defaultLimits : Limits := ⟨500, 1024 * 1024⟩

/-- The events submitted, or the status that refuses the whole batch. -/
def readBatch (limits : Limits) (body : JsString) : Except Nat (List JsValue) :=
  if limits.maxBodyBytes < (utf8Encode body).length then .error 413
  else
    match parse body with
    | none => .error 400
    | some parsed =>
        let submitted := match parsed with
          | .array events => some events
          | _ => (parsed.get (js "events")).array?
        match submitted with
        | none => .error 400
        | some events =>
            if limits.maxBatchEvents < events.length then .error 413 else .ok events

/-! ## One event -/

/-- `Math.min(1, Math.max(0, value))`. -/
def clampCompletion : JsNumber → JsNumber
  | .nan => .nan
  | .infinite true | .finite true _ => .finite false .zero
  | .infinite false => .finite false .one
  | .finite false magnitude =>
      if Magnitude.one.units < magnitude.units then .finite false .one
      else .finite false magnitude

def nonEmpty : JsValue → Option JsString
  | .string [] => none
  | .string text => some text
  | _ => none

def isBase58 (unit : UInt16) : Bool :=
  (0x31 ≤ unit && unit ≤ 0x39) || (0x41 ≤ unit && unit ≤ 0x48) || (0x4A ≤ unit && unit ≤ 0x4E) ||
    (0x50 ≤ unit && unit ≤ 0x5A) || (0x61 ≤ unit && unit ≤ 0x6B) || (0x6D ≤ unit && unit ≤ 0x7A)

def recordingUrlScheme : JsString := js "automerge:"

/-- `RECORDING_URL_PATTERN`. -/
def isRecordingUrl (url : JsString) : Bool :=
  let key := url.drop recordingUrlScheme.length
  recordingUrlScheme.isPrefixOf url && decide (16 ≤ key.length) && key.all isBase58

/-- `isDate` says which texts `Date.parse` reads. The error of an event that is malformed is its
id, if it has one. -/
def validate (isDate : JsString → Bool) (value : JsValue) :
    Except (Option JsString) PlaybackEvent :=
  match nonEmpty (value.get (js "id")) with
  | none => .error none
  | some id =>
      match (value.get (js "recordingUrl")).string?, (value.get (js "completion")).number?,
        (value.get (js "occurredAt")).string? with
      | some recordingUrl, some (.finite negative magnitude), some occurredAt =>
          if (value.get (js "type")).string? = some (js "play") ∧ isRecordingUrl recordingUrl ∧
              isDate occurredAt then
            .ok {
              id, recordingUrl, occurredAt
              completion := clampCompletion (.finite negative magnitude)
              deviceId := nonEmpty (value.get (js "deviceId")) }
          else .error (some id)
      | _, _, _ => .error (some id)

/-! ## The loop over a batch -/

structure Judged where
  rejected : List Rejection
  valid : List PlaybackEvent

/-- One turn of the loop. `known` is whether the host knows the event's recording. -/
def judge (isDate : JsString → Bool) (known : Bool) (candidate : JsValue × Nat) (judged : Judged) :
    Judged :=
  match validate isDate candidate.1 with
  | .error id =>
      { judged with rejected := judged.rejected ++ [⟨candidate.2, id, .malformed, false⟩] }
  | .ok event =>
      if known then { judged with valid := judged.valid ++ [event] }
      else
        { judged with
          rejected := judged.rejected ++ [⟨candidate.2, some event.id, .unknownRecording, true⟩] }

end Tapes.Outbox
