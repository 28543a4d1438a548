import Tapes.Events.Event
import Tapes.Js.JsonText

namespace Tapes.Outbox

open Tapes.Js
open Tapes.Events (PlaybackEvent)

/-! The queue of plays that a device keeps for a host, and what a host answers a batch of it. -/

/-- Why an event was not stored. -/
inductive RejectionReason where
  | malformed
  | unknownRecording
deriving DecidableEq

structure Rejection where
  index : Nat
  id : Option JsString
  reason : RejectionReason
  retryable : Bool
deriving DecidableEq

structure IngestResponse where
  accepted : List JsString
  duplicates : List JsString
  rejected : List Rejection
deriving DecidableEq

/-! ## The queue -/

/-- How many of the oldest the cap drops. -/
def overflow (queue : List PlaybackEvent) (cap : Nat) : Nat := queue.length - cap

def enqueueEvent (queue : List PlaybackEvent) (event : PlaybackEvent) (cap : Nat) :
    List PlaybackEvent :=
  (queue ++ [event]).drop (overflow (queue ++ [event]) cap)

/-- The events that `enqueueEvent` drops. -/
def evictedBy (queue : List PlaybackEvent) (event : PlaybackEvent) (cap : Nat) :
    List PlaybackEvent :=
  (queue ++ [event]).take (overflow (queue ++ [event]) cap)

/-- The id of an event that is rejected for good. -/
def Rejection.settles (batch : List PlaybackEvent) (rejection : Rejection) : Option JsString :=
  if rejection.retryable then none
  else rejection.id <|> (batch[rejection.index]?).map PlaybackEvent.id

def settledIds (batch : List PlaybackEvent) (response : IngestResponse) : List JsString :=
  response.accepted ++ response.duplicates ++ response.rejected.filterMap (·.settles batch)

def applyIngestResponse (batch : List PlaybackEvent) (response : IngestResponse) :
    List PlaybackEvent :=
  batch.filter fun event => event.id ∉ settledIds batch response

/-- What a flush writes back: the queue as it is then, without what the answer settles. -/
def afterAnswer (current batch : List PlaybackEvent) (response : IngestResponse) :
    List PlaybackEvent :=
  let kept := applyIngestResponse batch response
  current.filter fun event =>
    event.id ∉ batch.map PlaybackEvent.id ∨ event.id ∈ kept.map PlaybackEvent.id

/-! ## The request -/

def eventMembers (event : PlaybackEvent) : List (JsString × JsValue) :=
  [(js "id", .string event.id), (js "recordingUrl", .string event.recordingUrl),
    (js "type", .string (js "play")), (js "completion", .number event.completion),
    (js "occurredAt", .string event.occurredAt),
    (js "deviceId", (event.deviceId.map JsValue.string).getD .undefined)]

def eventValue (event : PlaybackEvent) : JsValue := .object (eventMembers event)

def requestBody (batch : List PlaybackEvent) : JsString :=
  stringify (.object [(js "events", .array (batch.map eventValue))])

end Tapes.Outbox
