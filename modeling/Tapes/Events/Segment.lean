import Tapes.Events.Event
import Tapes.Js.Date
import Tapes.Js.Json

namespace Tapes.Events

open Tapes.Js

/-! The event store's day segments as the text of their files. A segment is read as
UTF-8; what is appended starts with an ASCII character, so it decodes as it would on
its own. -/

/-! ## Reading -/

/-- The line terminators of `readline`. -/
def isLineEnd (unit : UInt16) : Bool :=
  unit = 0x0A || unit = 0x0D || unit = 0x2028 || unit = 0x2029

/-- The lines `readline` emits, `line` being read so far. An empty last line is none. -/
def readLines (line : JsString) : JsString → List JsString
  | [] => if line = [] then [] else [line]
  | 0x0D :: 0x0A :: rest => line :: readLines [] rest
  | unit :: rest =>
      if isLineEnd unit then line :: readLines [] rest else readLines (line ++ [unit]) rest

def isStoredEvent (value : JsValue) : Bool :=
  (match value.get (js "id") with | .string id => id ≠ [] | _ => false) &&
  (value.get (js "recordingUrl")).string?.isSome &&
  (value.get (js "type")).string? = some (js "play") &&
  (match value.get (js "completion") with | .number (.finite _ _) => true | _ => false) &&
  (value.get (js "receivedAt")).string?.isSome

def readLine (line : JsString) : Option JsValue :=
  if line.all isWhiteSpace then none
  else (parse line).bind fun parsed => if isStoredEvent parsed then some parsed else none

def readSegmentText (text : JsString) : List JsValue := (readLines [] text).filterMap readLine

mutual

/-- A template's text for a value that parsed, its own `toString` left out. -/
def templateText : JsValue → JsString
  | .undefined => js "undefined"
  | .null => js "null"
  | .boolean value => js (if value then "true" else "false")
  | .number value => numberText value
  | .string value => value
  | .array items => joinComma (templateItems items)
  | .object _ => js "[object Object]"

def templateItems : List JsValue → List JsString
  | [] => []
  | .undefined :: rest => [] :: templateItems rest
  | .null :: rest => [] :: templateItems rest
  | item :: rest => templateText item :: templateItems rest

end

/-- `dedupeKey` of an event read, whose `deviceId` is not checked. -/
def storedKey (event : JsValue) : JsString :=
  (match event.get (js "deviceId") with
    | .undefined | .null => js "unknown"
    | deviceId => templateText deviceId) ++
    [0] ++ templateText (event.get (js "id"))

/-! ## The log directory -/

/-- The segment files, by day. -/
abbrev LogDir := OrderedMap Day JsString

def content (dir : LogDir) (day : Day) : JsString := (dir.get? day).getD []

/-- The segment names `segments` lists, sorted. -/
def segmentDays (dir : LogDir) : List Day := dir.keys.insertionSort (· ≤ ·)

def replay (dir : LogDir) : List JsValue :=
  (segmentDays dir).flatMap fun day => readSegmentText (content dir day)

/-- A record as a fold reads it. Its url and its completion have been checked. -/
def eventOf (record : JsValue) : StoredEvent where
  id := (record.get (js "id")).string?.getD []
  recordingUrl := (record.get (js "recordingUrl")).string?.getD []
  completion := (record.get (js "completion")).number?.getD .nan
  occurredAt := (record.get (js "occurredAt")).string?.getD []
  deviceId := (record.get (js "deviceId")).string?
  receivedAt := (record.get (js "receivedAt")).string?.getD []

/-! ## Appending -/

/-- `{ ...event, receivedAt }`, in the order the ingest route builds an event. -/
def eventMembers (event : StoredEvent) : List (JsString × JsValue) :=
  [(js "id", .string event.id), (js "recordingUrl", .string event.recordingUrl),
    (js "type", .string (js "play")), (js "completion", .number event.completion),
    (js "occurredAt", .string event.occurredAt),
    (js "deviceId", (event.deviceId.map JsValue.string).getD .undefined),
    (js "receivedAt", .string event.receivedAt)]

def storedValue (event : StoredEvent) : JsValue := .object (eventMembers event)

def lineText (event : StoredEvent) : JsString := stringify (storedValue event)

def payload (accepted : List StoredEvent) : JsString :=
  [0x0A].intercalate (accepted.map lineText) ++ [0x0A]

/-- A store with the dedupe index in memory. -/
structure EventStore where
  dir : LogDir
  seen : List JsString

/-- `open`. -/
def openStore (dir : LogDir) : EventStore := ⟨dir, (replay dir).map storedKey⟩

def appendFile (dir : LogDir) (day : Day) (text : JsString) : LogDir :=
  dir.set day (content dir day ++ text)

/-- `append`, its write succeeding. -/
def EventStore.append (store : EventStore) (events : List PlaybackEvent) (now : Int) :
    EventStore × List StoredEvent :=
  let admission := admitAll store.seen events (toISOString now)
  if admission.accepted = [] then (⟨store.dir, admission.seen⟩, [])
  else
    (⟨appendFile store.dir (segmentDay now) (payload admission.accepted), admission.seen⟩,
      admission.accepted)

/-- One batch after the other, with all that was accepted. -/
def EventStore.appendAll (store : EventStore) :
    List (List PlaybackEvent × Int) → EventStore × List StoredEvent
  | [] => (store, [])
  | (events, now) :: rest =>
      let (next, accepted) := store.append events now
      let (last, others) := next.appendAll rest
      (last, accepted ++ others)

end Tapes.Events
