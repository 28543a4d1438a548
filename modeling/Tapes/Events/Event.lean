import Mathlib.Data.List.Dedup
import Mathlib.Data.List.Sort
import Tapes.Js.Number
import Tapes.Js.OrderedMap

namespace Tapes.Events

open Tapes.Js

/-! Playback events and the dedupe index of the host's event store. -/

/-- One playback of one recording. Its `type` is always `play`. -/
structure PlaybackEvent where
  id : JsString
  recordingUrl : JsString
  completion : JsNumber
  occurredAt : JsString
  deviceId : Option JsString
deriving DecidableEq

structure StoredEvent extends PlaybackEvent where
  receivedAt : JsString
deriving DecidableEq

def dedupeKey (event : PlaybackEvent) : JsString :=
  event.deviceId.getD (js "unknown") ++ [0] ++ event.id

/-- The loop of `append`: what it accepts, what it has already, and the index. -/
structure Admission where
  accepted : List StoredEvent
  duplicates : List JsString
  seen : List JsString

def admitOne (receivedAt : JsString) (admission : Admission) (event : PlaybackEvent) :
    Admission :=
  if event.id = [] then admission
  else if dedupeKey event ∈ admission.seen then
    { admission with duplicates := admission.duplicates ++ [event.id] }
  else
    { admission with
      accepted := admission.accepted ++ [{ event with receivedAt }]
      seen := dedupeKey event :: admission.seen }

def admitAll (seen : List JsString) (events : List PlaybackEvent) (receivedAt : JsString) :
    Admission :=
  events.foldl (admitOne receivedAt) ⟨[], [], seen⟩

/-- The index without the events' keys. -/
def forget (seen : List JsString) (events : List StoredEvent) : List JsString :=
  seen.filter (· ∉ events.map fun event => dedupeKey event.toPlaybackEvent)

/-! ## Day segments -/

/-- The UTC day a segment is named for, in days since the epoch. -/
abbrev Day := Int

def dayMs : Int := 24 * 60 * 60 * 1000

def segmentDay (timestampMs : Int) : Day := timestampMs / dayMs

def segmentEndMs (day : Day) : Int := (day + 1) * dayMs

/-- The events of all segments, each with the day whose segment it is in. Within a
segment the order is the file's. -/
abbrev Log := List (Day × StoredEvent)

def readSegment (log : Log) (day : Day) : List StoredEvent :=
  (log.filter (·.1 = day)).map Prod.snd

/-- The segments there are, oldest first. -/
def segments (log : Log) : List Day :=
  ((log.map Prod.fst).dedup).insertionSort (· ≤ ·)

def unlink (log : Log) (day : Day) : Log := log.filter (·.1 ≠ day)

/-- Segments read one after the other hold what the log has for their days. -/
theorem flatMap_readSegment_perm {days : List Day} (distinct : days.Nodup) (log : Log) :
    (days.flatMap (readSegment log)).Perm ((log.filter (·.1 ∈ days)).map Prod.snd) := by
  induction days with
  | nil => simp
  | cons day rest induction =>
      obtain ⟨fresh, distinctRest⟩ := List.nodup_cons.mp distinct
      have here : log.filter (·.1 = day) = (log.filter (·.1 ∈ day :: rest)).filter (·.1 = day) := by
        rw [List.filter_filter]
        apply List.filter_congr
        intro entry _
        by_cases same : entry.1 = day <;> simp [same]
      have others : log.filter (·.1 ∈ rest) =
          (log.filter (·.1 ∈ day :: rest)).filter (fun entry => !decide (entry.1 = day)) := by
        rw [List.filter_filter]
        apply List.filter_congr
        intro entry _
        by_cases same : entry.1 = day <;> simp [same, fresh]
      rw [List.flatMap_cons]
      apply ((List.Perm.refl _).append (induction distinctRest)).trans
      rw [readSegment, ← List.map_append, here, others]
      exact (List.filter_append_perm _ _).map Prod.snd

end Tapes.Events
