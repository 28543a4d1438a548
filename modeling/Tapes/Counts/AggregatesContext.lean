import Tapes.Counts.AggregatesRoute
import Tapes.Machine.Run
import Tapes.Outbox.EventTarget

namespace Tapes.Counts

open Tapes.Js Tapes.Machine
open Tapes.Outbox (truthy)
open Tapes.Provenance (Platform)

/-! The play counts that an app holds, beside the hosts that count. -/

def aggregatesTtlMs : Int := 60000

/-- A resolved host, known by the identity of its object. -/
abbrev Target := Nat

/-- `isIpc` says which targets are the device's own host. -/
structure Wiring where
  platform : Platform
  isIpc : Target → Bool

structure Held where
  target : Option Target
  snapshot : Option AggregatesSnapshot
  failed : Bool

/-- How a request has ended, with what its host counted then. -/
inductive Ended where
  | answered (result : FetchAggregatesResult) (library : Library)
  | failed

/-- The request that has not been aborted. `ended` is there until its `then` runs. -/
structure Flight where
  target : Target
  etag : Option JsString
  ended : Option Ended

/-- `installed` is the target of the effects that have run. `told` are the lists that hosts have
answered from, `heard` what the host that was heard last counted then, unless another one has failed
since, and `astray` whether a refresh was asked for with another target than the installed one. -/
structure Counting where
  now : Int
  libraries : Target → Library
  target : Option Target
  installed : Option (Option Target)
  held : Held
  refreshing : Bool
  etag : Option JsString
  fetchedAt : Int
  inFlight : Option Flight
  told : List (List RecordingAggregate)
  heard : Option (Target × Library)
  astray : Bool

def Counting.mounted (now : Int) (libraries : Target → Library) (target : Option Target) : Counting where
  now
  libraries
  target
  installed := none
  held := ⟨none, none, false⟩
  refreshing := false
  etag := none
  fetchedAt := 0
  inFlight := none
  told := []
  heard := none
  astray := false

/-! ## The provider -/

/-- None where nothing is asked for. -/
def load (counting : Counting) (target : Option Target) (force : Bool) : Option Counting :=
  match target with
  | none => none
  | some target =>
      if ¬ force ∧ counting.now - counting.fetchedAt < aggregatesTtlMs then none
      else some { counting with inFlight := some ⟨target, truthy counting.etag, none⟩ }

/-- The cleanup of the last effect, and the effect. -/
def runEffect (counting : Counting) : Counting :=
  let cleared := { counting with
    inFlight := none, etag := none, fetchedAt := 0, installed := some counting.target }
  (load cleared counting.target true).getD cleared

def refresh (counting : Counting) (target : Option Target) (force : Bool) : Counting :=
  match load counting target force with
  | some loaded => { loaded with
      refreshing := true
      astray := counting.astray || decide (counting.installed ≠ some target) }
  | none => counting

/-- The request ends, and `then` and `finally` run. -/
def hear (counting : Counting) (flight : Flight) : Ended → Counting
  | .answered (.fresh snapshot) library => { counting with
      fetchedAt := counting.now
      etag := snapshot.etag
      held := ⟨some flight.target, some snapshot, false⟩
      heard := some (flight.target, library)
      inFlight := none
      refreshing := false }
  | .answered .unchanged library => { counting with
      fetchedAt := counting.now
      held := ⟨some flight.target, counting.held.snapshot, false⟩
      heard := some (flight.target, library)
      inFlight := none
      refreshing := false }
  | .failed => { counting with
      held := ⟨some flight.target,
        if counting.held.target = some flight.target then counting.held.snapshot else none, true⟩
      heard := counting.heard.filter (·.1 = flight.target)
      inFlight := none
      refreshing := false }

/-! ## What is shown -/

structure AggregatesState where
  byRecording : OrderedMap JsString RecordingAggregate
  loading : Bool
  answered : Bool
  failed : Bool

def byRecording (rows : List RecordingAggregate) : OrderedMap JsString RecordingAggregate :=
  .ofList (rows.map fun row => (row.recordingUrl, row))

def Counting.current (counting : Counting) : Option Held :=
  if counting.held.target = counting.target then some counting.held else none

def useAggregates (counting : Counting) : AggregatesState where
  byRecording := byRecording
    ((counting.current.bind Held.snapshot).elim [] AggregatesSnapshot.aggregates)
  loading := counting.target.isSome && (counting.current.isNone || counting.refreshing)
  answered := (counting.current.bind Held.snapshot).isSome
  failed := counting.current.any Held.failed

inductive RecordingPlayback where
  | unknown
  | unplayed
  | played (plays averageCompletion : JsNumber)
deriving DecidableEq

/-- `plays <= 0` -/
def notPositive : JsNumber → Bool
  | .nan => false
  | .infinite negative => negative
  | .finite negative magnitude => negative || magnitude.units = 0

def playbackOf : Option RecordingAggregate → RecordingPlayback
  | none => .unplayed
  | some row =>
      if notPositive row.plays then .unplayed else .played row.plays row.averageCompletion

def useRecordingPlayback (counting : Counting) (recordingUrl : JsString) : RecordingPlayback :=
  let aggregates := useAggregates counting
  if recordingUrl = [] ∨ aggregates.answered = false then .unknown
  else playbackOf (aggregates.byRecording.get? recordingUrl)

/-! ## Steps -/

/-- How the host answers the request. -/
def answer (wiring : Wiring) (library : Library) (flight : Flight)
    (generatedAt fallback : JsString) : Ended :=
  if wiring.isIpc flight.target then .answered (fetchOverIpc library generatedAt) library
  else
    match readAnswer fallback (handleAggregates wiring.platform library generatedAt flight.etag) with
    | some result => .answered result library
    | none => .failed

inductive CountingAction where
  | tick (elapsed : Nat)
  /-- The store of a host changes. -/
  | count (target : Target) (library : Library)
  | render (target : Option Target)
  | commit
  /-- `refresh` of some render, for an `online` event or whoever calls it. -/
  | refresh (target : Option Target) (force : Bool)
  | handle (generatedAt fallback : JsString)
  /-- No answer in time, none that can be read, or a refusal. -/
  | fail
  | hear

def countingStep (wiring : Wiring) (counting : Counting) : CountingAction → Option Counting
  | .tick elapsed => some { counting with now := counting.now + elapsed }
  | .count target library =>
      some { counting with libraries := Function.update counting.libraries target library }
  | .render target => some { counting with target }
  | .commit =>
      if counting.installed = some counting.target then none else some (runEffect counting)
  | .refresh target force => some (refresh counting target force)
  | .handle generatedAt fallback =>
      match counting.inFlight with
      | some ⟨target, etag, none⟩ =>
          let library := counting.libraries target
          some { counting with
            inFlight := some ⟨target, etag,
              some (answer wiring library ⟨target, etag, none⟩ generatedAt fallback)⟩
            told := if wiring.isIpc target then counting.told else library.sorted :: counting.told }
      | _ => none
  | .fail =>
      match counting.inFlight with
      | some ⟨target, etag, none⟩ =>
          some { counting with inFlight := some ⟨target, etag, some .failed⟩ }
      | _ => none
  | .hear =>
      match counting.inFlight with
      | some ⟨target, etag, some ended⟩ => some (hear counting ⟨target, etag, some ended⟩ ended)
      | _ => none

/-- No two lists that hosts have answered from share a tag. -/
def TagsDiffer (wiring : Wiring) (counting : Counting) : CountingAction → Prop
  | .handle _ _ => ∀ flight, counting.inFlight = some flight → ∀ rows ∈ counting.told,
      etagOf wiring.platform rows =
        etagOf wiring.platform (counting.libraries flight.target).sorted →
      rows = (counting.libraries flight.target).sorted
  | _ => True

instance (wiring : Wiring) (counting : Counting) (action : CountingAction) :
    Decidable (TagsDiffer wiring counting action) :=
  match action with
  | .handle _ _ =>
      decidable_of_iff (counting.inFlight.all fun flight => counting.told.all fun rows =>
          decide (etagOf wiring.platform rows =
            etagOf wiring.platform (counting.libraries flight.target).sorted →
            rows = (counting.libraries flight.target).sorted)) (by
        simp only [TagsDiffer, Option.all_eq_true, List.all_eq_true, decide_eq_true_eq])
  | .tick _ | .count _ _ | .render _ | .commit | .refresh _ _ | .fail | .hear => isTrue trivial

/-- What the library has counted for a recording. -/
def Library.playback (library : Library) (recordingUrl : JsString) : RecordingPlayback :=
  playbackOf (library.rows.find? (·.recordingUrl = recordingUrl))

/-- What a device without a cache would show: what the last answer of its host counted. -/
def Counting.plain (counting : Counting) (recordingUrl : JsString) : RecordingPlayback :=
  match counting.heard with
  | some (target, library) =>
      if counting.target = some target then library.playback recordingUrl else .unknown
  | none => .unknown

end Tapes.Counts
