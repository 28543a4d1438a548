import Mathlib.Data.List.Sort
import Tapes.Js.JsonText
import Tapes.Outbox.EventHttp
import Tapes.Provenance.Signing

namespace Tapes.Counts

open Tapes.Js
open Tapes.Outbox (clampCompletion)
open Tapes.Provenance (Platform sha256Hex)

/-! The play counts that a host answers with, and what a device reads of the answer. -/

structure RecordingAggregate where
  recordingUrl : JsString
  plays : JsNumber
  averageCompletion : JsNumber
deriving DecidableEq

/-- A row of the aggregate store: a count of plays, and a mean of values that were clamped. -/
def IsCounted (row : RecordingAggregate) : Prop :=
  row.recordingUrl ≠ [] ∧ (∃ magnitude, row.plays = .finite false magnitude) ∧
    ∃ magnitude, row.averageCompletion = .finite false magnitude ∧
      magnitude.units ≤ Magnitude.one.units

/-- What `all` gives: the rows of a map, so one for each recording. -/
structure Library where
  rows : List RecordingAggregate
  distinct : (rows.map RecordingAggregate.recordingUrl).Nodup
  counted : ∀ row ∈ rows, IsCounted row

def Library.empty : Library := ⟨[], List.nodup_nil, fun _ absent => by cases absent⟩

/-! ## The host -/

def Library.sorted (library : Library) : List RecordingAggregate :=
  library.rows.insertionSort fun left right => lessThan right.recordingUrl left.recordingUrl = false

def rowValue (row : RecordingAggregate) : JsValue :=
  .object [(js "recordingUrl", .string row.recordingUrl), (js "plays", .number row.plays),
    (js "averageCompletion", .number row.averageCompletion)]

def rowsValue (rows : List RecordingAggregate) : JsValue := .array (rows.map rowValue)

def etagOf (platform : Platform) (rows : List RecordingAggregate) : JsString :=
  js "\"" ++ (sha256Hex platform (utf8Encode (stringify (rowsValue rows)))).take 32 ++ js "\""

inductive AggregatesAnswer where
  | notModified
  | ok (payload : JsString) (etag : Option JsString)

def payloadOf (rows : List RecordingAggregate) (generatedAt : JsString) : JsString :=
  stringify (.object [(js "aggregates", rowsValue rows), (js "generatedAt", .string generatedAt)])

def handleAggregates (platform : Platform) (library : Library) (generatedAt : JsString)
    (ifNoneMatch : Option JsString) : AggregatesAnswer :=
  let etag := etagOf platform library.sorted
  if ifNoneMatch = some etag then .notModified
  else .ok (payloadOf library.sorted generatedAt) (some etag)

/-! ## The device -/

structure AggregatesSnapshot where
  aggregates : List RecordingAggregate
  generatedAt : JsString
  etag : Option JsString
deriving DecidableEq

inductive FetchAggregatesResult where
  | fresh (snapshot : AggregatesSnapshot)
  | unchanged

def parseRow (row : JsValue) : Option RecordingAggregate :=
  match (row.get (js "recordingUrl")).string?, (row.get (js "plays")).number?,
      (row.get (js "averageCompletion")).number? with
  | some recordingUrl, some (.finite negative plays), some (.finite below average) =>
      if recordingUrl = [] then none
      else some ⟨recordingUrl, .finite negative plays, clampCompletion (.finite below average)⟩
  | _, _, _ => none

/-- Keeps the rows that are well formed and drops the rest. -/
def parseAggregates (value : JsValue) : List RecordingAggregate :=
  (value.array?.getD []).filterMap parseRow

/-- `fallback` is the time of the device. Reading a field of no object throws. -/
def readSnapshot (fallback : JsString) (body : JsValue) (etag : Option JsString) :
    Option AggregatesSnapshot :=
  match body with
  | .undefined | .null => none
  | _ => some {
      aggregates := parseAggregates (body.get (js "aggregates"))
      generatedAt := (body.get (js "generatedAt")).string?.getD fallback
      etag }

def readAnswer (fallback : JsString) : AggregatesAnswer → Option FetchAggregatesResult
  | .notModified => some .unchanged
  | .ok payload etag =>
      ((parse payload).bind (readSnapshot fallback · etag)).map FetchAggregatesResult.fresh

/-- Over IPC the numbers come as they are, without a tag. -/
def fetchOverIpc (library : Library) (generatedAt : JsString) : FetchAggregatesResult :=
  .fresh ⟨parseAggregates (rowsValue library.rows), generatedAt, none⟩

/-! ## What is sent is read -/

variable {row : RecordingAggregate} {rows : List RecordingAggregate}

theorem clampCompletion_of_le {magnitude : Magnitude} (small : magnitude.units ≤ Magnitude.one.units) :
    clampCompletion (.finite false magnitude) = .finite false magnitude := by
  have notMore : ¬ Magnitude.one.units < magnitude.units := by omega
  rw [clampCompletion, if_neg notMore]

theorem written_false (magnitude : Magnitude) :
    JsNumber.written false magnitude = .finite false magnitude := by
  simp [JsNumber.written]

theorem parseRow_rowValue (counted : IsCounted row) : parseRow (rowValue row) = some row := by
  obtain ⟨named, ⟨plays, playsIs⟩, average, averageIs, small⟩ := counted
  obtain ⟨recordingUrl, _, _⟩ := row
  subst playsIs averageIs
  have url : (rowValue ⟨recordingUrl, .finite false plays, .finite false average⟩).get
      (js "recordingUrl") = .string recordingUrl := rfl
  have count : (rowValue ⟨recordingUrl, .finite false plays, .finite false average⟩).get
      (js "plays") = .number (.finite false plays) := rfl
  have mean : (rowValue ⟨recordingUrl, .finite false plays, .finite false average⟩).get
      (js "averageCompletion") = .number (.finite false average) := rfl
  simp only [parseRow, url, count, mean, JsValue.string?, JsValue.number?, if_neg named,
    clampCompletion_of_le small]

theorem reread_rowValue (counted : IsCounted row) : reread (rowValue row) = rowValue row := by
  obtain ⟨-, ⟨plays, playsIs⟩, average, averageIs, -⟩ := counted
  have distinct : ([js "recordingUrl", js "plays", js "averageCompletion"] : List JsString).Nodup := by
    decide
  have members : rereadMembers [] [(js "recordingUrl", .string row.recordingUrl),
      (js "plays", .number row.plays), (js "averageCompletion", .number row.averageCompletion)] = _ :=
    rereadMembers_distinct distinct fun _ absent => by cases absent
  have url : reread (.string row.recordingUrl) = .string row.recordingUrl := rfl
  have count : reread (.number row.plays) = .number row.plays := by
    rw [playsIs, reread, written_false]
  have mean : reread (.number row.averageCompletion) = .number row.averageCompletion := by
    rw [averageIs, reread, written_false]
  rw [rowValue, reread, members]
  simp only [writtenMembers, JsValue.isUndefined, Bool.false_eq_true, if_false, url, count, mean,
    List.nil_append]

theorem rereadItems_rows (counted : ∀ row ∈ rows, IsCounted row) :
    rereadItems (rows.map rowValue) = rows.map rowValue := by
  induction rows with
  | nil => rfl
  | cons row rows induction =>
      rw [List.map_cons, rereadItems, reread_rowValue (counted row List.mem_cons_self),
        induction fun other inside => counted other (List.mem_cons_of_mem row inside)]

theorem parseAggregates_rowsValue (counted : ∀ row ∈ rows, IsCounted row) :
    parseAggregates (rowsValue rows) = rows := by
  rw [parseAggregates, rowsValue, JsValue.array?, Option.getD_some]
  induction rows with
  | nil => rfl
  | cons row rows induction =>
      rw [List.map_cons, List.filterMap_cons, parseRow_rowValue (counted row List.mem_cons_self),
        induction fun other inside => counted other (List.mem_cons_of_mem row inside)]

theorem readAnswer_ok (counted : ∀ row ∈ rows, IsCounted row) (fallback generatedAt : JsString)
    (etag : Option JsString) :
    readAnswer fallback (.ok (payloadOf rows generatedAt) etag) =
      some (.fresh ⟨rows, generatedAt, etag⟩) := by
  have distinct : ([js "aggregates", js "generatedAt"] : List JsString).Nodup := by decide
  have body : reread (.object [(js "aggregates", rowsValue rows),
      (js "generatedAt", .string generatedAt)]) =
        .object [(js "aggregates", rowsValue rows), (js "generatedAt", .string generatedAt)] := by
    have members : rereadMembers [] [(js "aggregates", rowsValue rows),
        (js "generatedAt", .string generatedAt)] = _ :=
      rereadMembers_distinct distinct fun _ absent => by cases absent
    rw [reread, members]
    simp [writtenMembers, JsValue.isUndefined, reread, rowsValue, rereadItems_rows counted]
  have list : (JsValue.object [(js "aggregates", rowsValue rows),
      (js "generatedAt", .string generatedAt)]).get (js "aggregates") = rowsValue rows := rfl
  have time : (JsValue.object [(js "aggregates", rowsValue rows),
      (js "generatedAt", .string generatedAt)]).get (js "generatedAt") = .string generatedAt := rfl
  rw [readAnswer, payloadOf, parse_stringify, body, Option.bind_some]
  simp only [readSnapshot, list, time, parseAggregates_rowsValue counted, JsValue.string?,
    Option.getD_some, Option.map_some]

theorem mem_sorted {library : Library} : row ∈ library.sorted ↔ row ∈ library.rows :=
  List.mem_insertionSort _

theorem counted_sorted (library : Library) : ∀ row ∈ library.sorted, IsCounted row :=
  fun row inside => library.counted row (mem_sorted.mp inside)

end Tapes.Counts
