import Tapes.Events.LineFormat
import Tapes.Outbox.HostLog

namespace Tapes.Outbox

open Tapes.Js
open Tapes.Events (Checked LineSafe NoSeparator PlaybackEvent dedupeKey)

/-! What the host makes of the events of a batch. -/

variable {isDate : JsString → Bool} {limits : Limits} {event other hosted : PlaybackEvent}
  {device : JsString} {batch : List PlaybackEvent}

/-- The event as the host takes it. -/
def Hosts (isDate : JsString → Bool) (event hosted : PlaybackEvent) : Prop :=
  validate isDate (reread (eventValue event)) = .ok hosted

/-- The key that the host has for the event. -/
def hostedKey (event : PlaybackEvent) : JsString :=
  dedupeKey { event with deviceId := event.deviceId.filter (· ≠ []) }

/-- An event as a device enqueues it. -/
structure Sendable (isDate : JsString → Bool) (event : PlaybackEvent) : Prop where
  device : ∃ device, event.deviceId = some device ∧ 0 ∉ device ∧ device ≠ js "unknown" ∧
    NoSeparator device
  id : NoSeparator event.id
  wellFormed : ∃ hosted, Hosts isDate event hosted

/-! ## One event -/

theorem get_eventValue {key : JsString} {value : JsValue}
    (member : (key, value) ∈ eventMembers event) : (reread (eventValue event)).get key =
      if value.isUndefined then .undefined else reread value := by
  have distinct : ((eventMembers event).map Prod.fst).Nodup := by
    have keys : (eventMembers event).map Prod.fst = [js "id", js "recordingUrl", js "type",
        js "completion", js "occurredAt", js "deviceId"] := rfl
    rw [keys]
    decide
  exact get_reread distinct member

/-- What a valid event is, read back from its request. -/
structure Validated (event hosted : PlaybackEvent) : Prop where
  id : hosted.id = event.id
  occurredAt : hosted.occurredAt = event.occurredAt
  deviceId : hosted.deviceId = event.deviceId.filter (· ≠ [])

theorem nonEmpty_string (text : JsString) :
    nonEmpty (.string text) = if text = [] then none else some text := by
  cases text <;> rfl

theorem Hosts.validated (hosts : Hosts isDate event hosted) : Validated event hosted := by
  have id : (reread (eventValue event)).get (js "id") = .string event.id :=
    get_eventValue (List.mem_cons_self ..)
  have dated : (js "occurredAt", JsValue.string event.occurredAt) ∈ eventMembers event := by
    simp [eventMembers]
  have occurredAt : (reread (eventValue event)).get (js "occurredAt") = .string event.occurredAt :=
    get_eventValue dated
  have deviceMember : (js "deviceId", (event.deviceId.map JsValue.string).getD .undefined) ∈
      eventMembers event := by
    simp [eventMembers]
  have deviceId : nonEmpty ((reread (eventValue event)).get (js "deviceId")) =
      event.deviceId.filter (· ≠ []) := by
    rw [get_eventValue deviceMember]
    cases event.deviceId with
    | none => rfl
    | some device => cases device <;> rfl
  unfold Hosts validate at hosts
  rw [id, occurredAt, deviceId, nonEmpty_string] at hosts
  split at hosts
  · cases hosts
  · rename_i read named
    split at named
    · cases named
    · cases named
      split at hosts
      · rename_i found
        split at hosts
        · cases hosts
          cases found
          exact ⟨rfl, rfl, rfl⟩
        · cases hosts
      · cases hosts

theorem Hosts.key (hosts : Hosts isDate event hosted) : dedupeKey hosted = hostedKey event := by
  obtain ⟨id, -, deviceId⟩ := hosts.validated
  rw [hostedKey, dedupeKey, dedupeKey, id, deviceId]

/-- A hosted event keeps its line. -/
theorem Sendable.lineSafe (sendable : Sendable isDate event) (dated : NoSeparator event.occurredAt)
    (hosts : Hosts isDate event hosted) : LineSafe hosted := by
  obtain ⟨id, occurredAt, deviceId⟩ := hosts.validated
  obtain ⟨device, scope, -, -, safe⟩ := sendable.device
  refine (Events.checked_of_validate hosts).lineSafe_iff.mpr ⟨?_, ?_, ?_⟩
  · rw [id]
    exact sendable.id
  · rw [occurredAt]
    exact dated
  · rw [deviceId, scope, Option.filter_some]
    split
    · exact safe
    · intro unit member
      cases member

/-! ## Keys -/

/-- The part before the first NUL is the scope. -/
theorem split_at_nul {left right more rest : JsString} (nul : 0 ∉ left) (other : 0 ∉ right)
    (same : left ++ 0 :: more = right ++ 0 :: rest) : left = right ∧ more = rest := by
  induction left generalizing right with
  | nil =>
      cases right with
      | nil =>
          cases same
          exact ⟨rfl, rfl⟩
      | cons unit right =>
          cases same
          exact absurd List.mem_cons_self other
  | cons unit left induction =>
      cases right with
      | nil =>
          cases same
          exact absurd List.mem_cons_self nul
      | cons first right =>
          obtain ⟨rfl, behind⟩ := List.cons.inj same
          obtain ⟨rfl, rfl⟩ := induction (fun member => nul (List.mem_cons_of_mem _ member))
            (fun member => other (List.mem_cons_of_mem _ member)) behind
          exact ⟨rfl, rfl⟩

/-- The scope that the key of a device's events begins with. -/
def scopeOf (device : JsString) : JsString := if device = [] then js "unknown" else device

theorem scopeOf_injective {second : JsString} (known : device ≠ js "unknown")
    (also : second ≠ js "unknown") (same : scopeOf device = scopeOf second) : device = second := by
  unfold scopeOf at same
  split at same <;> split at same
  · simp [*]
  · exact absurd same.symm also
  · exact absurd same known
  · exact same

theorem hostedKey_eq (scope : event.deviceId = some device) :
    hostedKey event = scopeOf device ++ 0 :: event.id := by
  rw [hostedKey, dedupeKey, scope, scopeOf]
  cases device <;> simp [Option.filter]

theorem nul_scopeOf (nul : 0 ∉ device) : 0 ∉ scopeOf device := by
  unfold scopeOf
  split
  · decide
  · exact nul

/-- One key, one event of one device. -/
theorem Sendable.of_key (sendable : Sendable isDate event) (also : Sendable isDate other)
    (same : hostedKey event = hostedKey other) :
    event.deviceId = other.deviceId ∧ event.id = other.id := by
  obtain ⟨device, scope, nul, known, -⟩ := sendable.device
  obtain ⟨second, otherScope, otherNul, otherKnown, -⟩ := also.device
  rw [hostedKey_eq scope, hostedKey_eq otherScope] at same
  obtain ⟨scopes, ids⟩ := split_at_nul (nul_scopeOf nul) (nul_scopeOf otherNul) same
  obtain rfl := scopeOf_injective known otherKnown scopes
  exact ⟨scope.trans otherScope.symm, ids⟩

/-! ## A batch -/

theorem rereadItems_eq (items : List JsValue) : rereadItems items = items.map reread := by
  induction items with
  | nil => rfl
  | cons item rest induction => rw [rereadItems, induction, List.map_cons]

theorem parse_requestBody (batch : List PlaybackEvent) : parse (requestBody batch) =
    some (.object [(js "events", .array (batch.map fun event => reread (eventValue event)))]) := by
  rw [requestBody, parse_stringify, reread, rereadMembers, if_neg (by simp [JsValue.isUndefined]),
    rereadMembers, reread, rereadItems_eq, List.map_map]
  rfl

/-- The host reads the events that were sent. -/
theorem readBatch_requestBody {events : List JsValue}
    (read : readBatch limits (requestBody batch) = .ok events) :
    events = batch.map fun event => reread (eventValue event) := by
  have submitted : ((JsValue.object [(js "events", .array (batch.map fun event =>
      reread (eventValue event)))]).get (js "events")).array? =
        some (batch.map fun event => reread (eventValue event)) := by
    simp [JsValue.get, JsValue.lookup, JsValue.array?]
  unfold readBatch at read
  rw [parse_requestBody] at read
  simp only [submitted] at read
  split at read
  · cases read
  · split at read
    · cases read
    · cases read
      rfl

/-- The candidates are events of the batch. -/
theorem sent_of_readBatch {events : List JsValue} {candidate : JsValue × Nat}
    (read : readBatch limits (requestBody batch) = .ok events) (member : candidate ∈ events.zipIdx) :
    ∃ event ∈ batch, candidate.1 = reread (eventValue event) := by
  have inside : candidate.1 ∈ events :=
    List.mem_of_getElem? (List.mem_zipIdx_iff_getElem?.mp member)
  rw [readBatch_requestBody read, List.mem_map] at inside
  obtain ⟨event, sent, same⟩ := inside
  exact ⟨event, sent, same.symm⟩

end Tapes.Outbox
