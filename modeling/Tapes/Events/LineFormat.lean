import Tapes.Events.TornTail
import Tapes.Outbox.EventHttp

namespace Tapes.Events

open Tapes.Js
open Tapes.Outbox (validate nonEmpty isRecordingUrl isBase58)

/-! What the ingest route accepts, written to the log and read back. -/

/-- What the route gives to `append`, of values whose recordings the host knows. -/
def validEvents (isDate : JsString → Bool) (values : List JsValue) : List PlaybackEvent :=
  values.filterMap fun value => (validate isDate value).toOption

/-- Every segment is empty or ends in a newline. -/
def EndsInNewline (dir : LogDir) : Prop :=
  ∀ day, content dir day = [] ∨ ∃ lines, content dir day = lines ++ [0x0A]

/-- The index is that of a store opened on the log. -/
def EventStore.Indexed (store : EventStore) : Prop :=
  ∀ key, key ∈ store.seen ↔ key ∈ (openStore store.dir).seen

/-- The accepted events follow the day's others in a replay, each with its own members, and a store
opened on the log has the same index, so that it takes none of them again. -/
structure RoundTrips (store : EventStore) (events : List PlaybackEvent) (now : Int) : Prop where
  replays : replay (store.append events now).1.dir =
    (segmentDays (store.append events now).1.dir).flatMap fun day =>
      readSegmentText (content store.dir day) ++
        if day = segmentDay now then (store.append events now).2.map recordOf else []
  members : ∀ event ∈ (store.append events now).2, ∀ key value,
    (key, value) ∈ eventMembers event → (recordOf event).get key = value
  index : ∀ key, key ∈ (openStore (store.append events now).1.dir).seen ↔
    key ∈ (store.append events now).1.seen
  retried : ∀ later, ((openStore (store.append events now).1.dir).append events later).2 = []

/-- No line separator in what the guest wrote. -/
def Unbroken (event : PlaybackEvent) : Prop :=
  NoSeparator event.id ∧ NoSeparator event.occurredAt ∧ NoSeparator (event.deviceId.getD [])

instance (event : PlaybackEvent) : Decidable (Unbroken event) :=
  inferInstanceAs (Decidable (_ ∧ _ ∧ _))

variable {isDate : JsString → Bool} {values : List JsValue} {event : PlaybackEvent}
  {store after : EventStore} {events : List PlaybackEvent} {accepted : List StoredEvent} {day : Day}

/-! ## Valid events -/

/-- The checks that an event has passed. -/
structure Checked (event : PlaybackEvent) : Prop where
  id : event.id ≠ []
  recordingUrl : isRecordingUrl event.recordingUrl = true
  completion : ∃ magnitude, event.completion = .finite false magnitude
  deviceId : event.deviceId ≠ some []

theorem nonEmpty_eq_some {value : JsValue} {text : JsString} (found : nonEmpty value = some text) :
    text ≠ [] := by
  unfold nonEmpty at found
  split at found
  · cases found
  · rename_i whole nonempty
    cases found
    exact nonempty
  · cases found

theorem clampCompletion_finite (negative : Bool) (magnitude : Magnitude) :
    ∃ clamped, Outbox.clampCompletion (.finite negative magnitude) = .finite false clamped := by
  cases negative with
  | true => exact ⟨_, rfl⟩
  | false =>
      rw [Outbox.clampCompletion]
      split
      · exact ⟨_, rfl⟩
      · exact ⟨_, rfl⟩

theorem checked_of_validate {value : JsValue} (valid : validate isDate value = .ok event) :
    Checked event := by
  unfold validate at valid
  split at valid
  · cases valid
  · rename_i id identified
    split at valid
    · split at valid
      · rename_i checks
        cases valid
        refine ⟨nonEmpty_eq_some identified, checks.2.1, clampCompletion_finite _ _, ?_⟩
        intro nothing
        exact nonEmpty_eq_some nothing rfl
      · cases valid
    · cases valid

theorem checked_of_mem (member : event ∈ validEvents isDate values) : Checked event := by
  obtain ⟨value, -, valid⟩ := List.mem_filterMap.mp member
  cases result : validate isDate value with
  | error id =>
      rw [result] at valid
      cases valid
  | ok event =>
      rw [result] at valid
      cases valid
      exact checked_of_validate result

theorem noSeparator_base58 {text : JsString} (key : text.all isBase58 = true) :
    NoSeparator text := by
  intro unit member
  have letter := List.all_eq_true.mp key unit member
  by_contra separator
  simp only [isSeparator, Bool.not_eq_false, Bool.or_eq_true, decide_eq_true_eq] at separator
  rcases separator with rfl | rfl <;> exact absurd letter (by decide)

theorem noSeparator_recordingUrl {url : JsString} (isUrl : isRecordingUrl url = true) :
    NoSeparator url := by
  simp only [isRecordingUrl, Bool.and_eq_true, List.isPrefixOf_iff_prefix] at isUrl
  obtain ⟨⟨⟨key, rfl⟩, -⟩, base58⟩ := isUrl
  have scheme : NoSeparator Outbox.recordingUrlScheme := by decide
  rw [List.drop_left] at base58
  intro unit member
  obtain before | after := List.mem_append.mp member
  · exact scheme unit before
  · exact noSeparator_base58 base58 unit after

theorem Checked.lineSafe_iff (checked : Checked event) : LineSafe event ↔ Unbroken event := by
  obtain ⟨magnitude, finite⟩ := checked.completion
  have url := noSeparator_recordingUrl checked.recordingUrl
  simp [LineSafe, Unbroken, finite, isFinite, url]

theorem Checked.members {stored : StoredEvent} (checked : Checked stored.toPlaybackEvent)
    {key : JsString} {value : JsValue} (member : (key, value) ∈ eventMembers stored) :
    (recordOf stored).get key = value := by
  obtain ⟨magnitude, finite⟩ := checked.completion
  rw [recordOf, get_storedValue stored member]
  simp only [eventMembers, List.mem_cons, Prod.mk.injEq, List.not_mem_nil, or_false] at member
  obtain ⟨-, rfl⟩ | ⟨-, rfl⟩ | ⟨-, rfl⟩ | ⟨-, rfl⟩ | ⟨-, rfl⟩ | ⟨-, rfl⟩ | ⟨-, rfl⟩ := member
  · rfl
  · rfl
  · rfl
  · rw [finite]
    rfl
  · rfl
  · cases stored.deviceId <;> rfl
  · rfl

/-! ## The segment after the append -/

theorem unterminated_newline (line lines : JsString) : unterminated line (lines ++ [0x0A]) = [] := by
  induction lines generalizing line with
  | nil => rfl
  | cons unit lines induction =>
      rw [List.cons_append, unterminated]
      split
      · exact induction []
      · exact induction _

theorem EndsInNewline.unterminated (ends : EndsInNewline store.dir) (day : Day) :
    unterminated [] (content store.dir day) = [] := by
  obtain empty | ⟨lines, whole⟩ := ends day
  · rw [empty]
    rfl
  · rw [whole, unterminated_newline]

theorem readable_nil (accepted : List StoredEvent) : readable [] accepted =
    (accepted.filter fun event => LineSafe event.toPlaybackEvent).map recordOf := by
  have blank : Spaces [] := by simp [Spaces]
  cases accepted with
  | nil => rfl
  | cons first rest =>
      rw [readable_eq (List.cons_ne_nil first rest), unharmed, List.filter_cons]
      by_cases safe : LineSafe first.toPlaybackEvent <;> simp [safe, blank]

/-- The day's segment yields what it did and the events whose lines are whole. -/
theorem Took.readSegmentText (took : Took store events day after accepted)
    (ends : EndsInNewline store.dir) (other : Day) :
    readSegmentText (content after.dir other) = readSegmentText (content store.dir other) ++
      if other = day then
        (accepted.filter fun event => LineSafe event.toPlaybackEvent).map recordOf
      else [] := by
  by_cases same : other = day
  · subst same
    have old := readSegmentText_eq (content store.dir other)
    rw [ends.unterminated, readLine_nil, Option.toList_none, List.append_nil] at old
    rw [took.grown.self, readSegmentText_append took.written, ends.unterminated, readable_nil, old,
      if_pos rfl]
  · rw [took.grown.other other same, if_neg same, List.append_nil]

/-! ## The law -/

theorem mem_openStore {dir : LogDir} {key : JsString} : key ∈ (openStore dir).seen ↔
    ∃ day, ∃ record ∈ readSegmentText (content dir day), storedKey record = key := by
  simp only [openStore, List.mem_map, mem_replay]
  constructor
  · rintro ⟨record, ⟨day, member⟩, same⟩
    exact ⟨day, record, member, same⟩
  · rintro ⟨day, record, member, same⟩
    exact ⟨record, ⟨day, member⟩, same⟩

theorem storedKey_recordOf (event : StoredEvent) : storedKey (recordOf event) = keyOf event :=
  storedKey_storedValue event

/-- A record of an accepted event is that of its line. -/
theorem Took.recordOf_mem (took : Took store events day after accepted) (indexed : store.Indexed)
    (ends : EndsInNewline store.dir) {stored : StoredEvent} (inside : stored ∈ accepted)
    (read : recordOf stored ∈ replay after.dir) : LineSafe stored.toPlaybackEvent := by
  obtain ⟨other, member⟩ := mem_replay.mp read
  rw [took.readSegmentText ends other] at member
  obtain old | new := List.mem_append.mp member
  · have held : keyOf stored ∈ store.seen :=
      (indexed _).mpr (mem_openStore.mpr ⟨other, recordOf stored, old, storedKey_recordOf stored⟩)
    exact absurd held (took.fresh stored inside)
  · split at new
    · obtain ⟨written, listed, same⟩ := List.mem_map.mp new
      obtain ⟨there, safe⟩ := List.mem_filter.mp listed
      have keys : keyOf written = keyOf stored := by
        rw [← storedKey_recordOf, same, storedKey_recordOf]
      rw [← List.inj_on_of_nodup_map took.distinct there inside keys]
      exact of_decide_eq_true safe
    · cases new

theorem append_day_listed (now : Int) (nonempty : (store.append events now).2 ≠ []) :
    segmentDay now ∈ segmentDays (store.append events now).1.dir := by
  unfold EventStore.append at nonempty ⊢
  dsimp only at nonempty ⊢
  split at nonempty
  · exact absurd rfl nonempty
  · rename_i accepts
    rw [if_neg accepts, segmentDays, List.mem_insertionSort, OrderedMap.mem_keys]
    exact ⟨_, OrderedMap.get?_set_self⟩

theorem Took.nothing_new (took : Took store events day after accepted) (later : EventStore)
    (index : ∀ key, key ∈ later.seen ↔ key ∈ after.seen) (now : Int) :
    (later.append events now).2 = [] := by
  have again := took_append later events now
  by_contra accepts
  obtain ⟨stored, member⟩ := List.exists_mem_of_ne_nil _ accepts
  have new := (again.new stored.toPlaybackEvent).mpr (List.mem_map_of_mem member)
  obtain ⟨earlier, rest, rfl, named, absent, -⟩ := new
  exact absent ((index _).mpr (took.taken stored.toPlaybackEvent (by simp) named))

/-- On a log whose segments end in a newline, the accepted events of a batch read back, in order and
under the same index, exactly when no line separator is in what the guests of its new events
wrote. -/
theorem roundTrips_iff (isDate : JsString → Bool) (store : EventStore) (values : List JsValue)
    (now : Int) (indexed : store.Indexed) (ends : EndsInNewline store.dir) :
    RoundTrips store (validEvents isDate values) now ↔
      ∀ event, New store.seen (validEvents isDate values) event → Unbroken event := by
  have took := took_append store (validEvents isDate values) now
  have checked : ∀ stored ∈ (store.append (validEvents isDate values) now).2,
      Checked stored.toPlaybackEvent := by
    intro stored member
    obtain ⟨earlier, later, batch, -⟩ :=
      (took.new stored.toPlaybackEvent).mpr (List.mem_map_of_mem member)
    have member : stored.toPlaybackEvent ∈ validEvents isDate values := by simp [batch]
    exact checked_of_mem member
  simp only [took.new, List.forall_mem_map]
  constructor
  · intro roundTrips stored member
    rw [← (checked stored member).lineSafe_iff]
    refine took.recordOf_mem indexed ends member ?_
    rw [roundTrips.replays, List.mem_flatMap]
    refine ⟨segmentDay now, append_day_listed now (List.ne_nil_of_mem member), ?_⟩
    rw [if_pos rfl]
    exact List.mem_append_right _ (List.mem_map_of_mem member)
  · intro unbroken
    have safe : (store.append (validEvents isDate values) now).2.filter
        (fun stored => LineSafe stored.toPlaybackEvent) =
          (store.append (validEvents isDate values) now).2 := by
      refine List.filter_eq_self.mpr fun stored member => decide_eq_true ?_
      exact (checked stored member).lineSafe_iff.mpr (unbroken stored member)
    have read := took.readSegmentText ends
    rw [safe] at read
    have index : ∀ key, key ∈ (openStore (store.append (validEvents isDate values) now).1.dir).seen ↔
        key ∈ (store.append (validEvents isDate values) now).1.seen := by
      intro key
      rw [took.index, indexed, mem_openStore, mem_openStore]
      constructor
      · rintro ⟨day, record, member, same⟩
        rw [read day] at member
        obtain old | new := List.mem_append.mp member
        · exact .inl ⟨day, record, old, same⟩
        · split at new
          · obtain ⟨stored, inside, rfl⟩ := List.mem_map.mp new
            rw [storedKey_recordOf] at same
            exact .inr (List.mem_map.mpr ⟨stored, inside, same⟩)
          · cases new
      · rintro (⟨day, record, old, same⟩ | new)
        · refine ⟨day, record, ?_, same⟩
          rw [read day]
          exact List.mem_append_left _ old
        · obtain ⟨stored, inside, same⟩ := List.mem_map.mp new
          refine ⟨segmentDay now, recordOf stored, ?_, (storedKey_recordOf stored).trans same⟩
          rw [read (segmentDay now), if_pos rfl]
          exact List.mem_append_right _ (List.mem_map_of_mem inside)
    refine ⟨?_, fun stored member key value => (checked stored member).members, index, ?_⟩
    · rw [replay]
      exact List.flatMap_congr fun day _ => read day
    · exact took.nothing_new _ index

/-! ## A line separator in an id -/

def playValue (id : JsString) : JsValue := .object [(js "id", .string id),
  (js "recordingUrl", .string (js "automerge:1111111111111111")), (js "type", .string (js "play")),
  (js "completion", .number (.finite false .one)),
  (js "occurredAt", .string (js "2026-01-01T00:00:00.000Z")), (js "deviceId", .string (js "phone"))]

def emptyStore : EventStore := openStore OrderedMap.empty

theorem emptyStore_indexed : emptyStore.Indexed := fun _ => Iff.rfl

theorem emptyStore_ends : EndsInNewline emptyStore.dir := fun _ => .inl rfl

/-- The event as the route builds it. -/
def playNamed (id : JsString) : PlaybackEvent where
  id
  recordingUrl := js "automerge:1111111111111111"
  completion := .finite false .one
  occurredAt := js "2026-01-01T00:00:00.000Z"
  deviceId := some (js "phone")

theorem plain_id_round_trips :
    RoundTrips emptyStore (validEvents (fun _ => true) [playValue (js "a")]) 0 := by
  have valid : validEvents (fun _ => true) [playValue (js "a")] = [playNamed (js "a")] := by
    decide +kernel
  refine (roundTrips_iff (fun _ => true) emptyStore [playValue (js "a")] 0 emptyStore_indexed
    emptyStore_ends).mpr fun event new => ?_
  rw [valid] at new
  rw [new_of_single new]
  decide +kernel

/-- An accepted play whose id holds a line separator is not read back. -/
theorem separator_id_is_lost :
    ¬ RoundTrips emptyStore (validEvents (fun _ => true) [playValue [0x61, 0x2028]]) 0 := by
  intro roundTrips
  have indexed := (roundTrips.index (dedupeKey (playNamed [0x61, 0x2028]))).mpr (by decide +kernel)
  revert indexed
  decide +kernel

end Tapes.Events
