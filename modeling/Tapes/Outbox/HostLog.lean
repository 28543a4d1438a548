import Tapes.Events.TornTail
import Tapes.Outbox.Delivery

namespace Tapes.Outbox

open Tapes.Js
open Tapes.Events (Day EventStore LineSafe Log LogDir NoSeparator PlaybackEvent StoredEvent Tally
  TotalsMap Written admitAll admits_admitAll appendFile content dedupeKey forget keyOf linesText
  openStore payload payload_eq readSegment readSegmentText recordOf replay segmentDay segmentDays
  tally tallyOf)

/-! The host's side: the files hold the lines of a list of events, which the index and the
rollup agree with. -/

variable {dir : LogDir} {log : Log} {host : Host} {append : RunningAppend} {day : Day}

/-! ## The files -/

/-- An event whose line reads as the event. -/
structure Whole (event : StoredEvent) : Prop where
  safe : LineSafe event.toPlaybackEvent
  identified : event.id ≠ []
  received : NoSeparator event.receivedAt

def keysOf (log : Log) : List JsString := log.map fun entry => keyOf entry.2

/-- The files hold the lines of these events and no other text, each key once. -/
structure Holds (dir : LogDir) (log : Log) : Prop where
  text : ∀ day, content dir day = linesText (readSegment log day)
  whole : ∀ entry ∈ log, Whole entry.2
  distinct : (keysOf log).Nodup

theorem mem_readSegment {event : StoredEvent} :
    event ∈ readSegment log day ↔ (day, event) ∈ log := by
  simp [readSegment]

theorem readable_whole {events : List StoredEvent} (whole : ∀ event ∈ events, Whole event) :
    Events.readable [] events = events.map recordOf := by
  induction events with
  | nil => rfl
  | cons event rest induction =>
      obtain ⟨here, others⟩ := List.forall_mem_cons.mp whole
      have blank : Spaces [] := nofun
      simp [Events.readable, here.safe, blank, induction others, recordOf]

theorem readSegmentText_linesText {events : List StoredEvent}
    (whole : ∀ event ∈ events, Whole event) :
    readSegmentText (linesText events) = events.map recordOf := by
  have written : Written events := fun event member =>
    ⟨(whole event member).identified, (whole event member).received⟩
  have read := Events.readSegmentText_append written []
  rw [List.nil_append] at read
  rw [read]
  exact readable_whole whole

theorem linesText_eq_nil {events : List StoredEvent} (none : linesText events = []) :
    events = [] := by
  cases events with
  | nil => rfl
  | cons event rest => simp [linesText] at none

/-- A replay reads the events of the log. -/
theorem Holds.replay_perm (holds : Holds dir log) :
    (replay dir).Perm (log.map fun entry => recordOf entry.2) := by
  have read : replay dir = ((segmentDays dir).flatMap (readSegment log)).map recordOf := by
    rw [replay, List.map_flatMap]
    congr 1
    funext day
    rw [holds.text]
    exact readSegmentText_linesText fun event member => holds.whole _ (mem_readSegment.mp member)
  have listed : ∀ entry ∈ log, entry.1 ∈ segmentDays dir := by
    intro entry member
    by_contra absent
    have nothing := linesText_eq_nil ((holds.text _).symm.trans (Events.content_of_not_mem absent))
    have inside : entry.2 ∈ readSegment log entry.1 := mem_readSegment.mpr member
    rw [nothing] at inside
    cases inside
  have all : log.filter (·.1 ∈ segmentDays dir) = log :=
    List.filter_eq_self.mpr fun entry member => decide_eq_true (listed entry member)
  have perm := Events.flatMap_readSegment_perm (Events.segmentDays_nodup dir) log
  rw [all] at perm
  have mapped := perm.map recordOf
  rw [List.map_map] at mapped
  rw [read]
  exact mapped

theorem Holds.keys (holds : Holds dir log) :
    ((replay dir).map Events.storedKey).Perm (keysOf log) := by
  have perm := holds.replay_perm.map Events.storedKey
  rw [List.map_map] at perm
  have same : (log.map (Events.storedKey ∘ fun entry => recordOf entry.2)) = keysOf log :=
    List.map_congr_left fun entry _ => Events.storedKey_storedValue entry.2
  rwa [same] at perm

/-- Events that can be written behind the log. -/
structure Ready (log : Log) (append : RunningAppend) : Prop where
  nonempty : append.accepted ≠ []
  whole : ∀ event ∈ append.accepted, Whole event
  fresh : ∀ event ∈ append.accepted, keyOf event ∉ keysOf log
  distinct : (append.accepted.map keyOf).Nodup

/-- The log with the events of an append. -/
def grown (log : Log) (append : RunningAppend) : Log :=
  log ++ append.accepted.map fun event => (append.day, event)

theorem mem_keysOf_grown {key : JsString} : key ∈ keysOf (grown log append) ↔
    key ∈ keysOf log ∨ key ∈ append.accepted.map keyOf := by
  simp [keysOf, grown]

theorem readSegment_grown (day : Day) : readSegment (grown log append) day =
    readSegment log day ++ if append.day = day then append.accepted else [] := by
  rw [readSegment, grown, List.filter_append, List.map_append, readSegment]
  congr 1
  split <;> rename_i same <;> simp [List.filter_map, Function.comp_def, same]

theorem Holds.grow (holds : Holds dir log) (ready : Ready log append) :
    Holds (appendFile dir append.day (payload append.accepted)) (grown log append) := by
  refine ⟨?_, ?_, ?_⟩
  · intro day
    rw [readSegment_grown, appendFile, payload_eq ready.nonempty]
    by_cases same : append.day = day
    · subst same
      rw [Events.content_set_self, holds.text, if_pos rfl, linesText, linesText, linesText,
        List.flatMap_append]
    · rw [Events.content_set_other _ _ (Ne.symm same), holds.text, if_neg same, List.append_nil]
  · intro entry member
    rcases List.mem_append.mp member with member | member
    · exact holds.whole entry member
    · obtain ⟨event, accepted, rfl⟩ := List.mem_map.mp member
      exact ready.whole event accepted
  · have keys : keysOf (grown log append) = keysOf log ++ append.accepted.map keyOf := by
      simp [keysOf, grown]
    rw [keys, List.nodup_append]
    refine ⟨holds.distinct, ready.distinct, ?_⟩
    intro key held other accepted same
    obtain ⟨event, member, rfl⟩ := List.mem_map.mp accepted
    exact ready.fresh event member (same ▸ held)

/-! ## The index and the rollup -/

def Host.unrecorded (host : Host) : List StoredEvent := host.resolved.flatMap (·.accepted)

structure HostSound (host : Host) (log : Log) : Prop where
  holds : Holds host.store.dir log
  index : ∀ key, key ∈ host.store.seen ↔ key ∈ keysOf log ∨
    ∃ append, host.writing = some append ∧ key ∈ append.accepted.map keyOf
  writing : ∀ append, host.writing = some append → Ready log append
  counted : tallyOf host.rollup + tally host.unrecorded = tally (log.map Prod.snd)

theorem HostSound.index_idle (sound : HostSound host log) (idle : host.writing = none)
    (key : JsString) : key ∈ host.store.seen ↔ key ∈ keysOf log := by
  rw [sound.index]
  simp [idle]

theorem clampCompletion_written (negative : Bool) (magnitude : Magnitude) :
    Events.clampCompletion (.written negative magnitude) =
      Events.clampCompletion (.finite negative magnitude) := by
  by_cases zero : magnitude.units = 0
  · cases negative <;>
      simp only [JsNumber.written, zero, Events.clampCompletion, Nat.min_zero, ne_eq,
        not_true_eq_false, decide_false, Bool.and_false]
  · cases negative <;>
      simp only [JsNumber.written, zero, Events.clampCompletion, ne_eq, not_false_eq_true,
        decide_true, Bool.and_true]

/-- A line counts as the event written there. -/
theorem counted_eventOf (event : StoredEvent) :
    Events.counted (Events.eventOf (recordOf event)) = Events.counted event := by
  have recordingUrl := Events.get_storedValue event (.tail _ (List.mem_cons_self ..))
  have completion := Events.get_storedValue event
    (.tail _ (.tail _ (.tail _ (List.mem_cons_self ..))))
  simp only [Events.counted, Events.eventOf, recordOf, recordingUrl, completion]
  cases event.completion with
  | finite negative magnitude =>
      simp only [JsValue.isUndefined, reread, JsValue.string?, JsValue.number?, Bool.false_eq_true,
        if_false, Option.getD_some, clampCompletion_written]
  | nan | infinite =>
      simp [JsValue.isUndefined, reread, JsValue.string?, JsValue.number?, Events.clampCompletion]

/-- Opening on the files finds the events, whatever went on before. -/
theorem hostSound_openHost (holds : Holds dir log) : HostSound (openHost dir) log := by
  refine ⟨holds, ?_, nofun, ?_⟩
  · intro key
    have same : key ∈ (openHost dir).store.seen ↔ key ∈ keysOf log := holds.keys.mem_iff
    rw [same]
    simp [openHost]
  · have rebuilt : tallyOf (openHost dir).rollup = tally ((replay dir).map Events.eventOf) := by
      simp [openHost, Events.tallyOf_deriveAggregates]
    have nothing : (openHost dir).unrecorded = [] := rfl
    rw [rebuilt, nothing, Events.tally_nil, add_zero,
      Events.tally_perm (holds.replay_perm.map Events.eventOf), tally, tally]
    simp [List.map_map, Function.comp_def, counted_eventOf]

theorem HostSound.withTail (sound : HostSound host log) (tail : List PendingAppend) :
    HostSound { host with tail } log :=
  ⟨sound.holds, sound.index, sound.writing, sound.counted⟩

theorem HostSound.begin {pending : PendingAppend} (sound : HostSound host log)
    (idle : host.writing = none)
    (safe : ∀ event ∈ pending.judged.valid, LineSafe event) :
    HostSound (host.begin pending) log := by
  have admits := admits_admitAll host.store.seen pending.judged.valid (toISOString pending.now)
  unfold Host.begin
  dsimp only
  split
  · rename_i nothing
    refine ⟨sound.holds, ?_, ?_, ?_⟩
    · intro key
      rw [admits.index, nothing, sound.index]
      simp [idle]
    · intro append running
      rw [idle] at running
      cases running
    · have same := sound.counted
      simp only [Host.unrecorded, List.flatMap_append] at same ⊢
      simpa [nothing] using same
  · rename_i nonempty
    refine ⟨sound.holds, ?_, ?_, sound.counted⟩
    · intro key
      rw [admits.index, sound.index_idle idle]
      simp
    · intro append running
      cases running
      refine ⟨nonempty, ?_, ?_, admits.distinct⟩
      · intro event member
        have new := (admits.new event.toPlaybackEvent).mpr (List.mem_map_of_mem member)
        obtain ⟨earlier, later, split, identified, -, -⟩ := new
        refine ⟨safe _ (by simp [split]), identified, ?_⟩
        rw [admits.received event member]
        exact Events.noSeparator_ascii (ascii_toISOString pending.now)
      · intro event member
        rw [← sound.index_idle idle]
        exact admits.fresh event member

theorem HostSound.wrote (sound : HostSound host log) (running : host.writing = some append) :
    HostSound (host.wrote append) (grown log append) := by
  refine ⟨sound.holds.grow (sound.writing append running), ?_, nofun, ?_⟩
  · intro key
    have index := sound.index key
    rw [running] at index
    rw [mem_keysOf_grown]
    simpa [Host.wrote] using index
  · have same := sound.counted
    have events : (grown log append).map Prod.snd = log.map Prod.snd ++ append.accepted := by
      simp [grown, Function.comp_def]
    rw [events, Events.tally_append, ← same]
    simp [Host.wrote, Host.unrecorded, add_assoc]

theorem HostSound.failed (sound : HostSound host log) (running : host.writing = some append) :
    HostSound (host.failed append) log := by
  refine ⟨sound.holds, ?_, nofun, sound.counted⟩
  intro key
  have index := sound.index key
  rw [running] at index
  have ready := sound.writing append running
  have kept : key ∈ (host.failed append).store.seen ↔
      key ∈ host.store.seen ∧ key ∉ append.accepted.map keyOf := by
    simp [Host.failed, forget, keyOf]
  rw [kept, index]
  constructor
  · rintro ⟨held | ⟨other, same, accepted⟩, absent⟩
    · exact .inl held
    · cases same
      exact absurd accepted absent
  · rintro (held | ⟨other, same, -⟩)
    · refine ⟨.inl held, ?_⟩
      intro accepted
      obtain ⟨event, member, rfl⟩ := List.mem_map.mp accepted
      exact ready.fresh event member held
    · cases same

theorem HostSound.recorded {rest : List RunningAppend} (sound : HostSound host log)
    (next : host.resolved = append :: rest) :
    HostSound (Host.recorded { host with resolved := rest } append) log := by
  refine ⟨sound.holds, sound.index, sound.writing, ?_⟩
  have same := sound.counted
  simp only [Host.unrecorded, next, List.flatMap_cons, Events.tally_append] at same
  rw [← same]
  simp [Host.recorded, Host.unrecorded, Events.tallyOf_foldl_foldEvent, add_assoc]

end Tapes.Outbox
