import Mathlib.Data.List.Induction
import Tapes.Events.Event

namespace Tapes.Events

open Tapes.Js

/-! What `append` accepts of a batch: the first event of each new key. -/

def keyOf (event : StoredEvent) : JsString := dedupeKey event.toPlaybackEvent

/-- The event is the first of its key in the batch, and its key is not in the index. -/
def New (seen : List JsString) (events : List PlaybackEvent) (event : PlaybackEvent) : Prop :=
  ∃ earlier later, events = earlier ++ event :: later ∧ event.id ≠ [] ∧
    dedupeKey event ∉ seen ∧ ∀ other ∈ earlier, other.id ≠ [] → dedupeKey other ≠ dedupeKey event

/-- What one pass over a batch leaves. -/
structure Admits (seen : List JsString) (events : List PlaybackEvent) (receivedAt : JsString)
    (admission : Admission) : Prop where
  index : ∀ key, key ∈ admission.seen ↔ key ∈ seen ∨ key ∈ admission.accepted.map keyOf
  fresh : ∀ stored ∈ admission.accepted, keyOf stored ∉ seen
  distinct : (admission.accepted.map keyOf).Nodup
  received : ∀ stored ∈ admission.accepted, stored.receivedAt = receivedAt
  new : ∀ event, New seen events event ↔ event ∈ admission.accepted.map (·.toPlaybackEvent)
  duplicates : ∀ id ∈ admission.duplicates, ∃ event ∈ events,
    event.id = id ∧ dedupeKey event ∈ admission.seen
  taken : ∀ event ∈ events, event.id ≠ [] → dedupeKey event ∈ admission.seen

variable {seen : List JsString} {events : List PlaybackEvent} {event : PlaybackEvent}
  {receivedAt : JsString} {admission : Admission}

theorem admit_append (seen : List JsString) (events : List PlaybackEvent) (event : PlaybackEvent)
    (receivedAt : JsString) : admitAll seen (events ++ [event]) receivedAt =
      admitOne receivedAt (admitAll seen events receivedAt) event := by
  simp [admitAll, List.foldl_append]

/-- The last event of a batch is new when nothing before it has its key. -/
theorem new_append {other : PlaybackEvent} : New seen (events ++ [event]) other ↔
    New seen events other ∨ (other = event ∧ event.id ≠ [] ∧ dedupeKey event ∉ seen ∧
      ∀ earlier ∈ events, earlier.id ≠ [] → dedupeKey earlier ≠ dedupeKey event) := by
  constructor
  · rintro ⟨earlier, later, split, identified, absent, first⟩
    cases later using List.reverseRecOn with
    | nil =>
        obtain ⟨rfl, same⟩ := List.append_inj' split rfl
        cases same
        exact .inr ⟨rfl, identified, absent, first⟩
    | append_singleton later last =>
        rw [← List.cons_append, ← List.append_assoc] at split
        obtain ⟨rfl, -⟩ := List.append_inj' split rfl
        exact .inl ⟨earlier, later, rfl, identified, absent, first⟩
  · rintro (⟨earlier, later, rfl, identified, absent, first⟩ | ⟨rfl, identified, absent, first⟩)
    · exact ⟨earlier, later ++ [event], by simp, identified, absent, first⟩
    · exact ⟨events, [], rfl, identified, absent, first⟩

theorem Admits.skip (admits : Admits seen events receivedAt admission) (empty : event.id = []) :
    Admits seen (events ++ [event]) receivedAt admission := by
  refine ⟨admits.index, admits.fresh, admits.distinct, admits.received, ?_, ?_, ?_⟩
  · intro other
    rw [new_append, ← admits.new]
    simp [empty]
  · intro id member
    obtain ⟨event, inside, same, held⟩ := admits.duplicates id member
    exact ⟨event, List.mem_append_left _ inside, same, held⟩
  · intro other member identified
    rcases List.mem_append.mp member with member | member
    · exact admits.taken other member identified
    · rw [List.mem_singleton.mp member] at identified
      exact absurd empty identified

theorem Admits.repeat (admits : Admits seen events receivedAt admission)
    (held : dedupeKey event ∈ admission.seen) :
    Admits seen (events ++ [event]) receivedAt
      { admission with duplicates := admission.duplicates ++ [event.id] } := by
  refine ⟨admits.index, admits.fresh, admits.distinct, admits.received, ?_, ?_, ?_⟩
  · intro other
    rw [new_append, ← admits.new]
    refine or_iff_left ?_
    rintro ⟨-, -, absent, first⟩
    rcases (admits.index _).mp held with inside | inside
    · exact absent inside
    · obtain ⟨stored, accepted, same⟩ := List.mem_map.mp inside
      have new := (admits.new stored.toPlaybackEvent).mpr (List.mem_map_of_mem accepted)
      obtain ⟨earlier, later, rfl, named, -, -⟩ := new
      exact first stored.toPlaybackEvent (by simp) named same
  · intro id member
    rcases List.mem_append.mp member with member | member
    · obtain ⟨event, inside, same, held⟩ := admits.duplicates id member
      exact ⟨event, List.mem_append_left _ inside, same, held⟩
    · exact ⟨event, by simp, (List.mem_singleton.mp member).symm, held⟩
  · intro other member named
    rcases List.mem_append.mp member with member | member
    · exact admits.taken other member named
    · rwa [List.mem_singleton.mp member]

theorem Admits.accept (admits : Admits seen events receivedAt admission)
    (identified : event.id ≠ []) (absent : dedupeKey event ∉ admission.seen) :
    Admits seen (events ++ [event]) receivedAt
      { admission with
        accepted := admission.accepted ++ [{ event with receivedAt }]
        seen := dedupeKey event :: admission.seen } := by
  have key : keyOf { event with receivedAt } = dedupeKey event := rfl
  have outside := (admits.index (dedupeKey event)).not.mp absent
  obtain ⟨notSeen, notAccepted⟩ := not_or.mp outside
  refine ⟨?_, ?_, ?_, ?_, ?_, ?_, ?_⟩
  · intro other
    rw [List.mem_cons, admits.index, List.map_append, List.mem_append]
    simp only [List.map_cons, List.map_nil, List.mem_singleton, key]
    tauto
  · intro stored member
    rcases List.mem_append.mp member with member | member
    · exact admits.fresh stored member
    · rw [List.mem_singleton.mp member, key]
      exact notSeen
  · rw [List.map_append, List.nodup_append]
    refine ⟨admits.distinct, by simp, ?_⟩
    intro held member other last same
    rw [List.map_singleton, List.mem_singleton, key] at last
    rw [same, last] at member
    exact notAccepted member
  · intro stored member
    rcases List.mem_append.mp member with member | member
    · exact admits.received stored member
    · rw [List.mem_singleton.mp member]
  · intro other
    rw [new_append, admits.new, List.map_append, List.mem_append, List.map_singleton,
      List.mem_singleton]
    refine or_congr_right ⟨fun last => last.1, fun same => ⟨same, identified, notSeen, ?_⟩⟩
    intro earlier member named same
    exact absent (same ▸ admits.taken earlier member named)
  · intro id member
    obtain ⟨event, inside, same, held⟩ := admits.duplicates id member
    exact ⟨event, List.mem_append_left _ inside, same, List.mem_cons_of_mem _ held⟩
  · intro other member named
    rcases List.mem_append.mp member with member | member
    · exact List.mem_cons_of_mem _ (admits.taken other member named)
    · rw [List.mem_singleton.mp member]
      exact List.mem_cons_self

theorem admits_admitAll (seen : List JsString) (events : List PlaybackEvent) (receivedAt : JsString) :
    Admits seen events receivedAt (admitAll seen events receivedAt) := by
  induction events using List.reverseRecOn with
  | nil => exact ⟨by simp [admitAll], by simp [admitAll], by simp [admitAll], by simp [admitAll],
      by simp [admitAll, New], by simp [admitAll], by simp⟩
  | append_singleton events event induction =>
      rw [admit_append, admitOne]
      split
      · rename_i empty
        exact induction.skip empty
      · rename_i identified
        split
        · rename_i held
          exact induction.repeat held
        · rename_i absent
          exact induction.accept identified absent

end Tapes.Events
