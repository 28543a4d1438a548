import Tapes.Events.LineFormat
import Tapes.Machine.Run

namespace Tapes.Events

open Tapes.Js Tapes.Machine

/-! Which plays `append` reports as duplicates, over batches, sweeps and restarts. -/

/-- Which play of which device. No device is a value of its own. -/
def identity (event : PlaybackEvent) : Option JsString × JsString := (event.deviceId, event.id)

/-- `rm` of one segment. -/
def removeSegment (dir : LogDir) (day : Day) : LogDir :=
  ⟨dir.entries.filter (·.1 ≠ day), dir.distinct.sublist (List.filter_sublist.map Prod.fst)⟩

/-- The part of `sweep` for one segment. -/
def EventStore.sweepSegment (store : EventStore) (day : Day) : EventStore :=
  ⟨removeSegment store.dir day,
    store.seen.filter (· ∉ (readSegmentText (content store.dir day)).map storedKey)⟩

/-- `held` are the events that were accepted and whose segments are there. -/
structure Scope where
  store : EventStore
  held : List (Day × StoredEvent)

def Scope.new : Scope := ⟨openStore OrderedMap.empty, []⟩

def Scope.events (scope : Scope) : List PlaybackEvent := scope.held.map fun entry => entry.2.toPlaybackEvent

def Scope.heldOn (scope : Scope) (day : Day) : List StoredEvent :=
  (scope.held.filter (·.1 = day)).map Prod.snd

inductive ScopeAction where
  | append (events : List PlaybackEvent) (now : Int)
  | sweepSegment (day : Day)
  | restart

def scopeStep (scope : Scope) : ScopeAction → Option Scope
  | .append events now =>
      let (store, accepted) := scope.store.append events now
      some ⟨store, scope.held ++ accepted.map (segmentDay now, ·)⟩
  | .sweepSegment day =>
      some ⟨scope.store.sweepSegment day, scope.held.filter (·.1 ≠ day)⟩
  | .restart => some ⟨openStore scope.store.dir, scope.held⟩

/-- `append` reports the event as a duplicate, after these of its batch. -/
def Reported (seen : List JsString) (receivedAt : JsString) (earlier : List PlaybackEvent)
    (event : PlaybackEvent) : Prop :=
  (admitAll seen (earlier ++ [event]) receivedAt).duplicates =
    (admitAll seen earlier receivedAt).duplicates ++ [event.id]

/-- An event is reported as a duplicate if and only if one of the same device with the same id was
accepted and is held. -/
def TellsApart (scope : Scope) (events : List PlaybackEvent) (now : Int) : Prop :=
  ∀ earlier event later, events = earlier ++ event :: later →
    (Reported scope.store.seen (toISOString now) earlier event ↔
      ∃ other, (other ∈ scope.events ∨
        other ∈ (admitAll scope.store.seen earlier (toISOString now)).accepted.map
          (·.toPlaybackEvent)) ∧ identity other = identity event)

instance {seen : List JsString} {receivedAt : JsString} {earlier : List PlaybackEvent}
    {event : PlaybackEvent} : Decidable (Reported seen receivedAt earlier event) :=
  inferInstanceAs (Decidable (_ = _))

/-- No event of the batch has the key of another play, of the batch or held. -/
def Unmistaken (scope : Scope) (events : List PlaybackEvent) : Prop :=
  ∀ event ∈ events, ∀ other, other ∈ scope.events ∨ other ∈ events →
    dedupeKey other = dedupeKey event → identity other = identity event

instance (scope : Scope) (events : List PlaybackEvent) : Decidable (Unmistaken scope events) :=
  decidable_of_iff (∀ event ∈ events, ∀ other ∈ scope.events ++ events,
    dedupeKey other = dedupeKey event → identity other = identity event)
    (by simp only [List.mem_append, Unmistaken])

/-- A segment is read back only where its lines are whole. -/
def ReadsWhole (scope : Scope) : ScopeAction → Prop
  | .append _ _ => True
  | .sweepSegment day => ∀ entry ∈ scope.held, entry.1 = day → LineSafe entry.2.toPlaybackEvent
  | .restart => ∀ entry ∈ scope.held, LineSafe entry.2.toPlaybackEvent

/-! ## The invariant -/

structure Scoping (scope : Scope) : Prop where
  lines : ∀ day, content scope.store.dir day = linesText (scope.heldOn day)
  written : Written (scope.held.map Prod.snd)
  distinct : (scope.events.map dedupeKey).Nodup
  index : ∀ key, key ∈ scope.store.seen ↔ key ∈ scope.events.map dedupeKey

variable {scope next : Scope} {events : List PlaybackEvent} {event : PlaybackEvent} {day : Day}
  {now : Int} {accepted : List StoredEvent}

theorem events_append (accepted : List StoredEvent) (day : Day) (store : EventStore) :
    Scope.events ⟨store, scope.held ++ accepted.map (day, ·)⟩ =
      scope.events ++ accepted.map (·.toPlaybackEvent) := by
  simp [Scope.events, List.map_append, Function.comp_def]

theorem heldOn_append (accepted : List StoredEvent) (day other : Day) (store : EventStore) :
    Scope.heldOn ⟨store, scope.held ++ accepted.map (day, ·)⟩ other =
      scope.heldOn other ++ if other = day then accepted else [] := by
  rw [Scope.heldOn, Scope.heldOn, List.filter_append, List.map_append]
  congr 1
  by_cases same : other = day
  · subst same
    simp [List.filter_map, Function.comp_def]
  · simp [List.filter_map, Function.comp_def, same, Ne.symm same]

theorem Scoping.append (scoping : Scoping scope) (events : List PlaybackEvent) (now : Int) :
    Scoping ⟨(scope.store.append events now).1,
      scope.held ++ (scope.store.append events now).2.map (segmentDay now, ·)⟩ := by
  have took := took_append scope.store events now
  refine ⟨?_, ?_, ?_, ?_⟩
  · intro day
    rw [heldOn_append]
    by_cases same : day = segmentDay now
    · subst same
      dsimp only
      rw [took.grown.self, scoping.lines, if_pos rfl, linesText, linesText, linesText,
        List.flatMap_append]
    · dsimp only
      rw [took.grown.other day same, scoping.lines, if_neg same, List.append_nil]
  · rw [List.map_append]
    intro stored member
    obtain before | new := List.mem_append.mp member
    · exact scoping.written stored before
    · obtain ⟨entry, inside, rfl⟩ := List.mem_map.mp new
      obtain ⟨accepted, there, rfl⟩ := List.mem_map.mp inside
      exact took.written accepted there
  · rw [events_append, List.map_append, List.nodup_append, List.map_map]
    refine ⟨scoping.distinct, took.distinct, ?_⟩
    intro key held other new same
    obtain ⟨stored, inside, rfl⟩ := List.mem_map.mp new
    rw [same] at held
    exact took.fresh stored inside ((scoping.index _).mpr held)
  · intro key
    rw [took.index, scoping.index, events_append, List.map_append, List.mem_append, List.map_map]
    rfl

/-- What a segment with whole lines is read as. -/
theorem Scoping.read (scoping : Scoping scope)
    (whole : ∀ entry ∈ scope.held, entry.1 = day → LineSafe entry.2.toPlaybackEvent) :
    readSegmentText (content scope.store.dir day) = (scope.heldOn day).map recordOf := by
  have written : Written (scope.heldOn day) := by
    intro stored member
    obtain ⟨entry, inside, rfl⟩ := List.mem_map.mp member
    exact scoping.written entry.2 (List.mem_map_of_mem (List.mem_of_mem_filter inside))
  have safe : (scope.heldOn day).filter (fun stored => LineSafe stored.toPlaybackEvent) =
      scope.heldOn day := by
    refine List.filter_eq_self.mpr fun stored member => decide_eq_true ?_
    obtain ⟨entry, inside, rfl⟩ := List.mem_map.mp member
    obtain ⟨there, same⟩ := List.mem_filter.mp inside
    exact whole entry there (of_decide_eq_true same)
  have read := readSegmentText_append written []
  rw [List.nil_append] at read
  rw [scoping.lines, read]
  simp only [finished, unterminated, List.filterMap_nil, List.nil_append, readable_nil, safe]

theorem Scoping.restart (scoping : Scoping scope)
    (whole : ∀ entry ∈ scope.held, LineSafe entry.2.toPlaybackEvent) :
    Scoping ⟨openStore scope.store.dir, scope.held⟩ := by
  refine ⟨scoping.lines, scoping.written, scoping.distinct, ?_⟩
  intro key
  have read (day : Day) : readSegmentText (content scope.store.dir day) =
      (scope.heldOn day).map recordOf := scoping.read fun entry inside _ => whole entry inside
  dsimp only
  rw [mem_openStore]
  simp only [read, Scope.events, List.map_map, List.mem_map]
  constructor
  · rintro ⟨day, record, ⟨stored, listed, rfl⟩, same⟩
    obtain ⟨entry, inside, rfl⟩ := List.mem_map.mp listed
    exact ⟨entry, List.mem_of_mem_filter inside, (storedKey_recordOf entry.2).symm.trans same⟩
  · rintro ⟨entry, inside, same⟩
    refine ⟨entry.1, recordOf entry.2, ⟨entry.2, ?_, rfl⟩, (storedKey_recordOf entry.2).trans same⟩
    exact List.mem_map_of_mem (List.mem_filter.mpr ⟨inside, by simp⟩)

theorem content_removeSegment (dir : LogDir) (day other : Day) :
    content (removeSegment dir day) other = if other = day then [] else content dir other := by
  have held (text : JsString) : (removeSegment dir day).get? other = some text ↔
      other ≠ day ∧ dir.get? other = some text := by
    rw [OrderedMap.get?_eq_some_iff, OrderedMap.get?_eq_some_iff]
    simp [removeSegment, and_comm]
  have same : (removeSegment dir day).get? other = if other = day then none else dir.get? other := by
    apply Option.ext
    intro text
    rw [held]
    split <;> simp_all
  rw [content, content, same]
  split <;> rfl

theorem Scoping.sweepSegment (scoping : Scoping scope)
    (whole : ∀ entry ∈ scope.held, entry.1 = day → LineSafe entry.2.toPlaybackEvent) :
    Scoping ⟨scope.store.sweepSegment day, scope.held.filter (·.1 ≠ day)⟩ := by
  have fewer : (scope.held.filter (·.1 ≠ day)).Sublist scope.held := List.filter_sublist
  refine ⟨?_, ?_, ?_, ?_⟩
  · intro other
    dsimp only [EventStore.sweepSegment]
    rw [content_removeSegment, scoping.lines, Scope.heldOn, Scope.heldOn, List.filter_filter]
    by_cases same : other = day
    · subst same
      simp [linesText]
    · rw [if_neg same]
      congr 2
      apply List.filter_congr
      intro entry _
      by_cases here : entry.1 = other <;> simp [here, same]
  · exact fun stored member => scoping.written stored ((fewer.map Prod.snd).subset member)
  · exact scoping.distinct.sublist ((fewer.map _).map _)
  · intro key
    have gone : (readSegmentText (content scope.store.dir day)).map storedKey =
        (scope.heldOn day).map keyOf := by
      rw [scoping.read whole, List.map_map]
      exact List.map_congr_left fun stored _ => storedKey_recordOf stored
    have keys := scoping.distinct
    simp only [EventStore.sweepSegment, List.mem_filter, decide_eq_true_eq, scoping.index, gone]
    simp only [Scope.events, Scope.heldOn, List.map_map, List.mem_map, List.mem_filter,
      Function.comp_apply, decide_eq_true_eq] at keys ⊢
    constructor
    · rintro ⟨⟨entry, inside, rfl⟩, absent⟩
      exact ⟨entry, ⟨inside, fun same => absent ⟨entry, ⟨inside, same⟩, rfl⟩⟩, rfl⟩
    · rintro ⟨entry, ⟨inside, other⟩, rfl⟩
      refine ⟨⟨entry, inside, rfl⟩, ?_⟩
      rintro ⟨removed, ⟨there, same⟩, key⟩
      have equal := List.inj_on_of_nodup_map keys there inside key
      exact other (equal ▸ same)

/-! ## A batch -/

theorem reported_iff {seen : List JsString} {receivedAt : JsString} {earlier : List PlaybackEvent}
    (identified : event.id ≠ []) : Reported seen receivedAt earlier event ↔
      dedupeKey event ∈ (admitAll seen earlier receivedAt).seen := by
  rw [Reported, admit_append, admitOne, if_neg identified]
  by_cases held : dedupeKey event ∈ (admitAll seen earlier receivedAt).seen
  · simp [held]
  · simp [held]

theorem dedupeKey_of_identity {other : PlaybackEvent} (same : identity other = identity event) :
    dedupeKey other = dedupeKey event := by
  obtain ⟨device, id⟩ := Prod.mk.inj same
  rw [dedupeKey, dedupeKey, device, id]

theorem New.mono {seen : List JsString} {earlier : List PlaybackEvent}
    (new : New seen earlier event) (more : List PlaybackEvent) : New seen (earlier ++ more) event := by
  obtain ⟨before, after, rfl, rest⟩ := new
  exact ⟨before, after ++ more, by simp, rest⟩

/-- Each event of a batch has its play held or newly accepted, if it is reported rightly. -/
theorem TellsApart.kept (apart : TellsApart scope events now) (named : ∀ event ∈ events, event.id ≠ [])
    (inside : event ∈ events) : ∃ other, (other ∈ scope.events ∨ New scope.store.seen events other) ∧
      identity other = identity event := by
  obtain ⟨earlier, later, rfl⟩ := List.append_of_mem inside
  have admits := admits_admitAll scope.store.seen earlier (toISOString now)
  have told := apart earlier event later rfl
  rw [reported_iff (named event inside)] at told
  by_cases held : dedupeKey event ∈ (admitAll scope.store.seen earlier (toISOString now)).seen
  · obtain ⟨other, known, same⟩ := told.mp held
    rw [← admits.new] at known
    exact ⟨other, known.imp_right fun new => new.mono _, same⟩
  · obtain ⟨absent, -⟩ := not_or.mp ((admits.index _).not.mp held)
    refine ⟨event, .inr ⟨earlier, later, rfl, named event inside, absent, ?_⟩, rfl⟩
    intro other before identified same
    exact held (same ▸ admits.taken other before identified)

theorem New.unique {seen : List JsString} {first second : PlaybackEvent}
    (left : New seen events first) (right : New seen events second)
    (same : dedupeKey first = dedupeKey second) : first = second := by
  have admits := admits_admitAll seen events []
  obtain ⟨one, there, rfl⟩ := List.mem_map.mp ((admits.new first).mp left)
  obtain ⟨two, here, rfl⟩ := List.mem_map.mp ((admits.new second).mp right)
  rw [List.inj_on_of_nodup_map admits.distinct there here same]

theorem Scoping.tellsApart_iff (scoping : Scoping scope) (named : ∀ event ∈ events, event.id ≠ []) :
    TellsApart scope events now ↔ Unmistaken scope events := by
  constructor
  · intro apart event inside other known same
    obtain ⟨kept, keptKnown, keptSame⟩ := apart.kept named inside
    have other' : ∃ first, (first ∈ scope.events ∨ New scope.store.seen events first) ∧
        identity first = identity other := by
      obtain held | there := known
      · exact ⟨other, .inl held, rfl⟩
      · exact apart.kept named there
    obtain ⟨first, firstKnown, firstSame⟩ := other'
    have keys : dedupeKey first = dedupeKey kept := by
      rw [dedupeKey_of_identity firstSame, same, dedupeKey_of_identity keptSame]
    have absent {new held : PlaybackEvent} (isNew : New scope.store.seen events new)
        (isHeld : held ∈ scope.events) (equal : dedupeKey held = dedupeKey new) : False := by
      obtain ⟨-, -, -, -, unseen, -⟩ := isNew
      exact unseen ((scoping.index _).mpr (equal ▸ List.mem_map_of_mem isHeld))
    have equal : first = kept := by
      obtain firstHeld | firstNew := firstKnown
      · obtain keptHeld | keptNew := keptKnown
        · exact List.inj_on_of_nodup_map scoping.distinct firstHeld keptHeld keys
        · exact (absent keptNew firstHeld keys).elim
      · obtain keptHeld | keptNew := keptKnown
        · exact (absent firstNew keptHeld keys.symm).elim
        · exact firstNew.unique keptNew keys
    rw [← firstSame, equal, keptSame]
  · intro unmistaken earlier event later batch
    have inside : event ∈ events := by simp [batch]
    have admits := admits_admitAll scope.store.seen earlier (toISOString now)
    rw [reported_iff (named event inside), admits.index, scoping.index]
    constructor
    · rintro (held | accepted)
      · obtain ⟨other, known, same⟩ := List.mem_map.mp held
        exact ⟨other, .inl known, unmistaken event inside other (.inl known) same⟩
      · obtain ⟨stored, there, same⟩ := List.mem_map.mp accepted
        have new := List.mem_map_of_mem (f := (·.toPlaybackEvent)) there
        refine ⟨stored.toPlaybackEvent, .inr new, ?_⟩
        obtain ⟨before, after, rfl, -⟩ := (admits.new _).mpr new
        exact unmistaken event inside _ (.inr (by simp [batch])) same
    · rintro ⟨other, held | accepted, same⟩
      · exact .inl (List.mem_map.mpr ⟨other, held, dedupeKey_of_identity same⟩)
      · obtain ⟨stored, there, rfl⟩ := List.mem_map.mp accepted
        exact .inr (List.mem_map.mpr ⟨stored, there, dedupeKey_of_identity same⟩)

/-! ## Runs -/

theorem scoping_new : Scoping .new := by
  refine ⟨fun _ => rfl, ?_, List.nodup_nil, fun _ => Iff.rfl⟩
  intro stored absent
  cases absent

theorem Scoping.step {action : ScopeAction} (scoping : Scoping scope)
    (whole : ReadsWhole scope action) (taken : scopeStep scope action = some next) :
    Scoping next := by
  cases action with
  | append events now =>
      cases taken
      exact scoping.append events now
  | sweepSegment day =>
      cases taken
      exact scoping.sweepSegment whole
  | restart =>
      cases taken
      exact scoping.restart whole

/-- While segments are read only where their lines are whole, `append` tells a batch's duplicates by
device and id exactly when no event of it has the key of another play. -/
theorem tells_devices_apart_iff (scope : Scope) (events : List PlaybackEvent) (now : Int)
    (reached : Reaches scopeStep ReadsWhole .new scope)
    (named : ∀ event ∈ events, event.id ≠ []) :
    TellsApart scope events now ↔ Unmistaken scope events :=
  (reached.invariant Scoping scoping_new fun _ scoping whole taken =>
    scoping.step whole taken).tellsApart_iff named

/-! ## Two pairs with one key -/

def playOf (deviceId : Option JsString) (id : JsString) : PlaybackEvent :=
  { playNamed id with deviceId }

def joinedActions : List ScopeAction := [.append [playOf (some (js "a")) [0x62, 0, 0x63]] 0]

theorem two_devices_told_apart :
    TellsApart .new [playOf (some (js "a")) (js "c"), playOf none (js "c")] 0 :=
  (tells_devices_apart_iff .new [playOf (some (js "a")) (js "c"), playOf none (js "c")] 0 .refl
    (by decide)).mpr (by decide)

/-- A device's play is dropped for another device's, their ids and a NUL joining to one key. -/
theorem joined_keys_collide : ¬ ∀ scope events now, Reaches scopeStep anyAction .new scope →
    (∀ event ∈ events, event.id ≠ []) → TellsApart scope events now := by
  intro always
  obtain ⟨scope, ran, seen, held⟩ : ∃ scope : Scope, run scopeStep .new joinedActions = some scope ∧
      scope.store.seen = [[0x61, 0, 0x62, 0, 0x63]] ∧
        scope.events = [playOf (some (js "a")) [0x62, 0, 0x63]] :=
    ⟨_, rfl, by decide +kernel, by decide +kernel⟩
  have apart := always scope [playOf (some [0x61, 0, 0x62]) [0x63]] 0
    (.of_run ran (meetsAlong_anyAction _ _)) (by decide)
  have reported : Reported scope.store.seen (toISOString 0) []
      (playOf (some [0x61, 0, 0x62]) [0x63]) := by
    rw [seen]
    decide +kernel
  obtain ⟨other, known, same⟩ := (apart [] _ [] rfl).mp reported
  rw [held] at known
  obtain before | new := known
  · rw [List.mem_singleton.mp before] at same
    exact absurd same (by decide)
  · cases new

end Tapes.Events
