import Tapes.Events.Admission
import Tapes.Events.LogLines

namespace Tapes.Events

open Tapes.Js

/-! Whether what `append` accepts is read back, behind whatever a segment holds. -/

/-- Every event accepted by the batches after an `open` is yielded once and indexed by a
later one, and every event readable before still is. -/
def AcceptedReadable (dir : LogDir) (batches : List (List PlaybackEvent × Int)) : Prop :=
  let after := ((openStore dir).appendAll batches).1.dir
  (∀ event ∈ ((openStore dir).appendAll batches).2,
    (replay after).filter (fun record => storedKey record = keyOf event) =
        [reread (storedValue event)] ∧
      keyOf event ∈ (openStore after).seen) ∧
    ∀ record ∈ replay dir, record ∈ replay after

/-! ## The text of a batch -/

def linesText (accepted : List StoredEvent) : JsString :=
  accepted.flatMap fun event => lineText event ++ [0x0A]

theorem payload_eq {accepted : List StoredEvent} (nonempty : accepted ≠ []) :
    payload accepted = linesText accepted := by
  induction accepted with
  | nil => exact absurd rfl nonempty
  | cons event accepted induction =>
      cases accepted with
      | nil => simp [payload, linesText]
      | cons next accepted =>
          have later := induction (by simp)
          simp only [payload, linesText, List.map_cons, List.flatMap_cons] at later ⊢
          rw [List.intercalate_cons_cons, List.append_assoc, List.append_assoc, later]
          simp

/-- Events whose lines the store writes. -/
def Written (accepted : List StoredEvent) : Prop :=
  ∀ event ∈ accepted, event.id ≠ [] ∧ NoSeparator event.receivedAt

instance (event : PlaybackEvent) : Decidable (LineSafe event) :=
  inferInstanceAs (Decidable (_ ∧ _ ∧ _ ∧ _ ∧ _))

instance (text : JsString) : Decidable (Spaces text) :=
  List.decidableBAll (fun unit => isJsonSpace unit = true) text

/-- The events that lines written behind the text `line` read as. -/
def readable (line : JsString) : List StoredEvent → List JsValue
  | [] => (readLine line).toList
  | event :: rest =>
      (if LineSafe event.toPlaybackEvent ∧ Spaces line then [reread (storedValue event)] else []) ++
        readable [] rest

theorem records_linesText {accepted : List StoredEvent} (written : Written accepted)
    (line : JsString) :
    (pieces line (linesText accepted)).filterMap readLine = readable line accepted := by
  induction accepted generalizing line with
  | nil =>
      simp only [linesText, List.flatMap_nil, pieces, readable, List.filterMap_cons]
      cases readLine line <;> rfl
  | cons event accepted induction =>
      obtain ⟨⟨identified, received⟩, others⟩ := List.forall_mem_cons.mp written
      have newline : isLineEnd 0x0A = true := by decide
      have split : linesText (event :: accepted) =
          lineText event ++ ([0x0A] ++ linesText accepted) := by
        simp [linesText]
      have ended : pieces line (linesText (event :: accepted)) =
          pieces line (lineText event) ++ pieces [] (linesText accepted) := by
        rw [split, pieces_append, pieces_eq line (lineText event), List.singleton_append, pieces,
          if_pos newline, List.append_assoc, List.singleton_append]
      obtain ⟨safe, harmed⟩ := records_lineText event identified received line
      rw [ended, List.filterMap_append, induction others, readable]
      congr 1
      split_ifs with good
      · exact safe good.1 good.2
      · exact harmed good

/-- A segment with lines written behind it. -/
theorem readSegmentText_append {accepted : List StoredEvent} (written : Written accepted)
    (text : JsString) : readSegmentText (text ++ linesText accepted) =
      (finished [] text).filterMap readLine ++ readable (unterminated [] text) accepted := by
  rw [readSegmentText, filterMap_readLines, pieces_append, List.filterMap_append,
    records_linesText written]

theorem readSegmentText_eq (text : JsString) : readSegmentText text =
    (finished [] text).filterMap readLine ++ (readLine (unterminated [] text)).toList := by
  have nothing : Written [] := by simp [Written]
  have whole := readSegmentText_append nothing text
  simpa [linesText, readable] using whole

/-! ## Replays -/

theorem readSegmentText_nil : readSegmentText [] = [] := rfl

theorem content_of_not_mem {dir : LogDir} {day : Day} (absent : day ∉ segmentDays dir) :
    content dir day = [] := by
  have none : dir.get? day = .none := by
    cases found : dir.get? day with
    | none => rfl
    | some text =>
        have key : day ∈ dir.keys := OrderedMap.mem_keys.mpr ⟨text, found⟩
        exact absurd ((List.mem_insertionSort _).mpr key) absent
  rw [content, none, Option.getD_none]

theorem mem_replay {dir : LogDir} {record : JsValue} :
    record ∈ replay dir ↔ ∃ day, record ∈ readSegmentText (content dir day) := by
  rw [replay, List.mem_flatMap]
  constructor
  · intro held
    obtain ⟨day, -, member⟩ := held
    exact ⟨day, member⟩
  · intro held
    obtain ⟨day, member⟩ := held
    by_cases listed : day ∈ segmentDays dir
    · exact ⟨day, listed, member⟩
    · rw [content_of_not_mem listed] at member
      cases member

theorem flatMap_single {days : List Day} {day : Day} {read : Day → List JsValue}
    (distinct : days.Nodup) (listed : day ∈ days)
    (others : ∀ other, other ≠ day → read other = []) : days.flatMap read = read day := by
  induction days with
  | nil => cases listed
  | cons first days induction =>
      obtain ⟨single, rest⟩ := List.nodup_cons.mp distinct
      rw [List.flatMap_cons]
      rcases List.mem_cons.mp listed with rfl | inside
      · have none : days.flatMap read = [] := by
          rw [List.flatMap_eq_nil_iff]
          exact fun other member => others other fun same => single (same ▸ member)
        rw [none, List.append_nil]
      · have different : first ≠ day := fun same => single (same ▸ inside)
        rw [others first different, List.nil_append, induction rest inside]

theorem segmentDays_nodup (dir : LogDir) : (segmentDays dir).Nodup :=
  (List.perm_insertionSort _ _).nodup_iff.mpr dir.distinct

/-- A key that only one segment holds is replayed as that segment has it. -/
theorem filter_replay {dir : LogDir} {day : Day} {wanted : JsValue → Bool}
    (others : ∀ other, other ≠ day → (readSegmentText (content dir other)).filter wanted = []) :
    (replay dir).filter wanted = (readSegmentText (content dir day)).filter wanted := by
  rw [replay, List.filter_flatMap]
  by_cases listed : day ∈ segmentDays dir
  · exact flatMap_single (segmentDays_nodup dir) listed others
  · rw [content_of_not_mem listed, readSegmentText_nil, List.filter_nil, List.flatMap_eq_nil_iff]
    intro other member
    exact others other fun same => listed (same ▸ member)

/-! ## Batches -/

/-- The day's segment has grown by the lines of these events, and no other. -/
structure Grown (dir after : LogDir) (day : Day) (accepted : List StoredEvent) : Prop where
  self : content after day = content dir day ++ linesText accepted
  other : ∀ other, other ≠ day → content after other = content dir other

/-- What batches do to a store. -/
structure Took (store : EventStore) (events : List PlaybackEvent) (day : Day)
    (after : EventStore) (accepted : List StoredEvent) : Prop where
  grown : Grown store.dir after.dir day accepted
  written : Written accepted
  fresh : ∀ stored ∈ accepted, keyOf stored ∉ store.seen
  distinct : (accepted.map keyOf).Nodup
  index : ∀ key, key ∈ after.seen ↔ key ∈ store.seen ∨ key ∈ accepted.map keyOf
  new : ∀ event, New store.seen events event ↔ event ∈ accepted.map (·.toPlaybackEvent)
  taken : ∀ event ∈ events, event.id ≠ [] → dedupeKey event ∈ after.seen

theorem content_set_self (dir : LogDir) (day : Day) (text : JsString) :
    content (dir.set day text) day = text := by
  rw [content, OrderedMap.get?_set_self, Option.getD_some]

theorem content_set_other (dir : LogDir) {day other : Day} (text : JsString)
    (different : other ≠ day) : content (dir.set day text) other = content dir other := by
  rw [content, OrderedMap.get?_set_other different, content]

theorem noSeparator_ascii {text : JsString} (ascii : Ascii text) : NoSeparator text := by
  intro unit member
  have small := ascii unit member
  by_contra separator
  simp only [isSeparator, Bool.not_eq_false, Bool.or_eq_true, decide_eq_true_eq] at separator
  rcases separator with rfl | rfl <;> exact absurd small (by decide)

theorem took_append (store : EventStore) (events : List PlaybackEvent) (now : Int) :
    Took store events (segmentDay now) (store.append events now).1 (store.append events now).2 := by
  have admits := admits_admitAll store.seen events (toISOString now)
  have written : Written (admitAll store.seen events (toISOString now)).accepted := by
    intro stored member
    rw [admits.received stored member]
    refine ⟨?_, noSeparator_ascii (ascii_toISOString now)⟩
    obtain ⟨earlier, later, -, identified, -, -⟩ :=
      (admits.new stored.toPlaybackEvent).mpr (List.mem_map_of_mem member)
    exact identified
  unfold EventStore.append
  dsimp only
  split
  · rename_i none
    have index := admits.index
    have new := admits.new
    rw [none] at index new
    exact ⟨⟨by simp [linesText], fun _ _ => rfl⟩, by simp [Written], by simp, by simp, index, new,
      admits.taken⟩
  · rename_i nonempty
    refine ⟨⟨?_, ?_⟩, written, admits.fresh, admits.distinct, admits.index, admits.new,
      admits.taken⟩
    · rw [appendFile, content_set_self, payload_eq nonempty]
    · exact fun other different => content_set_other _ _ different

theorem Grown.trans {dir middle after : LogDir} {day : Day} {first second : List StoredEvent}
    (left : Grown dir middle day first) (right : Grown middle after day second) :
    Grown dir after day (first ++ second) := by
  refine ⟨?_, ?_⟩
  · rw [right.self, left.self, linesText, linesText, linesText, List.flatMap_append,
      List.append_assoc]
  · intro other different
    rw [right.other other different, left.other other different]

theorem new_append_batches {seen seen' : List JsString} {first second : List PlaybackEvent}
    {accepted : List StoredEvent} (new : ∀ event, New seen first event ↔
      event ∈ accepted.map (·.toPlaybackEvent))
    (index : ∀ key, key ∈ seen' ↔ key ∈ seen ∨ key ∈ accepted.map keyOf)
    (taken : ∀ event ∈ first, event.id ≠ [] → dedupeKey event ∈ seen') (event : PlaybackEvent) :
    New seen (first ++ second) event ↔ New seen first event ∨ New seen' second event := by
  constructor
  · rintro ⟨earlier, later, split, identified, absent, before⟩
    rcases List.append_eq_append_iff.mp split with ⟨more, rfl, rfl⟩ | ⟨more, rfl, whole⟩
    · refine .inr ⟨more, later, rfl, identified, ?_, ?_⟩
      · rw [index]
        rintro (held | accepted')
        · exact absent held
        · obtain ⟨stored, member, same⟩ := List.mem_map.mp accepted'
          obtain ⟨front, back, rfl, named, -, -⟩ :=
            (new stored.toPlaybackEvent).mpr (List.mem_map_of_mem member)
          exact before stored.toPlaybackEvent (by simp) named same
      · exact fun other member => before other (List.mem_append_right _ member)
    · cases more with
      | nil =>
          rw [List.nil_append] at whole
          refine .inr ⟨[], later, whole.symm, identified, ?_, by simp⟩
          rw [index]
          rintro (held | accepted')
          · exact absent held
          · obtain ⟨stored, member, same⟩ := List.mem_map.mp accepted'
            obtain ⟨front, back, rest, named, -, -⟩ :=
              (new stored.toPlaybackEvent).mpr (List.mem_map_of_mem member)
            rw [List.append_nil] at rest
            exact before stored.toPlaybackEvent (by simp [rest]) named same
      | cons head more =>
          obtain ⟨rfl, -⟩ := List.cons.inj whole
          exact .inl ⟨earlier, more, rfl, identified, absent, before⟩
  · rintro (⟨earlier, later, rfl, identified, absent, before⟩ |
      ⟨earlier, later, rfl, identified, absent, before⟩)
    · exact ⟨earlier, later ++ second, by simp, identified, absent, before⟩
    · refine ⟨first ++ earlier, later, by simp, identified, ?_, ?_⟩
      · exact fun held => absent ((index _).mpr (.inl held))
      · intro other member named
        rcases List.mem_append.mp member with member | member
        · exact fun same => absent (same ▸ taken other member named)
        · exact before other member named

theorem Took.trans {store middle after : EventStore} {day : Day}
    {first second : List PlaybackEvent} {accepted others : List StoredEvent}
    (left : Took store first day middle accepted) (right : Took middle second day after others) :
    Took store (first ++ second) day after (accepted ++ others) := by
  have apart : ∀ stored ∈ others, keyOf stored ∉ store.seen ∧ keyOf stored ∉ accepted.map keyOf := by
    intro stored member
    have outside := (left.index _).not.mp (right.fresh stored member)
    exact not_or.mp outside
  refine ⟨left.grown.trans right.grown, ?_, ?_, ?_, ?_, ?_, ?_⟩
  · exact List.forall_mem_append.mpr ⟨left.written, right.written⟩
  · exact List.forall_mem_append.mpr ⟨left.fresh, fun stored member => (apart stored member).1⟩
  · rw [List.map_append, List.nodup_append]
    refine ⟨left.distinct, right.distinct, ?_⟩
    intro held member other last same
    obtain ⟨stored, inside, rfl⟩ := List.mem_map.mp last
    exact (apart stored inside).2 (same ▸ member)
  · intro key
    rw [right.index, left.index, List.map_append, List.mem_append, or_assoc]
  · intro event
    rw [new_append_batches left.new left.index left.taken, left.new, right.new, List.map_append,
      List.mem_append]
  · intro event member named
    rcases List.mem_append.mp member with member | member
    · exact (right.index _).mpr (.inl (left.taken event member named))
    · exact right.taken event member named

theorem took_appendAll {batches : List (List PlaybackEvent × Int)} {day : Day}
    (sameDay : ∀ batch ∈ batches, segmentDay batch.2 = day) (store : EventStore) :
    Took store (batches.flatMap Prod.fst) day (store.appendAll batches).1
      (store.appendAll batches).2 := by
  induction batches generalizing store with
  | nil =>
      exact ⟨⟨by simp [EventStore.appendAll, linesText], fun _ _ => rfl⟩,
        by simp [EventStore.appendAll, Written], by simp [EventStore.appendAll],
        by simp [EventStore.appendAll], by simp [EventStore.appendAll],
        by simp [EventStore.appendAll, New], by simp⟩
  | cons batch batches induction =>
      obtain ⟨here, others⟩ := List.forall_mem_cons.mp sameDay
      have first := took_append store batch.1 batch.2
      rw [here] at first
      exact first.trans (induction others _)

/-! ## Which batches are read back -/

/-- The events whose lines, written behind the text `line`, are read back. -/
def unharmed (line : JsString) : List StoredEvent → List StoredEvent
  | [] => []
  | event :: rest =>
      (if LineSafe event.toPlaybackEvent ∧ Spaces line then [event] else []) ++
        rest.filter fun other => LineSafe other.toPlaybackEvent

def recordOf (event : StoredEvent) : JsValue := reread (storedValue event)

theorem readable_eq {line : JsString} {accepted : List StoredEvent} (nonempty : accepted ≠ []) :
    readable line accepted = (unharmed line accepted).map recordOf := by
  have blank : Spaces [] := by simp [Spaces]
  have later : ∀ others : List StoredEvent, readable [] others =
      (others.filter fun other => LineSafe other.toPlaybackEvent).map recordOf := by
    intro others
    induction others with
    | nil => rfl
    | cons event others induction =>
        rw [readable, induction]
        by_cases safe : LineSafe event.toPlaybackEvent <;> simp [safe, blank, recordOf]
  cases accepted with
  | nil => exact absurd rfl nonempty
  | cons event rest =>
      rw [readable, later, unharmed, List.map_append]
      split_ifs <;> rfl

theorem mem_unharmed {line : JsString} {accepted : List StoredEvent} {event : StoredEvent}
    (member : event ∈ unharmed line accepted) :
    event ∈ accepted ∧ LineSafe event.toPlaybackEvent := by
  cases accepted with
  | nil => cases member
  | cons first rest =>
      rcases List.mem_append.mp member with member | member
      · split at member
        · rename_i good
          rw [List.mem_singleton.mp member]
          exact ⟨List.mem_cons_self, good.1⟩
        · cases member
      · obtain ⟨inside, safe⟩ := List.mem_filter.mp member
        exact ⟨List.mem_cons_of_mem _ inside, of_decide_eq_true safe⟩

theorem unharmed_sublist (line : JsString) (accepted : List StoredEvent) :
    (unharmed line accepted).Sublist accepted := by
  cases accepted with
  | nil => exact .refl _
  | cons first rest =>
      rw [unharmed]
      split
      · exact List.filter_sublist.cons_cons first
      · exact List.filter_sublist.cons first

theorem all_unharmed {line : JsString} {accepted : List StoredEvent} (nonempty : accepted ≠ [])
    (distinct : (accepted.map keyOf).Nodup) : (∀ event ∈ accepted, event ∈ unharmed line accepted) ↔
      Spaces line ∧ ∀ event ∈ accepted, LineSafe event.toPlaybackEvent := by
  cases accepted with
  | nil => exact absurd rfl nonempty
  | cons first rest =>
      constructor
      · intro all
        refine ⟨?_, fun event member => (mem_unharmed (all event member)).2⟩
        rcases List.mem_append.mp (all first List.mem_cons_self) with member | member
        · split at member
          · rename_i good
            exact good.2
          · cases member
        · have again : keyOf first ∈ rest.map keyOf :=
            List.mem_map_of_mem (List.mem_filter.mp member).1
          exact absurd again (List.nodup_cons.mp distinct).1
      · rintro ⟨blank, safe⟩ event member
        rw [unharmed, if_pos ⟨safe first List.mem_cons_self, blank⟩]
        rcases List.mem_cons.mp member with rfl | inside
        · exact List.mem_append_left _ (List.mem_singleton_self _)
        · exact List.mem_append_right _ (List.mem_filter.mpr ⟨inside, decide_eq_true (safe event member)⟩)

/-- Under a key, events with different keys have at most one record. -/
theorem filter_recordOf {events : List StoredEvent} (distinct : (events.map keyOf).Nodup)
    (event : StoredEvent) (same : ∀ other ∈ events, keyOf other = keyOf event → other = event) :
    (events.map recordOf).filter (fun record => storedKey record = keyOf event) =
      if event ∈ events then [recordOf event] else [] := by
  induction events with
  | nil => rfl
  | cons first rest induction =>
      obtain ⟨single, others⟩ := List.nodup_cons.mp distinct
      obtain ⟨sameFirst, sameRest⟩ := List.forall_mem_cons.mp same
      have later := induction others sameRest
      have key : storedKey (recordOf first) = keyOf first := storedKey_storedValue first
      rw [List.map_cons, List.filter_cons, later]
      by_cases here : keyOf first = keyOf event
      · have equal := sameFirst here
        subst equal
        have absent : first ∉ rest := fun member => single (List.mem_map_of_mem member)
        simp [key, absent]
      · have different : event ≠ first := fun equal => here (by rw [equal])
        simp [key, here, different]

/-- The records a store has are all in its index. -/
theorem storedKey_mem_openStore {dir : LogDir} (day : Day) {record : JsValue}
    (member : record ∈ readSegmentText (content dir day)) :
    storedKey record ∈ (openStore dir).seen :=
  List.mem_map_of_mem (mem_replay.mpr ⟨day, member⟩)

theorem readLine_spaces {line : JsString} (blank : Spaces line) : readLine line = none := by
  have white : line.all isWhiteSpace = true := by
    rw [List.all_eq_true]
    intro unit member
    rcases isJsonSpace_cases (blank unit member) with rfl | rfl | rfl | rfl <;> decide
  rw [readLine, if_pos white]

theorem replay_of_contents {dir after : LogDir}
    (same : ∀ day, content after day = content dir day) {record : JsValue} :
    record ∈ replay dir ↔ record ∈ replay after := by
  simp only [mem_replay, same]

section

variable {dir : LogDir} {events : List PlaybackEvent} {day : Day} {after : EventStore}
  {accepted : List StoredEvent}

/-- The records of one accepted key are those of its line. -/
theorem Took.filter_replay (took : Took (openStore dir) events day after accepted)
    (nonempty : accepted ≠ []) {event : StoredEvent} (member : event ∈ accepted) :
    (replay after.dir).filter (fun record => storedKey record = keyOf event) =
      if event ∈ unharmed (unterminated [] (content dir day)) accepted then [recordOf event]
      else [] := by
  have fresh := took.fresh event member
  have opened : (openStore dir).dir = dir := rfl
  have old : ∀ records : List JsValue, (∀ record ∈ records, storedKey record ∈ (openStore dir).seen) →
      records.filter (fun record => storedKey record = keyOf event) = [] := by
    intro records held
    rw [List.filter_eq_nil_iff]
    intro record inside same
    exact fresh (of_decide_eq_true same ▸ held record inside)
  have others : ∀ other, other ≠ day → (readSegmentText (content after.dir other)).filter
      (fun record => storedKey record = keyOf event) = [] := by
    intro other different
    rw [took.grown.other other different, opened]
    exact old _ fun record inside => storedKey_mem_openStore other inside
  have finishedOld : ((finished [] (content dir day)).filterMap readLine).filter
      (fun record => storedKey record = keyOf event) = [] := by
    refine old _ fun record inside => storedKey_mem_openStore day ?_
    rw [readSegmentText_eq]
    exact List.mem_append_left _ inside
  rw [Events.filter_replay others, took.grown.self, opened, readSegmentText_append took.written,
    List.filter_append, finishedOld, List.nil_append, readable_eq nonempty]
  refine filter_recordOf (took.distinct.sublist ((unharmed_sublist _ _).map keyOf)) event ?_
  intro other inside same
  exact List.inj_on_of_nodup_map took.distinct (mem_unharmed inside).1 member same

theorem Took.yields_iff (took : Took (openStore dir) events day after accepted)
    (nonempty : accepted ≠ []) : (∀ event ∈ accepted,
      (replay after.dir).filter (fun record => storedKey record = keyOf event) = [recordOf event]) ↔
        Spaces (unterminated [] (content dir day)) ∧
          ∀ event ∈ accepted, LineSafe event.toPlaybackEvent := by
  rw [← all_unharmed nonempty took.distinct]
  refine forall₂_congr fun event member => ?_
  rw [took.filter_replay nonempty member]
  split_ifs with inside <;> simp [inside]

/-- A blank last line loses nothing by being written to. -/
theorem Took.keeps (took : Took (openStore dir) events day after accepted)
    (blank : Spaces (unterminated [] (content dir day))) {record : JsValue}
    (held : record ∈ replay dir) : record ∈ replay after.dir := by
  obtain ⟨other, member⟩ := mem_replay.mp held
  refine mem_replay.mpr ⟨other, ?_⟩
  by_cases same : other = day
  · subst other
    rw [readSegmentText_eq, readLine_spaces blank, Option.toList_none, List.append_nil] at member
    rw [took.grown.self, readSegmentText_append took.written]
    exact List.mem_append_left _ member
  · rwa [took.grown.other other same]

end

/-- Batches after an `open` are all read back exactly when they bring nothing new, or
the segment's last line is blank and the lines of all new events are whole. -/
theorem acceptedReadable_iff (dir : LogDir) (batches : List (List PlaybackEvent × Int)) (day : Day)
    (sameDay : ∀ batch ∈ batches, segmentDay batch.2 = day) :
    AcceptedReadable dir batches ↔
      (∀ event, ¬ New (openStore dir).seen (batches.flatMap Prod.fst) event) ∨
        (Spaces (unterminated [] (content dir day)) ∧
          ∀ event, New (openStore dir).seen (batches.flatMap Prod.fst) event → LineSafe event) := by
  have took := took_appendAll sameDay (openStore dir)
  rw [AcceptedReadable]
  generalize ((openStore dir).appendAll batches).1 = after at took ⊢
  generalize ((openStore dir).appendAll batches).2 = accepted at took ⊢
  simp only [took.new]
  by_cases none : accepted = []
  · subst none
    have same : ∀ day, content after.dir day = content dir day := by
      intro other
      by_cases here : other = day
      · subst other
        rw [took.grown.self, linesText, List.flatMap_nil, List.append_nil]
        rfl
      · exact took.grown.other other here
    simp [replay_of_contents same]
  · have notAllOld : ¬ ∀ event, event ∉ accepted.map (·.toPlaybackEvent) := by
      intro nothing
      obtain ⟨first, member⟩ := List.exists_mem_of_ne_nil accepted none
      exact nothing _ (List.mem_map_of_mem member)
    rw [or_iff_right notAllOld, List.forall_mem_map, ← took.yields_iff none]
    constructor
    · exact fun all event member => (all.1 event member).1
    · intro yields
      refine ⟨fun event member => ⟨yields event member, ?_⟩, fun record held => ?_⟩
      · have inside : recordOf event ∈ (replay after.dir).filter
            (fun record => storedKey record = keyOf event) := by
          rw [yields event member]
          exact List.mem_singleton_self _
        have key : storedKey (recordOf event) = keyOf event := storedKey_storedValue event
        rw [← key]
        exact List.mem_map_of_mem (List.mem_filter.mp inside).1
      · exact took.keeps ((took.yields_iff none).mp yields).1 held

/-! ## A torn segment -/

def laterPlay : PlaybackEvent where
  id := js "b"
  recordingUrl := js "automerge:abc"
  completion := .finite false .zero
  occurredAt := js "1970-01-01T00:00:00.000Z"
  deviceId := some (js "phone")

def logOf (text : JsString) : LogDir := OrderedMap.empty.set 0 text

theorem new_of_single {seen : List JsString} {event other : PlaybackEvent}
    (new : New seen [event] other) : other = event := by
  obtain ⟨earlier, later, split, -⟩ := new
  cases earlier with
  | nil => exact (List.cons.inj split).1.symm
  | cons first earlier =>
      have none := (List.cons.inj split).2
      simp at none

theorem whole_segment_takes_play :
    AcceptedReadable (logOf (js "\x7b\"id\":\"a\"" ++ [0x0A])) [([laterPlay], 0)] :=
  (acceptedReadable_iff (logOf (js "\x7b\"id\":\"a\"" ++ [0x0A])) [([laterPlay], 0)] 0 (by decide)).mpr
    (.inr ⟨by decide +kernel, fun event new => new_of_single new ▸ by decide +kernel⟩)

/-- The play goes behind the torn line, and the next `open` reads neither. -/
theorem torn_segment_loses_play :
    ¬ AcceptedReadable (logOf (js "\x7b\"id\":\"a\"")) [([laterPlay], 0)] := by
  intro readable
  have accepted : ({ laterPlay with receivedAt := toISOString 0 } : StoredEvent) ∈
      ((openStore (logOf (js "\x7b\"id\":\"a\""))).appendAll [([laterPlay], 0)]).2 := by
    decide +kernel
  have indexed := (readable.1 _ accepted).2
  revert indexed
  decide +kernel

end Tapes.Events
