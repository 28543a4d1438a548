import Tapes.Events.LineFormat
import Tapes.Machine.Run

namespace Tapes.Events

open Tapes.Js Tapes.Machine

/-! What an `appendFile` that fails leaves in a segment, and what its retries make of it. -/

/-! ## A short write -/

/-- What the segment reads as behind the part that was written: so many code units, and of a
character that was cut in its bytes a replacement character. -/
def tornText (count : Nat) (within : Bool) (text : JsString) : JsString :=
  text.take count ++ match text[count]? with
    | some unit => if within && 0x80 ≤ unit then [0xFFFD] else []
    | none => []

/-- `append`, its write failing. The events' keys leave the index. -/
def EventStore.appendFails (store : EventStore) (events : List PlaybackEvent) (now : Int)
    (count : Nat) (within : Bool) : EventStore :=
  let admission := admitAll store.seen events (toISOString now)
  if admission.accepted = [] then ⟨store.dir, admission.seen⟩
  else
    ⟨appendFile store.dir (segmentDay now) (tornText count within (payload admission.accepted)),
      forget admission.seen admission.accepted⟩

/-- `reported` are the events that `append` has reported accepted. -/
structure Journal where
  store : EventStore
  reported : List StoredEvent

def Journal.new : Journal := ⟨openStore OrderedMap.empty, []⟩

inductive JournalAction where
  | append (events : List PlaybackEvent) (now : Int)
  | appendFails (events : List PlaybackEvent) (now : Int) (count : Nat) (within : Bool)
  | restart

def journalStep (journal : Journal) : JournalAction → Option Journal
  | .append events now =>
      let (store, accepted) := journal.store.append events now
      some ⟨store, journal.reported ++ accepted⟩
  | .appendFails events now count within =>
      some { journal with store := journal.store.appendFails events now count within }
  | .restart => some { journal with store := openStore journal.store.dir }

/-- No key is replayed twice, and every event that was reported accepted is replayed once. -/
structure ReplayedOnce (journal : Journal) : Prop where
  keys : ((replay journal.store.dir).map storedKey).Nodup
  reported : ∀ event ∈ journal.reported, (replay journal.store.dir).filter
    (fun record => storedKey record = keyOf event) = [recordOf event]

def LeavesNothing (guard : Journal → JournalAction → Prop) : Prop :=
  ∀ journal, Reaches journalStep guard .new journal → ReplayedOnce journal

/-- The events of a batch that are new to the index are not in the log, where a failed write may have
left them, and their lines are whole, behind the last line of the segment. -/
def WritesCleanly (store : EventStore) (events : List PlaybackEvent) (now : Int) : Prop :=
  ∀ event, New store.seen events event →
    dedupeKey event ∉ (replay store.dir).map storedKey ∧ LineSafe event ∧
      Spaces (unterminated [] (content store.dir (segmentDay now)))

/-- What a failed write must meet too, unless it wrote nothing. -/
def Clean (journal : Journal) : JournalAction → Prop
  | .append events now => WritesCleanly journal.store events now
  | .appendFails events now count _ => count = 0 ∨ WritesCleanly journal.store events now
  | .restart => True

variable {journal next : Journal} {store : EventStore} {events : List PlaybackEvent} {now : Int}
  {count : Nat} {within : Bool} {accepted : List StoredEvent} {line text : JsString}

/-! ## A cut line -/

theorem ended_of_complete {state : Scan} (complete : state.complete = true) {text : JsString}
    (passed : scan state (text ++ [0x7D]) ≠ .bad) : False := by
  induction text generalizing state with
  | nil =>
      cases state with
      | done => exact passed rfl
      | closed depth =>
          cases depth with
          | zero => exact passed rfl
          | succ depth => cases complete
      | _ => cases complete
  | cons unit text induction =>
      rw [List.cons_append, scan_cons] at passed
      refine induction ?_ passed
      by_contra incomplete
      have bad : state.step unit = .bad := by
        cases state with
        | done =>
            simp only [Scan.step] at incomplete ⊢
            split_ifs at incomplete ⊢ with stops
            · rfl
            · exact absurd rfl incomplete
        | closed depth =>
            cases depth with
            | zero =>
                simp only [Scan.step] at incomplete ⊢
                split_ifs at incomplete ⊢ <;> simp_all [Scan.complete, Scan.leave]
            | succ depth => cases complete
        | _ => cases complete
      rw [bad, scan_bad] at passed
      exact passed rfl

/-- An object's text is not complete before its end, nor is it with a character more. -/
theorem not_complete_of_prefix {members : List (JsString × JsValue)} {front back : JsString}
    (split : stringify (.object members) = front ++ back) (begun : front ≠ []) (more : back ≠ []) :
    (scan .start front).complete = false ∧ (scan .start (front ++ [0xFFFD])).complete = false := by
  have whole : (scan .start (front ++ back)).complete = true := by
    rw [← split]
    exact (ScannedValue.of_stringify (.object members)).top
  obtain ⟨rest, last, rfl⟩ := List.eq_nil_or_concat' back |>.resolve_left more
  have brace : last = 0x7D := by
    rw [stringify, ← List.append_assoc] at split
    exact (List.append_inj' split rfl).2 |> List.singleton_inj.mp |>.symm
  have unfinished : (scan .start front).complete = false := by
    by_contra complete
    have stuck : scan (scan .start front) (rest ++ [0x7D]) ≠ .bad := by
      intro bad
      rw [brace, scan_append, bad] at whole
      cases whole
    exact ended_of_complete (Bool.eq_true_of_not_eq_false complete) stuck
  refine ⟨unfinished, ?_⟩
  rw [scan_append]
  cases reached : scan .start front with
  | start =>
      have blank := (spaces_of_scan_start reached).2
      have head : ∃ after, front = 0x7B :: after := by
        cases front with
        | nil => exact absurd rfl begun
        | cons first after =>
            rw [stringify] at split
            exact ⟨after, by rw [(List.cons.inj split).1]⟩
      obtain ⟨after, rfl⟩ := head
      exact absurd (blank 0x7B List.mem_cons_self) (by decide)
  | done =>
      rw [reached] at unfinished
      cases unfinished
  | inside depth | text depth | escape depth | bad => rfl
  | closed depth =>
      cases depth with
      | zero =>
          rw [reached] at unfinished
          cases unfinished
      | succ depth => rfl

theorem readLine_of_open {spaces : JsString} (blank : Spaces spaces)
    (unfinished : (scan .start line).complete = false) : readLine (spaces ++ line) = none := by
  refine readLine_none_of_parse ?_
  cases read : parse (spaces ++ line) with
  | none => rfl
  | some value =>
      have complete := scan_of_parse read
      rw [scan_append, scan_spaces blank fun _ => start_step_space, unfinished] at complete
      cases complete

/-- What is left of a line that was cut before its end. -/
theorem readLine_cut {event : StoredEvent} (blank : Spaces line) (front back : JsString)
    (split : lineText event = front ++ back) (more : back ≠ []) :
    readLine (line ++ front) = none ∧
      (front ≠ [] → readLine (line ++ (front ++ [0xFFFD])) = none) := by
  by_cases empty : front = []
  · subst empty
    exact ⟨by rw [List.append_nil]; exact readLine_spaces blank, fun begun => absurd rfl begun⟩
  · obtain ⟨unfinished, torn⟩ := not_complete_of_prefix split empty more
    exact ⟨readLine_of_open blank unfinished, fun _ => readLine_of_open blank torn⟩

/-! ## The text of a short write -/

theorem tornText_beyond {first rest : JsString} :
    tornText (first.length + count) within (first ++ rest) = first ++ tornText count within rest := by
  rw [tornText, tornText, List.take_length_add_append, List.getElem?_append_right (by omega),
    List.append_assoc]
  simp

/-- Short of the end of the line, a part of it, perhaps with a replacement character. -/
theorem tornText_within {first rest : JsString} (short : count < first.length) :
    ∃ front back, first = front ++ back ∧ back ≠ [] ∧
      (tornText count within (first ++ rest) = front ∨
        tornText count within (first ++ rest) = front ++ [0xFFFD] ∧ ∃ unit, back.head? = some unit ∧
          0x80 ≤ unit) := by
  refine ⟨first.take count, first.drop count, (List.take_append_drop ..).symm, ?_, ?_⟩
  · simpa using short
  · rw [tornText, List.take_append_of_le_length (by omega), List.getElem?_append_left short,
      List.head?_drop]
    cases found : first[count]? with
    | none => exact .inl (List.append_nil _)
    | some unit =>
        dsimp only
        split
        · rename_i cut
          simp only [Bool.and_eq_true, decide_eq_true_eq] at cut
          exact .inr ⟨rfl, unit, rfl, cut.2⟩
        · exact .inl (List.append_nil _)

theorem pieces_single {line text : JsString} (inside : NoLineEnd text) :
    (pieces line text).filterMap readLine = (readLine (line ++ text)).toList := by
  rw [pieces_of_noLineEnd line inside]
  cases found : readLine (line ++ text) <;> simp [found]

theorem noLineEnd_lineText {event : StoredEvent} (safe : LineSafe event.toPlaybackEvent)
    (received : NoSeparator event.receivedAt) : NoLineEnd (lineText event) := by
  have defined : ¬ (JsValue.string event.id).isUndefined = true := by simp [JsValue.isUndefined]
  exact (lineEnds_object (flat_eventMembers event) defined).2.mpr
    ((safe_eventMembers event received).mpr safe.2)

theorem lineText_head (event : StoredEvent) : ∃ rest, lineText event = 0x7B :: rest :=
  ⟨_, by rw [lineText, storedValue, stringify]; rfl⟩

/-- A short write leaves the first events of the batch in the log, and nothing else that reads. -/
theorem torn_records (written : Written accepted)
    (safe : ∀ event ∈ accepted, LineSafe event.toPlaybackEvent) (blank : Spaces line) (count : Nat)
    (within : Bool) : ∃ kept : List StoredEvent, kept.Sublist accepted ∧
      (pieces line (tornText count within (linesText accepted))).filterMap readLine =
        kept.map recordOf := by
  induction accepted generalizing line count with
  | nil =>
      refine ⟨[], List.Sublist.refl _, ?_⟩
      have unwritten : tornText count within (linesText []) = [] := by simp [tornText, linesText]
      rw [unwritten, pieces_eq]
      simp [finished, unterminated, readLine_spaces blank]
  | cons event rest induction =>
      obtain ⟨⟨identified, received⟩, others⟩ := List.forall_mem_cons.mp written
      obtain ⟨here, later⟩ := List.forall_mem_cons.mp safe
      have split : linesText (event :: rest) = lineText event ++ ([0x0A] ++ linesText rest) := by
        simp [linesText]
      have inside := noLineEnd_lineText here received
      have read := (records_lineText event identified received line).1 here blank
      rw [split]
      obtain short | beyond := Nat.lt_or_ge count (lineText event).length
      · refine ⟨[], List.nil_sublist _, ?_⟩
        obtain ⟨front, back, whole, more, same⟩ :=
          @tornText_within count within _ ([0x0A] ++ linesText rest) short
        obtain ⟨cut, torn⟩ := readLine_cut blank front back whole more
        have plain : NoLineEnd front := fun unit member => inside unit (by
          rw [whole]
          exact List.mem_append_left _ member)
        obtain same | ⟨same, unit, head, wide⟩ := same
        · rw [same, pieces_single plain, cut]
          rfl
        · have begun : front ≠ [] := by
            rintro rfl
            obtain ⟨more', start⟩ := lineText_head event
            rw [List.nil_append] at whole
            rw [← whole, start, List.head?_cons, Option.some.injEq] at head
            rw [← head] at wide
            exact absurd wide (by decide)
          have plain' : NoLineEnd (front ++ [0xFFFD]) :=
            plain.append (by decide)
          rw [same, pieces_single plain', torn begun]
          rfl
      · obtain ⟨extra, rfl⟩ := Nat.exists_eq_add_of_le beyond
        rw [tornText_beyond]
        cases extra with
        | zero =>
            refine ⟨[event], List.singleton_sublist.mpr List.mem_cons_self, ?_⟩
            have unwritten : tornText 0 within ([0x0A] ++ linesText rest) = [] := by
              cases within <;> rfl
            rw [unwritten, List.append_nil, read]
            rfl
        | succ extra =>
            have nothing : Spaces [] := by simp [Spaces]
            obtain ⟨kept, fewer, records⟩ := induction others later nothing extra
            refine ⟨event :: kept, fewer.cons_cons event, ?_⟩
            have newline : tornText (extra + 1) within ([0x0A] ++ linesText rest) =
                [0x0A] ++ tornText extra within (linesText rest) := by
              rw [Nat.add_comm]
              exact @tornText_beyond extra within [0x0A] (linesText rest)
            have ends : isLineEnd 0x0A = true := by decide
            have cut (more : JsString) : pieces line (lineText event ++ ([0x0A] ++ more)) =
                pieces line (lineText event) ++ pieces [] more := by
              rw [pieces_append, pieces_eq line (lineText event), List.singleton_append, pieces,
                if_pos ends, List.append_assoc, List.singleton_append]
            rw [newline, cut, List.filterMap_append, read, records]
            rfl

/-! ## The log with more records -/

theorem flatMap_append_at {days : List Day} {day : Day} (distinct : days.Nodup) (listed : day ∈ days)
    (read : Day → List JsValue) (records : List JsValue) :
    (days.flatMap fun other => read other ++ if other = day then records else []).Perm
      (days.flatMap read ++ records) := by
  induction days with
  | nil => cases listed
  | cons first days induction =>
      obtain ⟨single, rest⟩ := List.nodup_cons.mp distinct
      rw [List.flatMap_cons, List.flatMap_cons]
      by_cases same : first = day
      · subst same
        have others : (days.flatMap fun other => read other ++ if other = first then records else []) =
            days.flatMap read := by
          refine List.flatMap_congr fun other inside => ?_
          have different : other ≠ first := fun here => single (here ▸ inside)
          rw [if_neg different, List.append_nil]
        rw [others, if_pos rfl, List.append_assoc, List.append_assoc]
        exact List.perm_append_comm.append_left _
      · have later := induction rest ((List.mem_cons.mp listed).resolve_left (Ne.symm same))
        rw [if_neg same, List.append_nil, List.append_assoc]
        exact later.append_left _

/-- What is written behind a segment is replayed beside the rest. -/
theorem replay_perm {dir : LogDir} {day : Day} {text : JsString} {records : List JsValue}
    (read : readSegmentText (content dir day ++ text) = readSegmentText (content dir day) ++ records) :
    (replay (appendFile dir day text)).Perm (replay dir ++ records) := by
  have keyed (dir : LogDir) : (replay dir).Perm
      (dir.keys.flatMap fun other => readSegmentText (content dir other)) :=
    (List.perm_insertionSort _ _).flatMap_right _
  have contents (other : Day) : readSegmentText (content (appendFile dir day text) other) =
      readSegmentText (content dir other) ++ if other = day then records else [] := by
    by_cases same : other = day
    · subst same
      rw [appendFile, content_set_self, read, if_pos rfl]
    · rw [appendFile, content_set_other dir _ same, if_neg same, List.append_nil]
  have listed : day ∈ (appendFile dir day text).keys := OrderedMap.mem_keys.mpr
    ⟨_, OrderedMap.get?_set_self⟩
  refine (keyed (appendFile dir day text)).trans ?_
  simp only [contents]
  have nodup : (appendFile dir day text).keys.Nodup := (appendFile dir day text).distinct
  refine (flatMap_append_at nodup listed _ records).trans ?_
  refine List.Perm.append_right records (List.Perm.trans ?_ (keyed dir).symm)
  rw [appendFile, OrderedMap.keys_set]
  split
  · exact List.Perm.refl _
  · rename_i unlisted
    have absent : day ∉ segmentDays dir := fun inside => unlisted ((List.mem_insertionSort _).mp inside)
    rw [List.flatMap_append, List.flatMap_singleton, content_of_not_mem absent, readSegmentText_nil,
      List.append_nil]

/-- Text behind a segment whose last line is blank. -/
theorem readSegmentText_behind {segment : JsString} (blank : Spaces (unterminated [] segment))
    (text : JsString) : readSegmentText (segment ++ text) = readSegmentText segment ++
      (pieces (unterminated [] segment) text).filterMap readLine := by
  rw [readSegmentText_eq segment, readLine_spaces blank, Option.toList_none, List.append_nil,
    readSegmentText, filterMap_readLines, pieces_append, List.filterMap_append]

/-! ## The invariant -/

structure Replayable (dir : LogDir) (reported : List StoredEvent) : Prop where
  distinct : ((replay dir).map storedKey).Nodup
  reported : ∀ event ∈ reported, recordOf event ∈ replay dir

variable {dir after : LogDir} {reported : List StoredEvent}

/-- Records that are new to the log, some of them reported. -/
theorem Replayable.more (sound : Replayable dir reported) {kept told : List StoredEvent}
    (grown : (replay after).Perm (replay dir ++ kept.map recordOf))
    (distinct : (kept.map keyOf).Nodup)
    (fresh : ∀ event ∈ kept, keyOf event ∉ (replay dir).map storedKey)
    (written : told ⊆ kept) : Replayable after (reported ++ told) := by
  have keys : (kept.map recordOf).map storedKey = kept.map keyOf := by
    rw [List.map_map]
    exact List.map_congr_left fun event _ => storedKey_recordOf event
  constructor
  · rw [(grown.map storedKey).nodup_iff, List.map_append, keys, List.nodup_append]
    refine ⟨sound.distinct, distinct, ?_⟩
    rintro key held _ new rfl
    obtain ⟨event, inside, rfl⟩ := List.mem_map.mp new
    exact fresh event inside held
  · intro event member
    rw [grown.mem_iff, List.mem_append]
    obtain before | new := List.mem_append.mp member
    · exact .inl (sound.reported event before)
    · exact .inr (List.mem_map_of_mem (written new))

/-- Records that are new to the log, none of them reported. -/
theorem Replayable.unreported (sound : Replayable dir reported) {kept : List StoredEvent}
    (grown : (replay after).Perm (replay dir ++ kept.map recordOf))
    (distinct : (kept.map keyOf).Nodup)
    (fresh : ∀ event ∈ kept, keyOf event ∉ (replay dir).map storedKey) : Replayable after reported := by
  have more := sound.more grown distinct fresh (List.nil_subset _)
  rwa [List.append_nil] at more

theorem append_accepted (store : EventStore) (events : List PlaybackEvent) (now : Int) :
    (store.append events now).2 = (admitAll store.seen events (toISOString now)).accepted := by
  unfold EventStore.append
  dsimp only
  split
  · rename_i acceptsNone
    exact acceptsNone.symm
  · rfl

/-- What a clean batch brings. -/
structure Brings (store : EventStore) (now : Int) (accepted : List StoredEvent) : Prop where
  written : Written accepted
  distinct : (accepted.map keyOf).Nodup
  safe : ∀ event ∈ accepted, LineSafe event.toPlaybackEvent
  fresh : ∀ event ∈ accepted, keyOf event ∉ (replay store.dir).map storedKey
  blank : accepted ≠ [] → Spaces (unterminated [] (content store.dir (segmentDay now)))

theorem WritesCleanly.brings (clean : WritesCleanly store events now) :
    Brings store now (admitAll store.seen events (toISOString now)).accepted := by
  have took := took_append store events now
  rw [append_accepted] at took
  have new (event : StoredEvent)
      (inside : event ∈ (admitAll store.seen events (toISOString now)).accepted) :=
    clean event.toPlaybackEvent ((took.new _).mpr (List.mem_map_of_mem inside))
  refine ⟨took.written, took.distinct, fun event inside => (new event inside).2.1,
    fun event inside => (new event inside).1, ?_⟩
  intro nonempty
  obtain ⟨event, inside⟩ := List.exists_mem_of_ne_nil _ nonempty
  exact (new event inside).2.2

/-- Text of which some new events are read, written to the day's segment. -/
theorem Brings.grown {kept : List StoredEvent} (brings : Brings store now accepted)
    (nonempty : accepted ≠ [])
    (read : (pieces (unterminated [] (content store.dir (segmentDay now))) text).filterMap readLine =
      kept.map recordOf) :
    (replay (appendFile store.dir (segmentDay now) text)).Perm
      (replay store.dir ++ kept.map recordOf) := by
  refine replay_perm ?_
  rw [readSegmentText_behind (brings.blank nonempty), read]

theorem Brings.records (brings : Brings store now accepted) (nonempty : accepted ≠ []) :
    (pieces (unterminated [] (content store.dir (segmentDay now))) (payload accepted)).filterMap
      readLine = accepted.map recordOf := by
  rw [payload_eq nonempty, records_linesText brings.written, readable_eq nonempty]
  have whole : unharmed (unterminated [] (content store.dir (segmentDay now))) accepted =
      accepted := by
    have blank := brings.blank nonempty
    have safe := brings.safe
    cases accepted with
    | nil => exact absurd rfl nonempty
    | cons first rest =>
        obtain ⟨here, later⟩ := List.forall_mem_cons.mp safe
        rw [unharmed, if_pos ⟨here, blank⟩, List.filter_eq_self.mpr fun event inside =>
          decide_eq_true (later event inside)]
        rfl
  rw [whole]

theorem Replayable.append (sound : Replayable store.dir reported) (clean : WritesCleanly store events now) :
    Replayable (store.append events now).1.dir (reported ++ (store.append events now).2) := by
  have brings := clean.brings
  unfold EventStore.append
  dsimp only
  split
  · rw [List.append_nil]
    exact sound
  · rename_i nonempty
    exact sound.more (brings.grown nonempty (brings.records nonempty)) brings.distinct brings.fresh
      (List.Subset.refl _)

theorem Replayable.appendFails (sound : Replayable store.dir reported)
    (clean : WritesCleanly store events now) (count : Nat) (within : Bool) :
    Replayable (store.appendFails events now count within).dir reported := by
  have brings := clean.brings
  unfold EventStore.appendFails
  dsimp only
  split
  · exact sound
  · rename_i nonempty
    obtain ⟨kept, fewer, records⟩ :=
      torn_records brings.written brings.safe (brings.blank nonempty) count within
    rw [← payload_eq nonempty] at records
    exact sound.unreported (brings.grown nonempty records) (brings.distinct.sublist (fewer.map keyOf))
      fun event inside => brings.fresh event (fewer.subset inside)

/-- A write of nothing leaves the log as it is. -/
theorem tornText_zero (accepted : List StoredEvent) (nonempty : accepted ≠ []) :
    tornText 0 within (payload accepted) = [] := by
  rw [payload_eq nonempty]
  cases accepted with
  | nil => exact absurd rfl nonempty
  | cons event rest =>
      obtain ⟨more, head⟩ := lineText_head event
      rw [linesText, List.flatMap_cons, head]
      cases within <;> rfl

theorem Replayable.appendNothing (sound : Replayable store.dir reported) :
    Replayable (store.appendFails events now 0 within).dir reported := by
  unfold EventStore.appendFails
  dsimp only
  split
  · exact sound
  · rename_i nonempty
    have same : (replay (appendFile store.dir (segmentDay now) [])).Perm
        (replay store.dir ++ []) := replay_perm (by simp)
    have noRecord : ([] : List StoredEvent).map recordOf = [] := rfl
    rw [← noRecord] at same
    rw [tornText_zero _ nonempty]
    exact sound.unreported same List.nodup_nil fun event absent => by cases absent

theorem Replayable.step {action : JournalAction} (sound : Replayable journal.store.dir journal.reported)
    (clean : Clean journal action) (taken : journalStep journal action = some next) :
    Replayable next.store.dir next.reported := by
  cases action with
  | append events now =>
      cases taken
      exact sound.append clean
  | appendFails events now count within =>
      cases taken
      obtain rfl | writes := clean
      · exact sound.appendNothing
      · exact sound.appendFails writes count within
  | restart =>
      cases taken
      exact sound

theorem filter_of_nodup {records : List JsValue} {record : JsValue}
    (distinct : (records.map storedKey).Nodup) (member : record ∈ records) :
    records.filter (fun other => storedKey other = storedKey record) = [record] := by
  induction records with
  | nil => cases member
  | cons first rest induction =>
      obtain ⟨single, others⟩ := List.nodup_cons.mp distinct
      obtain rfl | later := List.mem_cons.mp member
      · have noOther : rest.filter (fun other => storedKey other = storedKey record) = [] := by
          refine List.filter_eq_nil_iff.mpr fun other inside same => ?_
          exact single (of_decide_eq_true same ▸ List.mem_map_of_mem inside)
        rw [List.filter_cons_of_pos (by simp), noOther]
      · have different : storedKey first ≠ storedKey record := fun same =>
          single (same ▸ List.mem_map_of_mem later)
        rw [List.filter_cons_of_neg (by simpa using different), induction others later]

theorem Replayable.replayed_once (sound : Replayable dir reported) {event : StoredEvent}
    (member : event ∈ reported) :
    (replay dir).filter (fun record => storedKey record = keyOf event) = [recordOf event] := by
  rw [← storedKey_recordOf event]
  exact filter_of_nodup sound.distinct (sound.reported event member)

/-- Where batches are written cleanly, a failed append leaves nothing behind. -/
theorem clean_appends_leave_nothing (journal : Journal)
    (reached : Reaches journalStep Clean .new journal) : ReplayedOnce journal := by
  have sound : Replayable journal.store.dir journal.reported :=
    reached.invariant (fun journal => Replayable journal.store.dir journal.reported)
      ⟨List.nodup_nil, fun event absent => by cases absent⟩
      fun _ sound clean taken => sound.step clean taken
  exact ⟨sound.distinct, fun event member => sound.replayed_once member⟩

/-! ## A retry -/

theorem writesCleanly_of_all (all : ∀ event ∈ events, dedupeKey event ∉ (replay store.dir).map storedKey ∧
    LineSafe event ∧ Spaces (unterminated [] (content store.dir (segmentDay now)))) :
    WritesCleanly store events now := by
  intro event new
  obtain ⟨earlier, later, rfl, _⟩ := new
  exact all event (by simp)

def retriedBatch : List PlaybackEvent := [playNamed (js "a"), playNamed (js "b")]

/-- A write that fails before its first byte, and its retry. -/
theorem retry_of_nothing_is_replayed_once : ∃ journal, Reaches journalStep Clean .new journal ∧
    journal.reported.length = 2 ∧ ReplayedOnce journal := by
  have along : MeetsAlong journalStep Clean .new
      [.appendFails retriedBatch 0 0 false, .restart, .append retriedBatch 0] := by
    refine .cons (.inl rfl) rfl (.cons trivial rfl (.cons ?_ rfl trivial))
    refine writesCleanly_of_all ?_
    decide +kernel
  have reached : Reaches journalStep Clean .new _ := .of_run rfl along
  exact ⟨_, reached, by decide +kernel, clean_appends_leave_nothing _ reached⟩

/-! ## A short write and its retry -/

/-- The write fails behind the first line. -/
def shortWriteActions : List JournalAction :=
  [.appendFails retriedBatch 0 (lineText { playNamed (js "a") with receivedAt := toISOString 0 }).length.succ
    false, .append retriedBatch 0]

/-- The retry appends the play again, whose line the failed write had left. -/
theorem retry_doubles_the_first_play : ¬ LeavesNothing anyAction := by
  intro leaves
  obtain ⟨journal, ran, twice⟩ : ∃ journal : Journal, run journalStep .new shortWriteActions = some journal ∧
      ¬ ((replay journal.store.dir).map storedKey).Nodup := ⟨_, rfl, by decide +kernel⟩
  exact twice (leaves journal (.of_run ran (meetsAlong_anyAction _ _))).1

end Tapes.Events
