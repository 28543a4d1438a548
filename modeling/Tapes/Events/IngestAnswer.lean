import Mathlib.Data.List.Perm.Subperm
import Tapes.Events.Aggregates
import Tapes.Events.FailedAppend
import Tapes.Machine.Run

namespace Tapes.Events.Ingest

open Tapes.Js Tapes.Machine
open Tapes.Outbox (validate judge Judged Rejection IngestResponse)

/-! What the ingest route makes of a batch: where each index of it goes, and whether the totals in
memory stay those that the log gives when it is read from scratch. -/

/-! ## The host -/

def logged (dir : LogDir) : List StoredEvent := (replay dir).map eventOf

structure Host where
  store : EventStore
  rollup : TotalsMap

/-- Both stores as they open, where retention has never folded a segment. -/
def Host.opened (dir : LogDir) : Host := ⟨openStore dir, deriveAggregates (logged dir) .empty⟩

section

variable (isDate : JsString → Bool) (known : Nat → JsString → Bool)

/-- Whether the host knows the recording of a candidate, which it is asked for valid ones. -/
def isKnown (candidate : JsValue × Nat) : Bool :=
  match validate isDate candidate.1 with
  | .ok event => known candidate.2 event.recordingUrl
  | .error _ => false

/-- The loop of `handleIngest`. -/
def judgeAll (values : List JsValue) : Judged :=
  values.zipIdx.foldl
    (fun judged candidate => judge isDate (isKnown isDate known candidate) candidate judged) ⟨[], []⟩

/-- `handleIngest` from a batch of the allowed size on: the host after it, the events the store
accepted, and the answer. -/
def handleIngest (host : Host) (values : List JsValue) (now : Int) :
    Host × List StoredEvent × IngestResponse :=
  let judged := judgeAll isDate known values
  let duplicates := (admitAll host.store.seen judged.valid (toISOString now)).duplicates
  let (store, accepted) := host.store.append judged.valid now
  (⟨store, accepted.foldl foldEvent host.rollup⟩, accepted,
    ⟨accepted.map fun event => event.id, duplicates, judged.rejected⟩)

end

inductive Action where
  | ingest (known : Nat → JsString → Bool) (values : List JsValue) (now : Int)
  /-- The host is started anew on its files. -/
  | reopen

def step (isDate : JsString → Bool) (host : Host) : Action → Option Host
  | .ingest known values now => some (handleIngest isDate known host values now).1
  | .reopen => some (.opened host.store.dir)

/-! ## The property -/

/-- The event that an index of the batch holds, if it is a valid one. -/
def eventAt (isDate : JsString → Bool) (values : List JsValue) (index : Nat) :
    Option PlaybackEvent :=
  values[index]?.bind fun value => (validate isDate value).toOption

/-- The indices that an answer accepts, those it calls duplicates and those it rejects. -/
structure Accounts (isDate : JsString → Bool) (known : Nat → JsString → Bool) (host : Host)
    (values : List JsValue) (now : Int) (next : Host) (appended : List StoredEvent)
    (answer : IngestResponse) (accepted duplicates : List Nat) : Prop where
  once : (accepted ++ duplicates ++ answer.rejected.map Rejection.index).Perm
    (List.range values.length)
  acceptedRise : accepted.Pairwise (· < ·)
  duplicatesRise : duplicates.Pairwise (· < ·)
  rejectedRise : (answer.rejected.map Rejection.index).Pairwise (· < ·)
  events : appended.map (fun event => some event.toPlaybackEvent) =
    accepted.map (eventAt isDate values)
  taken : answer.accepted = appended.map fun event => event.id
  repeated : answer.duplicates.map some =
    duplicates.map fun index => (eventAt isDate values index).map PlaybackEvent.id
  log : next.store.dir = if appended = [] then host.store.dir
    else appendFile host.store.dir (segmentDay now) (payload appended)
  recorded : next.rollup = appended.foldl foldEvent host.rollup

/-- Each index of a batch is in exactly one of three rising lists, which the answer goes through,
and the events it accepts are those appended to the log and those recorded. -/
def Partitions (isDate : JsString → Bool) (known : Nat → JsString → Bool) (host : Host)
    (values : List JsValue) (now : Int) : Prop :=
  ∃ accepted duplicates,
    Accounts isDate known host values now (handleIngest isDate known host values now).1
      (handleIngest isDate known host values now).2.1
      (handleIngest isDate known host values now).2.2 accepted duplicates

structure FollowsLog (isDate : JsString → Bool) (host : Host) : Prop where
  partitions : ∀ known values now, Partitions isDate known host values now
  rollup : tallyOf host.rollup = tallyOf (deriveAggregates (logged host.store.dir) .empty)

/-- The valid events of a batch whose recordings the host knows. -/
def knownEvents (isDate : JsString → Bool) (known : Nat → JsString → Bool) (values : List JsValue) :
    List PlaybackEvent :=
  values.zipIdx.filterMap fun candidate =>
    if isKnown isDate known candidate then (validate isDate candidate.1).toOption else none

/-- No line separator is in what the guests of the new events wrote, and the segment they go to has
no line that is not ended. -/
def WritesWhole (isDate : JsString → Bool) (host : Host) : Action → Prop
  | .ingest known values now =>
      ∀ event, New host.store.seen (knownEvents isDate known values) event →
        Unbroken event ∧ Spaces (unterminated [] (content host.store.dir (segmentDay now)))
  | .reopen => True

/-! ## Where an index goes -/

section

variable {isDate : JsString → Bool} {known : Nat → JsString → Bool} {values : List JsValue}
  {host : Host} {now : Int}

/-- The rejection of a candidate. -/
def rejectionOf (isDate : JsString → Bool) (known : Nat → JsString → Bool)
    (candidate : JsValue × Nat) : Option Rejection :=
  match validate isDate candidate.1 with
  | .error id => some ⟨candidate.2, id, .malformed, false⟩
  | .ok event =>
      if known candidate.2 event.recordingUrl then none
      else some ⟨candidate.2, some event.id, .unknownRecording, true⟩

/-- A candidate that is given to the store, with its index. -/
def givenOf (isDate : JsString → Bool) (known : Nat → JsString → Bool)
    (candidate : JsValue × Nat) : Option (PlaybackEvent × Nat) :=
  if isKnown isDate known candidate then
    (validate isDate candidate.1).toOption.map (·, candidate.2)
  else none

/-- A turn of the loop rejects the candidate or gives it to the store. -/
inductive Turn (isDate : JsString → Bool) (known : Nat → JsString → Bool)
    (candidate : JsValue × Nat) : Prop where
  | rejects (rejection : Rejection) (rejected : rejectionOf isDate known candidate = some rejection)
      (given : givenOf isDate known candidate = none) (index : rejection.index = candidate.2)
      (turn : ∀ judged, judge isDate (isKnown isDate known candidate) candidate judged =
        { judged with rejected := judged.rejected ++ [rejection] })
  | gives (event : PlaybackEvent) (rejected : rejectionOf isDate known candidate = none)
      (given : givenOf isDate known candidate = some (event, candidate.2))
      (valid : validate isDate candidate.1 = .ok event)
      (turn : ∀ judged, judge isDate (isKnown isDate known candidate) candidate judged =
        { judged with valid := judged.valid ++ [event] })

theorem turn (isDate : JsString → Bool) (known : Nat → JsString → Bool)
    (candidate : JsValue × Nat) : Turn isDate known candidate := by
  cases found : validate isDate candidate.1 with
  | error id =>
      exact .rejects ⟨candidate.2, id, .malformed, false⟩ (by simp [rejectionOf, found])
        (by simp [givenOf, isKnown, found]) rfl fun judged => by simp [judge, found]
  | ok event =>
      cases answer : known candidate.2 event.recordingUrl with
      | true =>
          exact .gives event (by simp [rejectionOf, found, answer])
            (by simp [givenOf, isKnown, found, answer, Except.toOption]) found
            fun judged => by simp [judge, isKnown, found, answer]
      | false =>
          exact .rejects ⟨candidate.2, some event.id, .unknownRecording, true⟩
            (by simp [rejectionOf, found, answer]) (by simp [givenOf, isKnown, found, answer]) rfl
            fun judged => by simp [judge, isKnown, found, answer]

theorem judgeAll_eq (isDate : JsString → Bool) (known : Nat → JsString → Bool)
    (values : List JsValue) : judgeAll isDate known values =
      ⟨values.zipIdx.filterMap (rejectionOf isDate known),
        (values.zipIdx.filterMap (givenOf isDate known)).map Prod.fst⟩ := by
  have loop (candidates : List (JsValue × Nat)) (judged : Judged) :
      candidates.foldl (fun judged candidate =>
        judge isDate (isKnown isDate known candidate) candidate judged) judged =
          ⟨judged.rejected ++ candidates.filterMap (rejectionOf isDate known),
            judged.valid ++ (candidates.filterMap (givenOf isDate known)).map Prod.fst⟩ := by
    induction candidates generalizing judged with
    | nil => simp
    | cons candidate rest induction =>
        rw [List.foldl_cons, induction]
        cases turn isDate known candidate with
        | rejects rejection rejected given _ turn =>
            simp [turn, List.filterMap_cons_some rejected, List.filterMap_cons_none given]
        | gives event rejected given _ turn =>
            simp [turn, List.filterMap_cons_none rejected, List.filterMap_cons_some given]
  exact loop values.zipIdx ⟨[], []⟩

theorem judgeAll_valid : (judgeAll isDate known values).valid = knownEvents isDate known values := by
  rw [judgeAll_eq, List.map_filterMap, knownEvents]
  refine List.filterMap_congr fun candidate _ => ?_
  unfold givenOf
  split
  · cases validate isDate candidate.1 <;> rfl
  · rfl

/-- Every candidate is rejected or given to the store. -/
theorem rejected_or_given (isDate : JsString → Bool) (known : Nat → JsString → Bool)
    (candidates : List (JsValue × Nat)) :
    ((candidates.filterMap (givenOf isDate known)).map Prod.snd ++
      (candidates.filterMap (rejectionOf isDate known)).map Rejection.index).Perm
        (candidates.map Prod.snd) := by
  induction candidates with
  | nil => exact .refl _
  | cons candidate rest induction =>
      cases turn isDate known candidate with
      | rejects rejection rejected given index =>
          rw [List.filterMap_cons_some rejected, List.filterMap_cons_none given, List.map_cons,
            List.map_cons, index]
          exact List.perm_middle.trans (induction.cons _)
      | gives event rejected given =>
          rw [List.filterMap_cons_none rejected, List.filterMap_cons_some given]
          exact induction.cons _

/-- The store takes each event it is given as accepted or as a duplicate, in order. -/
theorem admitted_or_repeated (seen : List JsString) (receivedAt : JsString)
    (given : List (PlaybackEvent × Nat)) (named : ∀ entry ∈ given, entry.1.id ≠ []) :
    ∃ accepted duplicates : List (PlaybackEvent × Nat),
      accepted.Sublist given ∧ duplicates.Sublist given ∧ (accepted ++ duplicates).Perm given ∧
      (admitAll seen (given.map Prod.fst) receivedAt).accepted =
        accepted.map (fun entry => { entry.1 with receivedAt }) ∧
      (admitAll seen (given.map Prod.fst) receivedAt).duplicates =
        duplicates.map fun entry => entry.1.id := by
  induction given using List.reverseRecOn with
  | nil => exact ⟨[], [], .slnil, .slnil, .refl _, rfl, rfl⟩
  | append_singleton given entry induction =>
      obtain ⟨others, here⟩ := List.forall_mem_append.mp named
      obtain ⟨accepted, duplicates, acceptedIn, duplicatesIn, all, taken, repeated⟩ :=
        induction others
      have last := List.Sublist.refl [entry]
      rw [List.map_append, List.map_singleton, admit_append, admitOne,
        if_neg (here entry (List.mem_singleton_self _))]
      split
      · refine ⟨accepted, duplicates ++ [entry], acceptedIn.trans (List.sublist_append_left _ _),
          duplicatesIn.append last, ?_, taken, ?_⟩
        · rw [← List.append_assoc]
          exact all.append_right _
        · simp [repeated]
      · refine ⟨accepted ++ [entry], duplicates, acceptedIn.append last,
          duplicatesIn.trans (List.sublist_append_left _ _), ?_, ?_, repeated⟩
        · rw [List.append_assoc, List.singleton_append]
          exact List.perm_middle.trans ((all.cons entry).trans
            (List.perm_append_singleton entry given).symm)
        · simp [taken]

theorem index_of_given {candidate : JsValue × Nat} {entry : PlaybackEvent × Nat}
    (given : givenOf isDate known candidate = some entry) : entry.2 = candidate.2 := by
  cases turn isDate known candidate with
  | rejects _ _ nothing =>
      rw [nothing] at given
      cases given
  | gives event _ gives =>
      rw [gives] at given
      cases given
      rfl

theorem index_of_rejection {candidate : JsValue × Nat} {rejection : Rejection}
    (rejected : rejectionOf isDate known candidate = some rejection) :
    rejection.index = candidate.2 := by
  cases turn isDate known candidate with
  | rejects found rejects _ index =>
      rw [rejects] at rejected
      cases rejected
      exact index
  | gives _ nothing =>
      rw [nothing] at rejected
      cases rejected

theorem append_dir (store : EventStore) (events : List PlaybackEvent) (now : Int) :
    (store.append events now).1.dir = if (store.append events now).2 = [] then store.dir
      else appendFile store.dir (segmentDay now) (payload (store.append events now).2) := by
  unfold EventStore.append
  dsimp only
  split
  · rfl
  · rfl

theorem eventAt_of_given {entry : PlaybackEvent × Nat}
    (member : entry ∈ values.zipIdx.filterMap (givenOf isDate known)) :
    eventAt isDate values entry.2 = some entry.1 ∧ entry.1.id ≠ [] := by
  obtain ⟨candidate, inside, given⟩ := List.mem_filterMap.mp member
  cases turn isDate known candidate with
  | rejects _ _ nothing =>
      rw [nothing] at given
      cases given
  | gives event _ gives valid =>
      rw [gives] at given
      cases given
      have here := List.mem_zipIdx_iff_getElem?.mp inside
      refine ⟨?_, (checked_of_validate valid).id⟩
      simp [eventAt, here, valid, Except.toOption]

theorem partitions (isDate : JsString → Bool) (host : Host) (known : Nat → JsString → Bool)
    (values : List JsValue) (now : Int) : Partitions isDate known host values now := by
  have judged := judgeAll_eq isDate known values
  have given (entry : PlaybackEvent × Nat) := @eventAt_of_given isDate known values entry
  obtain ⟨accepted, duplicates, acceptedIn, duplicatesIn, all, taken, repeated⟩ :=
    admitted_or_repeated host.store.seen (toISOString now)
      (values.zipIdx.filterMap (givenOf isDate known)) fun entry member => (given entry member).2
  have indices : values.zipIdx.map Prod.snd = List.range values.length := by
    rw [List.zipIdx_map_snd, List.range_eq_range']
  have rising : values.zipIdx.Pairwise fun first second => first.2 < second.2 := by
    rw [← List.pairwise_map, indices]
    exact List.pairwise_lt_range
  have givenRise : ((values.zipIdx.filterMap (givenOf isDate known)).map Prod.snd).Pairwise
      (· < ·) := by
    rw [List.pairwise_map]
    refine rising.filterMap _ fun first second before one isFirst other isSecond => ?_
    rw [index_of_given isFirst, index_of_given isSecond]
    exact before
  have rejectedRise : ((values.zipIdx.filterMap (rejectionOf isDate known)).map
      Rejection.index).Pairwise (· < ·) := by
    rw [List.pairwise_map]
    refine rising.filterMap _ fun first second before one isFirst other isSecond => ?_
    rw [index_of_rejection isFirst, index_of_rejection isSecond]
    exact before
  have appended : (host.store.append (judgeAll isDate known values).valid now).2 =
      accepted.map fun entry => { entry.1 with receivedAt := toISOString now } := by
    rw [append_accepted, judged]
    exact taken
  refine ⟨accepted.map Prod.snd, duplicates.map Prod.snd, ?_⟩
  exact
    { once := by
        have split := rejected_or_given isDate known values.zipIdx
        rw [indices] at split
        show (_ ++ (judgeAll isDate known values).rejected.map Rejection.index).Perm _
        rw [judged, ← List.map_append]
        exact ((all.map Prod.snd).append_right _).trans split
      acceptedRise := givenRise.sublist (acceptedIn.map _)
      duplicatesRise := givenRise.sublist (duplicatesIn.map _)
      rejectedRise := by
        show ((judgeAll isDate known values).rejected.map Rejection.index).Pairwise (· < ·)
        rw [judged]
        exact rejectedRise
      events := by
        show (host.store.append (judgeAll isDate known values).valid now).2.map _ = _
        rw [appended, List.map_map, List.map_map]
        refine List.map_congr_left fun entry member => ?_
        exact (given entry (acceptedIn.subset member)).1.symm
      taken := rfl
      repeated := by
        show (admitAll host.store.seen (judgeAll isDate known values).valid
          (toISOString now)).duplicates.map some = _
        rw [judged, repeated, List.map_map, List.map_map]
        refine List.map_congr_left fun entry member => ?_
        have here := (given entry (duplicatesIn.subset member)).1
        simp [here]
      log := append_dir host.store _ now
      recorded := rfl }

/-! ## What the log counts -/

variable {dir : LogDir} {day : Day} {text : JsString} {kept lost records : List JsValue}

/-- What is written behind a segment adds records, and may spoil the last one of it. -/
theorem replay_behind (before : readSegmentText (content dir day) = kept ++ lost)
    (after : readSegmentText (content dir day ++ text) = kept ++ records) :
    (replay (appendFile dir day text) ++ lost).Perm (replay dir ++ records) := by
  have keyed (dir : LogDir) : (replay dir).Perm
      (dir.keys.flatMap fun other => readSegmentText (content dir other)) :=
    (List.perm_insertionSort _ _).flatMap_right _
  let base (other : Day) := if other = day then kept else readSegmentText (content dir other)
  have contents (other : Day) : readSegmentText (content (appendFile dir day text) other) =
      base other ++ if other = day then records else [] := by
    by_cases same : other = day
    · subst same
      simp only [appendFile, content_set_self, base, if_true, after]
    · simp only [appendFile, content_set_other dir _ same, base, if_neg same, List.append_nil]
  have old (other : Day) : readSegmentText (content dir other) =
      base other ++ if other = day then lost else [] := by
    by_cases same : other = day
    · subst same
      simp only [base, if_true, before]
    · simp only [base, if_neg same, List.append_nil]
  have nodup : (appendFile dir day text).keys.Nodup := (appendFile dir day text).distinct
  have listed : day ∈ (appendFile dir day text).keys := OrderedMap.mem_keys.mpr
    ⟨_, OrderedMap.get?_set_self⟩
  have grown : (replay (appendFile dir day text)).Perm
      ((appendFile dir day text).keys.flatMap base ++ records) := by
    refine (keyed _).trans ?_
    simp only [contents]
    exact flatMap_append_at nodup listed base records
  have held : (replay dir).Perm ((appendFile dir day text).keys.flatMap base ++ lost) := by
    refine (keyed dir).trans ?_
    rw [appendFile, OrderedMap.keys_set]
    split
    · rename_i there
      simp only [old]
      exact flatMap_append_at dir.distinct there base lost
    · rename_i absent
      have unlisted : day ∉ segmentDays dir := fun inside =>
        absent ((List.mem_insertionSort _).mp inside)
      rw [content_of_not_mem unlisted, readSegmentText_nil] at before
      obtain ⟨noneKept, noneLost⟩ := List.append_eq_nil_iff.mp before.symm
      have others : (dir.keys.flatMap fun other => readSegmentText (content dir other)) =
          dir.keys.flatMap base := by
        refine List.flatMap_congr fun other inside => ?_
        have different : other ≠ day := fun same => absent (same ▸ inside)
        simp only [base, if_neg different]
      rw [others, List.flatMap_append, List.flatMap_singleton, noneLost, List.append_nil]
      simp only [base, if_true, noneKept, List.append_nil]
      exact .refl _
  have swapped : ((appendFile dir day text).keys.flatMap base ++ records ++ lost).Perm
      ((appendFile dir day text).keys.flatMap base ++ lost ++ records) := by
    rw [List.append_assoc, List.append_assoc]
    exact List.perm_append_comm.append_left _
  exact (grown.append_right lost).trans (swapped.trans (held.symm.append_right records))

@[simp] theorem tally_cons (event : StoredEvent) (rest : List StoredEvent) :
    tally (event :: rest) = counted event + tally rest := rfl

theorem tally_eq_zero {events : List StoredEvent} (nothing : tally events = 0) : events = [] := by
  cases events with
  | nil => rfl
  | cons event rest =>
      have plays := congrArg Prod.fst (congrFun nothing event.recordingUrl)
      simp [counted] at plays

theorem counted_recordOf {event : StoredEvent} (checked : Checked event.toPlaybackEvent) :
    counted (eventOf (recordOf event)) = counted event := by
  have url : (recordOf event).get (js "recordingUrl") = .string event.recordingUrl :=
    checked.members (by simp [eventMembers])
  have completion : (recordOf event).get (js "completion") = .number event.completion :=
    checked.members (by simp [eventMembers])
  simp [counted, eventOf, url, completion, JsValue.string?, JsValue.number?]

theorem tally_records {events : List StoredEvent}
    (checked : ∀ event ∈ events, Checked event.toPlaybackEvent) :
    tally ((events.map recordOf).map eventOf) = tally events := by
  induction events with
  | nil => rfl
  | cons event rest induction =>
      obtain ⟨here, others⟩ := List.forall_mem_cons.mp checked
      rw [List.map_cons, List.map_cons, tally_cons, tally_cons, induction others,
        counted_recordOf here]

/-- The log counts the events whose lines are whole, and not the one whose line they go behind. -/
theorem tally_logged (store : EventStore) (events : List PlaybackEvent) (now : Int)
    (checked : ∀ event ∈ (store.append events now).2, Checked event.toPlaybackEvent)
    (accepts : (store.append events now).2 ≠ []) :
    tally (logged (store.append events now).1.dir) +
        tally ((readLine (unterminated [] (content store.dir (segmentDay now)))).toList.map eventOf) =
      tally (logged store.dir) + tally (unharmed
        (unterminated [] (content store.dir (segmentDay now))) (store.append events now).2) := by
  have took := took_append store events now
  have after := readSegmentText_append took.written (content store.dir (segmentDay now))
  rw [readable_eq accepts, ← payload_eq accepts] at after
  have same := replay_behind (readSegmentText_eq _) after
  have tallies := tally_perm (same.map eventOf)
  have whole : ∀ event ∈ unharmed (unterminated [] (content store.dir (segmentDay now)))
      (store.append events now).2, Checked event.toPlaybackEvent :=
    fun event member => checked event (mem_unharmed member).1
  rw [List.map_append, List.map_append, tally_append, tally_append, tally_records whole] at tallies
  rw [append_dir, if_neg accepts]
  exact tallies

/-! ## Exactly when the totals follow the log -/

theorem tallyOf_scratch (dir : LogDir) :
    tallyOf (deriveAggregates (logged dir) .empty) = tally (logged dir) := by
  rw [tallyOf_deriveAggregates, tallyOf_empty, zero_add]

variable {store : EventStore} {events : List PlaybackEvent}

/-- What was accepted is what the log has more exactly when every line is read back, and none is
written behind one that was not ended. -/
theorem follows_append_iff (checked : ∀ event ∈ (store.append events now).2,
    Checked event.toPlaybackEvent) :
    tally (logged store.dir) + tally (store.append events now).2 =
        tally (logged (store.append events now).1.dir) ↔
      ∀ event, New store.seen events event →
        LineSafe event ∧ Spaces (unterminated [] (content store.dir (segmentDay now))) := by
  have took := took_append store events now
  simp only [took.new, List.forall_mem_map]
  by_cases acceptsNone : (store.append events now).2 = []
  · refine iff_of_true ?_ (by simp [acceptsNone])
    rw [append_dir, if_pos acceptsNone, acceptsNone, tally_nil, add_zero]
  have counts := tally_logged store events now checked acceptsNone
  have inside := unharmed_sublist (unterminated [] (content store.dir (segmentDay now)))
    (store.append events now).2
  constructor
  · intro same
    obtain ⟨rest, all⟩ := inside.exists_perm_append
    rw [← same, tally_perm all, tally_append, ← add_assoc] at counts
    have nothing := add_eq_left.mp ((add_assoc _ _ _).symm.trans counts)
    rw [← tally_append] at nothing
    have noRest := (List.append_eq_nil_iff.mp (tally_eq_zero nothing)).1
    rw [noRest, List.append_nil] at all
    obtain ⟨blank, safe⟩ := (all_unharmed acceptsNone took.distinct).mp fun event member =>
      all.mem_iff.mp member
    exact fun event member => ⟨safe event member, blank⟩
  · intro whole
    obtain ⟨first, member⟩ := List.exists_mem_of_ne_nil _ acceptsNone
    have blank := (whole first member).2
    have subset := (all_unharmed acceptsNone took.distinct).mpr
      ⟨blank, fun event member => (whole event member).1⟩
    have equal := inside.eq_of_length_le
      (List.subperm_of_subset (took.distinct.of_map _) subset).length_le
    rw [readLine_spaces blank, Option.toList_none, List.map_nil, tally_nil, add_zero, equal] at counts
    exact counts.symm

theorem checked_of_known {event : PlaybackEvent}
    (member : event ∈ knownEvents isDate known values) : Checked event := by
  obtain ⟨candidate, -, valid⟩ := List.mem_filterMap.mp member
  split at valid
  · cases found : validate isDate candidate.1 with
    | error id =>
        rw [found] at valid
        cases valid
    | ok event =>
        rw [found] at valid
        cases valid
        exact checked_of_validate found
  · cases valid

theorem mem_of_new {seen : List JsString} {event : PlaybackEvent} (new : New seen events event) :
    event ∈ events := by
  obtain ⟨earlier, later, rfl, -⟩ := new
  simp

theorem followsLog_iff : FollowsLog isDate host ↔
    tallyOf host.rollup = tally (logged host.store.dir) := by
  rw [← tallyOf_scratch]
  exact ⟨FollowsLog.rollup, fun rollup => ⟨partitions isDate host, rollup⟩⟩

theorem followsLog_opened (isDate : JsString → Bool) (dir : LogDir) :
    FollowsLog isDate (.opened dir) :=
  followsLog_iff.mpr (tallyOf_scratch dir)

theorem followsLog_of_step_iff {action : Action} {next : Host} (follows : FollowsLog isDate host)
    (taken : step isDate host action = some next) :
    FollowsLog isDate next ↔ WritesWhole isDate host action := by
  cases action with
  | reopen =>
      cases taken
      exact iff_of_true (followsLog_opened isDate host.store.dir) trivial
  | ingest known values now =>
      cases taken
      have checked : ∀ stored ∈ (host.store.append (judgeAll isDate known values).valid now).2,
          Checked stored.toPlaybackEvent := by
        intro stored member
        have new := ((took_append host.store (judgeAll isDate known values).valid now).new _).mpr
          (List.mem_map_of_mem member)
        have given := mem_of_new new
        rw [judgeAll_valid] at given
        exact checked_of_known given
      have exactly := follows_append_iff checked
      have recorded : tallyOf (handleIngest isDate known host values now).1.rollup =
          tally (logged host.store.dir) +
            tally (host.store.append (judgeAll isDate known values).valid now).2 := by
        rw [← followsLog_iff.mp follows]
        exact tallyOf_foldl_foldEvent _ host.rollup
      rw [followsLog_iff, recorded, WritesWhole, ← judgeAll_valid]
      refine exactly.trans (forall₂_congr fun event new => and_congr_left' ?_)
      have given := mem_of_new new
      rw [judgeAll_valid] at given
      exact (checked_of_known given).lineSafe_iff

theorem run_total (isDate : JsString → Bool) (host : Host) (actions : List Action) :
    ∃ final, run (step isDate) host actions = some final := by
  induction actions generalizing host with
  | nil => exact ⟨host, rfl⟩
  | cons action rest induction => cases action <;> exact induction _

/-- Along a run of ingests and reopenings, from any log, every batch is partitioned and the totals
are those of the log exactly when each new event is free of line separators and goes to a segment
whose last line is ended. -/
theorem rollup_follows_log_iff (isDate : JsString → Bool) (dir : LogDir) (actions : List Action) :
    HoldsAlong (step isDate) (FollowsLog isDate) (.opened dir) actions ↔
      MeetsAlong (step isDate) (WritesWhole isDate) (.opened dir) actions := by
  obtain ⟨final, ran⟩ := run_total isDate (.opened dir) actions
  have keeps {host next : Host} {action : Action} (_ : True)
      (_ : step isDate host action = some next) : True := trivial
  exact holdsAlong_iff keeps (fun _ follows taken => followsLog_of_step_iff follows taken) trivial
    (followsLog_opened isDate dir) ran

end

/-! ## A line separator, and a torn line -/

def ingested (values : List JsValue) : Action := .ingest (fun _ _ => true) values 0

/-- The totals count a play that the log, read from scratch, does not give. -/
theorem play_is_not_in_the_log :
    ¬ HoldsAlong (step fun _ => true) (FollowsLog fun _ => true) (.opened .empty)
        [ingested [playValue [0x61, 0x2028]]] ∧
      ¬ HoldsAlong (step fun _ => true) (FollowsLog fun _ => true)
        (.opened (logOf (js "\x7b\"id\":\"a\""))) [ingested [playValue (js "b")]] := by
  constructor
  all_goals
    intro along
    have rollup := followsLog_iff.mp (along.2 _ rfl)
    have plays := congrArg Prod.fst (congrFun rollup (js "automerge:1111111111111111"))
    revert plays
    decide +kernel

end Tapes.Events.Ingest
