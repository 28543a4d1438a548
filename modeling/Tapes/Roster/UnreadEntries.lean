import Tapes.Js.JsonIndent
import Tapes.Machine.Run
import Tapes.Provenance.Codec
import Tapes.Roster.RosterFile

namespace Tapes.Roster.Unread

open Tapes.Js Tapes.Machine Tapes.Provenance

/-! The roster's file as plain JSON: a read drops the entries it does not recognise, and the
next write leaves them out of the file. -/

/-! ## The file -/

/-- What `writeRoster` puts in the file. -/
def peopleText (people : List JsValue) : JsString :=
  stringifyIndented (js "  ") [] (.object [(js "people", .array people)]) ++ js "\n"

/-- An entry as the host builds it: an object with a person key. -/
structure PersonEntry where
  members : List (JsString × JsValue)
  personKey : JsString
  distinct : (members.map Prod.fst).Nodup
  named : JsValue.lookup (js "personKey") members = .string personKey

def PersonEntry.value (entry : PersonEntry) : JsValue := .object entry.members

def personKey? (entry : JsValue) : Option JsString := (entry.get (js "personKey")).string?

def replace (entries : List JsValue) (entry : PersonEntry) : List JsValue :=
  entries.filter (fun existing => personKey? existing ≠ some entry.personKey) ++ [entry.value]

/-! ## The operations -/

/-- The promise that `load` keeps: `failed` is one that is rejected, and stays so. -/
inductive Cache where
  | unread
  | failed
  | loaded (entries : List JsValue)

/-- `written` are the person keys of the entries written so far. -/
structure State where
  file : JsString
  cached : Cache
  written : List JsString

def State.opened (file : JsString) : State := ⟨file, .unread, []⟩

/-- What the file holds. -/
def State.people (state : State) : List JsValue := (filePeople state.file).getD []

/-- The list that `load` resolves with, none where it rejects. -/
def State.load (state : State) : Option (List JsValue) :=
  match state.cached with
  | .unread => readPeople state.file
  | .failed => none
  | .loaded entries => some entries

/-- `lands` is whether the file system takes the write, and `reopen` a new run of the host. -/
inductive Operation where
  | put (entry : PersonEntry) (lands : Bool)
  | update (personKey : JsString) (change : JsValue → Option PersonEntry) (lands : Bool)
  | reopen

/-- The entry to write, for the list that was loaded. -/
def Operation.entry (entries : List JsValue) : Operation → Option PersonEntry
  | .put entry _ => some entry
  | .update personKey change _ =>
      (entries.find? (fun each => personKey? each = some personKey)).bind change
  | .reopen => none

def Operation.lands : Operation → Bool
  | .put _ lands => lands
  | .update _ _ lands => lands
  | .reopen => false

/-- The list and the entry that the operation writes, none where it writes nothing. -/
def State.writes (state : State) (operation : Operation) : Option (List JsValue × PersonEntry) := do
  let entries ← state.load
  let entry ← operation.entry entries
  if operation.lands then some (entries, entry) else none

/-- The promise in `cached` after a `load`. -/
def State.loaded (state : State) : State :=
  { state with cached := state.load.elim .failed .loaded }

def step (state : State) (operation : Operation) : Option State :=
  match operation with
  | .reopen => some { state with cached := .unread }
  | .put .. | .update .. =>
      match state.writes operation with
      | none => some state.loaded
      | some (entries, entry) =>
          let next := replace entries entry
          some ⟨peopleText next, .loaded next, entry.personKey :: state.written⟩

/-- No operation so far has written an entry for this one's person. -/
def unaddressed (written : List JsString) (entry : JsValue) : Bool :=
  (personKey? entry).all (· ∉ written)

/-- The entries that no operation addressed, in their order. -/
def State.untouched (written : List JsString) (state : State) : List JsValue :=
  state.people.filter (unaddressed written)

/-- A write leaves nobody out: whatever it does not address passes the check, and is the same
when what is written of it is read. -/
def ReadsTheRest (state : State) (operation : Operation) : Prop :=
  match state.writes operation with
  | none => True
  | some (_, entry) =>
      ∀ existing ∈ state.untouched (entry.personKey :: state.written),
        isRosterEntry existing = some true ∧ reread existing = existing

/-! ## What a file reads back as -/

section

variable {file : JsString} {entries people : List JsValue} {entry : JsValue}

theorem rereadItems_eq (items : List JsValue) : rereadItems items = items.map reread := by
  induction items with
  | nil => rfl
  | cons item rest induction => rw [rereadItems, induction, List.map_cons]

theorem filePeople_peopleText (people : List JsValue) :
    filePeople (peopleText people) = some (people.map reread) := by
  have gaps : Spaces (js "  ") := List.all_eq_true.mp (by decide)
  have line : Spaces (js "\n") := List.all_eq_true.mp (by decide)
  have none : Spaces [] := by simp [Spaces]
  have read := parse_indented gaps none line (.object [(js "people", .array people)])
  rw [List.nil_append] at read
  have distinct : ([(js "people", JsValue.array people)].map Prod.fst).Nodup := by simp
  have found := get_reread_object (js "people") distinct
  simp only [JsValue.lookup, if_true, rereadField_array, rereadItems_eq] at found
  simp only [filePeople, peopleText, read, Option.bind_eq_bind, Option.bind_some, found,
    JsValue.array?]

/-- The keys of an object are distinct. -/
def Distinct (entry : JsValue) : Prop :=
  ∀ members, entry = .object members → (members.map Prod.fst).Nodup

theorem Distinct.of_parsed (parsed : Parsed entry) : Distinct entry := by
  rintro members rfl
  exact parsed.1

theorem string?_rereadField (value : JsValue) : (rereadField value).string? = value.string? := by
  cases value with
  | number number => cases number <;> rfl
  | _ => rfl

theorem personKey?_reread (distinct : Distinct entry) : personKey? (reread entry) = personKey? entry := by
  cases entry with
  | object members =>
      have found := get_reread_object (js "personKey") (distinct members rfl)
      rw [personKey?, found, string?_rereadField]
      rfl
  | number number => cases number <;> rfl
  | _ => rfl

theorem unaddressed_reread (written : List JsString) (distinct : Distinct entry) :
    unaddressed written (reread entry) = unaddressed written entry := by
  rw [unaddressed, personKey?_reread distinct, unaddressed]

theorem unaddressed_cons (personKey : JsString) (written : List JsString) (entry : JsValue) :
    unaddressed (personKey :: written) entry =
      (decide (personKey? entry ≠ some personKey) && unaddressed written entry) := by
  unfold unaddressed
  cases personKey? entry with
  | none => rfl
  | some key => simp [eq_comm]

theorem allParsed_iff {items : List JsValue} : AllParsed items ↔ ∀ item ∈ items, Parsed item := by
  induction items with
  | nil => simp [AllParsed]
  | cons item rest induction => rw [AllParsed, List.forall_mem_cons, induction]

theorem distinct_of_filePeople (read : filePeople file = some people) :
    ∀ entry ∈ people, Distinct entry := by
  simp only [filePeople, Option.bind_eq_bind, Option.bind_eq_some_iff] at read
  obtain ⟨whole, parsed, list⟩ := read
  have sound := parsed_of_parse parsed
  cases whole with
  | object members =>
      have array : JsValue.lookup (js "people") members = .array people := by
        cases found : JsValue.lookup (js "people") members with
        | array items =>
            rw [JsValue.get, found] at list
            cases list
            rfl
        | _ =>
            rw [JsValue.get, found] at list
            cases list
      have member := mem_of_lookup (show (JsValue.lookup (js "people") members).isUndefined = false by
        rw [array]
        rfl)
      have items := membersParsed_iff.mp sound.2 _ member
      rw [array] at items
      exact fun entry member => .of_parsed (allParsed_iff.mp items entry member)
  | _ => cases list

theorem filterItems_eq (kept : filterItems isRosterEntry people = some entries) :
    entries = people.filter (fun entry => isRosterEntry entry = some true) := by
  induction people generalizing entries with
  | nil =>
      cases kept
      rfl
  | cons first rest induction =>
      simp only [filterItems, Option.bind_eq_bind, Option.bind_eq_some_iff] at kept
      obtain ⟨passes, checked, others, left, same⟩ := kept
      cases same
      rw [List.filter_cons, checked, ← induction left]
      cases passes <;> rfl

end

/-! ## Every run -/

section

variable {start state next : State} {operation : Operation}

/-- What is in memory is what a read of the file gave, or what the last write left there. -/
structure Kept (start state : State) : Prop where
  untouched : state.untouched state.written = start.untouched state.written
  distinct : ∀ entries, state.cached = .loaded entries → ∀ entry ∈ entries, Distinct entry
  memory : ∀ entries, state.cached = .loaded entries →
    readPeople state.file = some entries ∨ state.people = entries.map reread

theorem filter_unaddressed_cons (personKey : JsString) (written : List JsString)
    (entries : List JsValue) :
    entries.filter (unaddressed (personKey :: written)) =
      (entries.filter (unaddressed written)).filter (fun entry => personKey? entry ≠ some personKey) := by
  rw [List.filter_filter]
  exact List.filter_congr fun entry _ => unaddressed_cons personKey written entry

/-- A write leaves what it does not address where it is in the list. -/
theorem replace_untouched (entries : List JsValue) (entry : PersonEntry) (written : List JsString) :
    (replace entries entry).filter (unaddressed (entry.personKey :: written)) =
      entries.filter (unaddressed (entry.personKey :: written)) := by
  have own : personKey? entry.value = some entry.personKey := by
    rw [personKey?, PersonEntry.value, JsValue.get, entry.named, JsValue.string?]
  have addressed : unaddressed (entry.personKey :: written) entry.value = false := by
    simp [unaddressed, own]
  rw [replace, List.filter_append, List.filter_cons, addressed, List.filter_filter]
  simp only [Bool.false_eq_true, if_false, List.filter_nil, List.append_nil]
  apply List.filter_congr
  intro existing _
  rw [unaddressed_cons]
  cases decide (personKey? existing ≠ some entry.personKey) <;> simp

theorem filter_map_reread {entries : List JsValue} (written : List JsString)
    (distinct : ∀ entry ∈ entries, Distinct entry) :
    (entries.map reread).filter (unaddressed written) =
      (entries.filter (unaddressed written)).map reread := by
  rw [List.filter_map]
  congr 1
  exact List.filter_congr fun entry member => unaddressed_reread written (distinct entry member)

theorem PersonEntry.value_distinct (entry : PersonEntry) : Distinct entry.value := by
  rintro members same
  cases same
  exact entry.distinct

theorem replace_distinct {entries : List JsValue} (entry : PersonEntry)
    (distinct : ∀ existing ∈ entries, Distinct existing) :
    ∀ existing ∈ replace entries entry, Distinct existing := by
  intro existing member
  rcases List.mem_append.mp member with old | new
  · exact distinct existing (List.mem_of_mem_filter old)
  · rw [List.mem_singleton.mp new]
    exact entry.value_distinct

theorem State.people_of_file (read : filePeople state.file = some entries) : state.people = entries := by
  rw [State.people, read, Option.getD_some]

theorem people_written (people : List JsValue) (cached : Cache) (written : List JsString) :
    State.people ⟨peopleText people, cached, written⟩ = people.map reread :=
  State.people_of_file (filePeople_peopleText people)

theorem readPeople_eq {file : JsString} {entries : List JsValue}
    (read : readPeople file = some entries) : ∃ people, filePeople file = some people ∧
      entries = people.filter (fun entry => isRosterEntry entry = some true) := by
  obtain ⟨people, held, kept⟩ := Option.bind_eq_some_iff.mp read
  exact ⟨people, held, filterItems_eq kept⟩

/-- What `load` gives, and how it stands to the file. -/
theorem Kept.load (kept : Kept start state) {entries : List JsValue}
    (loaded : state.load = some entries) : (∀ entry ∈ entries, Distinct entry) ∧
      (readPeople state.file = some entries ∨ state.people = entries.map reread) := by
  unfold State.load at loaded
  cases cached : state.cached with
  | unread =>
      rw [cached] at loaded
      obtain ⟨people, held, rfl⟩ := readPeople_eq loaded
      have distinct := distinct_of_filePeople held
      exact ⟨fun entry member => distinct entry (List.mem_of_mem_filter member), .inl loaded⟩
  | failed =>
      rw [cached] at loaded
      cases loaded
  | loaded held =>
      rw [cached] at loaded
      cases loaded
      exact ⟨kept.distinct entries cached, kept.memory entries cached⟩

theorem Kept.loaded (kept : Kept start state) : Kept start state.loaded where
  untouched := kept.untouched
  distinct entries cached := by
    cases load : state.load with
    | none =>
        simp only [State.loaded, load, Option.elim_none] at cached
        cases cached
    | some held =>
        simp only [State.loaded, load, Option.elim_some] at cached
        cases cached
        exact (kept.load load).1
  memory entries cached := by
    cases load : state.load with
    | none =>
        simp only [State.loaded, load, Option.elim_none] at cached
        cases cached
    | some held =>
        simp only [State.loaded, load, Option.elim_some] at cached
        cases cached
        exact (kept.load load).2

/-- What a write leaves of the entries nobody has addressed. -/
theorem Kept.rewritten (kept : Kept start state) {entries : List JsValue} {entry : PersonEntry}
    (loaded : state.load = some entries)
    (rest : ∀ existing ∈ state.untouched (entry.personKey :: state.written),
      isRosterEntry existing = some true ∧ reread existing = existing) :
    (entries.filter (unaddressed (entry.personKey :: state.written))).map reread =
      state.untouched (entry.personKey :: state.written) := by
  obtain ⟨distinct, read | written⟩ := kept.load loaded
  · obtain ⟨people, held, rfl⟩ := readPeople_eq read
    have same := State.people_of_file held
    rw [State.untouched, same] at rest ⊢
    have passing : (people.filter (fun entry => isRosterEntry entry = some true)).filter
        (unaddressed (entry.personKey :: state.written)) =
          people.filter (unaddressed (entry.personKey :: state.written)) := by
      rw [List.filter_comm, List.filter_eq_self]
      intro existing member
      exact decide_eq_true (rest existing member).1
    rw [passing]
    exact (List.map_congr_left fun existing member => (rest existing member).2).trans (List.map_id _)
  · rw [State.untouched, written, filter_map_reread _ distinct]

theorem step_cases (taken : step state operation = some next) :
    next = { state with cached := .unread } ∨ next = state.loaded ∨
      ∃ entries entry, state.writes operation = some (entries, entry) ∧
        next = ⟨peopleText (replace entries entry), .loaded (replace entries entry),
          entry.personKey :: state.written⟩ := by
  have written (held : (match state.writes operation with
      | none => some state.loaded
      | some (entries, entry) =>
          let next := replace entries entry
          some (⟨peopleText next, .loaded next, entry.personKey :: state.written⟩ : State)) =
        some next) :
      next = state.loaded ∨ ∃ entries entry, state.writes operation = some (entries, entry) ∧
        next = ⟨peopleText (replace entries entry), .loaded (replace entries entry),
          entry.personKey :: state.written⟩ := by
    cases writes : state.writes operation with
    | none =>
        rw [writes] at held
        cases held
        exact .inl rfl
    | some pair =>
        rw [writes] at held
        cases held
        exact .inr ⟨pair.1, pair.2, rfl, rfl⟩
  cases operation with
  | reopen =>
      cases taken
      exact .inl rfl
  | put entry lands => exact .inr (written taken)
  | update personKey change lands => exact .inr (written taken)

theorem load_of_writes {entries : List JsValue} {entry : PersonEntry}
    (writes : state.writes operation = some (entries, entry)) : state.load = some entries := by
  simp only [State.writes, Option.bind_eq_bind, Option.bind_eq_some_iff] at writes
  obtain ⟨held, loaded, other, -, same⟩ := writes
  split at same
  · cases same
    exact loaded
  · cases same

theorem State.untouched_cons (state : State) (personKey : JsString) (written : List JsString) :
    state.untouched (personKey :: written) =
      (state.untouched written).filter (fun entry => personKey? entry ≠ some personKey) :=
  filter_unaddressed_cons personKey written state.people

theorem Kept.step (kept : Kept start state) (met : ReadsTheRest state operation)
    (taken : step state operation = some next) : Kept start next := by
  rcases step_cases taken with rfl | rfl | ⟨entries, entry, writes, rfl⟩
  · exact
      { untouched := kept.untouched
        distinct := fun _ cached => nomatch cached
        memory := fun _ cached => nomatch cached }
  · exact kept.loaded
  · have loaded := load_of_writes writes
    have rest : ∀ existing ∈ state.untouched (entry.personKey :: state.written),
        isRosterEntry existing = some true ∧ reread existing = existing := by
      simpa only [ReadsTheRest, writes] using met
    have distinct := replace_distinct entry (kept.load loaded).1
    have people := people_written (replace entries entry) (.loaded (replace entries entry))
      (entry.personKey :: state.written)
    constructor
    · calc State.untouched _ _
          = ((replace entries entry).map reread).filter
              (unaddressed (entry.personKey :: state.written)) := by rw [State.untouched, people]
        _ = (entries.filter (unaddressed (entry.personKey :: state.written))).map reread := by
            rw [filter_map_reread _ distinct, replace_untouched]
        _ = state.untouched (entry.personKey :: state.written) := kept.rewritten loaded rest
        _ = start.untouched (entry.personKey :: state.written) := by
            rw [State.untouched_cons, kept.untouched, ← State.untouched_cons]
    · intro held cached
      cases cached
      exact distinct
    · intro held cached
      cases cached
      exact .inr people

/-- Every entry of the file that no operation addressed is still there, in its place among the
others and unchanged. -/
def Unforgotten (start state : State) : Prop :=
  state.untouched state.written = start.untouched state.written

theorem unread_entries_stay_in_the_file (file : JsString) (state : State)
    (reached : Reaches step ReadsTheRest (.opened file) state) :
    Unforgotten (.opened file) state := by
  have kept := reached.invariant (Kept (.opened file))
    { untouched := rfl
      distinct := fun _ cached => nomatch cached
      memory := fun _ cached => nomatch cached }
    fun _ kept met taken => kept.step met taken
  exact kept.untouched

end

/-! A sample: a person whose one vouch was written by a newer version. -/

def samplePerson (personKey : JsString) (more : List (JsString × JsValue)) :
    List (JsString × JsValue) :=
  [(js "personKey", .string personKey), (js "name", .string (js "Ada")),
    (js "firstCertificate", .object [(js "address", .string (js "certificate")),
      (js "signed", .object [(js "signature", .string (js "signature"))])]),
    (js "joinedAt", .string (js "then"))] ++ more

def newerVouch : List (JsString × JsValue) :=
  [(js "vouches", .array [.object [(js "method", .string (js "passkey"))]])]

def newcomer : PersonEntry where
  members := samplePerson (js "grace") []
  personKey := js "grace"
  distinct := by decide
  named := rfl

def adaEntry (more : List (JsString × JsValue)) : JsValue :=
  reread (.object (samplePerson (js "ada") more))

/-- The file of a host that has met one person. -/
@[irreducible] def adaFile (more : List (JsString × JsValue)) : JsString :=
  peopleText [.object (samplePerson (js "ada") more)]

theorem filePeople_adaFile (more : List (JsString × JsValue)) :
    filePeople (adaFile more) = some [adaEntry more] := by
  rw [adaFile, filePeople_peopleText]
  rfl

theorem people_adaFile (more : List (JsString × JsValue)) :
    (State.opened (adaFile more)).people = [adaEntry more] := by
  simp only [State.people, State.opened, filePeople_adaFile, Option.getD_some]

theorem load_adaFile (more : List (JsString × JsValue)) :
    (State.opened (adaFile more)).load = filterItems isRosterEntry [adaEntry more] := by
  simp only [State.load, State.opened, readPeople, filePeople_adaFile, Option.bind_some]

theorem reread_adaEntry : reread (adaEntry []) = adaEntry [] := by
  have whole : adaEntry [] = .object (samplePerson (js "ada") []) := by
    rw [adaEntry, reread_object (by decide)]
    rfl
  rw [whole]
  exact whole

theorem step_put {state : State} {entries : List JsValue} (entry : PersonEntry)
    (loaded : state.load = some entries) : step state (.put entry true) =
      some ⟨peopleText (replace entries entry), .loaded (replace entries entry),
        entry.personKey :: state.written⟩ := by
  simp only [step, State.writes, loaded, Operation.entry, Operation.lands, if_true,
    Option.bind_eq_bind, Option.bind_some]

theorem readable_entry_stays : ∃ state,
    Reaches step ReadsTheRest (.opened (adaFile [])) state ∧ state.written = [newcomer.personKey] ∧
      Unforgotten (.opened (adaFile [])) state := by
  have loaded : (State.opened (adaFile [])).load = some [adaEntry []] := by
    rw [load_adaFile]
    rfl
  have met : ReadsTheRest (.opened (adaFile [])) (.put newcomer true) := by
    simp only [ReadsTheRest, State.writes, loaded, Operation.entry, Operation.lands, if_true,
      Option.bind_eq_bind, Option.bind_some]
    intro existing member
    have held := (List.mem_filter.mp member).1
    rw [people_adaFile, List.mem_singleton] at held
    rw [held]
    exact ⟨by decide +kernel, reread_adaEntry⟩
  have reached := Reaches.refl.tail met (step_put newcomer loaded)
  exact ⟨_, reached, rfl, unread_entries_stay_in_the_file (adaFile []) _ reached⟩

/-- One person's join takes another out of the file. -/
theorem newer_entry_is_forgotten : ∃ state,
    Reaches step anyAction (.opened (adaFile newerVouch)) state ∧
      state.written = [newcomer.personKey] ∧ ¬ Unforgotten (.opened (adaFile newerVouch)) state := by
  have loaded : (State.opened (adaFile newerVouch)).load = some [] := by
    rw [load_adaFile]
    rfl
  refine ⟨_, Reaches.refl.tail trivial (step_put newcomer loaded), rfl, ?_⟩
  intro same
  rw [Unforgotten, State.untouched, State.untouched, people_adaFile, people_written] at same
  have lengths := congrArg List.length same
  exact absurd lengths (by decide +kernel)

end Tapes.Roster.Unread
