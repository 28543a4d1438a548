import Tapes.Machine.Run
import Tapes.Machine.Table
import Tapes.Roster.RosterRoundTrip
import Tapes.Vouching.HostVouching

namespace Tapes.Roster

open Tapes.Js Tapes.Machine
open Tapes.Vouching (CallId)

/-! `createPersonRoster`: a file that is read once and then cached, and writes that run one
at a time. A step is what happens up to the next await. -/

/-- The promise that `load` returns, `loaded` with the list that the latest write left. -/
inductive Cached where
  | unread
  | reading
  | loaded (entries : List RosterEntry)

/-- What a write awaits. After `renamed` only its own last lines are left. -/
inductive Stage where
  | mkdir
  | writeFile
  | rename
  | renamed
deriving DecidableEq

/-- The task whose turn it is awaits `load`, or it writes `next`. -/
inductive Running where
  | loading (task : Task)
  | writing (task : Task) (entry : RosterEntry) (next : List RosterEntry) (stage : Stage)

inductive Outcome where
  | resolved (written : Option RosterEntry)
  | rejected

def Outcome.isResolved : Outcome → Bool
  | .resolved _ => true
  | .rejected => false

inductive Query where
  | list
  | find (personKey : JsString)

inductive Answer where
  | people (entries : List RosterEntry)
  | person (entry : Option RosterEntry)

def Query.answer (entries : List RosterEntry) : Query → Answer
  | .list => .people entries
  | .find personKey => .person (findPerson entries personKey)

/-- A `list` or a `find` that awaits the promise it found in `cached`: none for that of the
first read. `since` is the number of tasks settled when it was called. -/
structure Reader where
  query : Query
  entries : Option (List RosterEntry)
  since : Nat

structure Reply where
  query : Query
  answer : Answer
  since : Nat

/-- The last five are for the results to speak about, and start anew with the process:
`first` is what the first read gave, `settled` lists the tasks done in their order, and
`turnFile` is the file as it was when the turn of the running task began. -/
structure RosterState where
  file : Option JsString
  scratch : Option JsString
  cached : Cached
  queue : List Task
  running : Option Running
  readers : Table CallId Reader
  first : List RosterEntry
  submitted : List Task
  settled : List (Task × Outcome)
  replies : List Reply
  turnFile : Option JsString

def RosterState.opened (file scratch : Option JsString) : RosterState :=
  ⟨file, scratch, .unread, [], none, Table.empty, [], [], [], [], file⟩

def RosterState.load (state : RosterState) : RosterState :=
  match state.cached with
  | .unread => { state with cached := .reading }
  | _ => state

def RosterState.settle (state : RosterState) (task : Task) (outcome : Outcome) : RosterState :=
  { state with running := none, settled := state.settled ++ [(task, outcome)] }

/-- The list that the promise in `cached` resolves with, none while the first read is on. -/
def Cached.entries? : Cached → Option (List RosterEntry)
  | .loaded entries => some entries
  | _ => none

inductive RosterAction where
  | submit (task : Task)
  | begin
  | readFile
  | resume
  | mkdir
  | writeFile (layout : RosterEntry → List Field)
  | rename
  | commit
  | fail (left : Option JsString)
  | read (call : CallId) (query : Query)
  | reply (call : CallId)
  | restart

/-- The task whose turn it is writes its entry, or it has nothing to write. -/
def RosterState.start (state : RosterState) (task : Task) (entries : List RosterEntry) :
    RosterState :=
  match task.written entries with
  | none => state.settle task (.resolved none)
  | some entry =>
      { state with running := some (.writing task entry (replace entries entry) .mkdir) }

/-- A write that fails leaves anything in the scratch file. -/
def RosterState.failed (state : RosterState) (task : Task) (left : Option JsString) :
    Stage → Option RosterState
  | .mkdir | .rename => some (state.settle task .rejected)
  | .writeFile => some ({ state with scratch := left }.settle task .rejected)
  | .renamed => none

/-- `submit` is a call of `put` or `update`, `read` one of `list` or `find`. -/
def rosterStep (state : RosterState) : RosterAction → Option RosterState
  | .submit task => some
      { state with queue := state.queue ++ [task], submitted := state.submitted ++ [task] }
  | .begin =>
      match state.running, state.queue with
      | none, task :: rest =>
          some { state.load with
            queue := rest
            running := some (.loading task)
            turnFile := state.file }
      | _, _ => none
  | .readFile =>
      match state.cached with
      | .reading => (Roster.readFile state.file).map fun entries =>
          { state with cached := .loaded entries, first := entries }
      | _ => none
  | .resume =>
      match state.running, state.cached with
      | some (.loading task), .loaded entries => some (state.start task entries)
      | _, _ => none
  | .mkdir =>
      match state.running with
      | some (.writing task entry next .mkdir) =>
          some { state with running := some (.writing task entry next .writeFile) }
      | _ => none
  | .writeFile layout =>
      match state.running with
      | some (.writing task entry next .writeFile) =>
          if ∀ entry ∈ next, Order (layout entry) entry then
            some { state with
              scratch := some (rosterText layout next)
              running := some (.writing task entry next .rename) }
          else none
      | _ => none
  | .rename =>
      match state.running, state.scratch with
      | some (.writing task entry next .rename), some text =>
          some { state with
            file := some text
            scratch := none
            running := some (.writing task entry next .renamed) }
      | _, _ => none
  | .commit =>
      match state.running with
      | some (.writing task entry next .renamed) =>
          some ({ state with cached := .loaded next }.settle task (.resolved (some entry)))
      | _ => none
  | .fail left =>
      match state.running with
      | some (.writing task _ _ stage) => state.failed task left stage
      | _ => none
  | .read call query =>
      if (state.readers call).isNone then
        some { state.load with
          readers := state.readers.put call
            ⟨query, state.cached.entries?, state.settled.length⟩ }
      else none
  | .reply call =>
      match state.readers call, state.cached with
      | some reader, .loaded _ =>
          some { state with
            readers := state.readers.remove call
            replies := ⟨reader.query, reader.query.answer (reader.entries.getD state.first),
              reader.since⟩ :: state.replies }
      | _, _ => none
  | .restart => some (.opened state.file state.scratch)

/-! ## What the state should be -/

/-- The successful tasks applied one at a time, in the order in which they settled. -/
def replay (first : List RosterEntry) (settled : List (Task × Outcome)) : List RosterEntry :=
  settled.foldl
    (fun entries task => if task.2.isResolved then task.1.apply entries else entries) first

/-- The task whose turn it is. -/
def RosterState.current (state : RosterState) : List Task :=
  match state.running with
  | none => []
  | some (.loading task) | some (.writing task _ _ _) => [task]

/-- The file holds the list: it was read from there, or written there. -/
def Holds (file : Option JsString) (entries : List RosterEntry) : Prop :=
  readFile file = some entries ∨
    ∃ layout, (∀ entry ∈ entries, Order (layout entry) entry) ∧
      file = some (rosterText layout entries)

/-- What a write of `next` in place of `entries` has done to the files so far. -/
def RosterState.Reached (state : RosterState) (entries next : List RosterEntry) : Stage → Prop
  | .mkdir | .writeFile => Holds state.file entries
  | .rename => Holds state.file entries ∧
      ∃ layout, (∀ entry ∈ next, Order (layout entry) entry) ∧
        state.scratch = some (rosterText layout next)
  | .renamed => Holds state.file next

/-- What is in memory and on disk. Before the first read nothing has settled, and a task
whose turn it is awaits that read. -/
def RosterState.Shape (state : RosterState) : Prop :=
  match state.cached, state.running with
  | .loaded entries, some (.writing task entry next stage) =>
      entries = replay state.first state.settled ∧ task.written entries = some entry ∧
        next = replace entries entry ∧ state.Reached entries next stage
  | .loaded entries, _ =>
      entries = replay state.first state.settled ∧ Holds state.file entries
  | _, some (.writing ..) => False
  | _, _ => state.settled = [] ∧ state.replies = [] ∧
      (state.readers.All fun _ reader => reader.entries = none ∧ reader.since = 0) ∧
      (state.running.isSome = true → state.cached = .reading)

/-- Every task resolved with the entry that it wrote to the list at its turn. -/
def Explained (first : List RosterEntry) (settled : List (Task × Outcome)) : Prop :=
  ∀ before task written after, settled = before ++ (task, .resolved written) :: after →
    written = task.written (replay first before)

/-- The answer is that of the list as it was when the call was made. -/
def Current (state : RosterState) (reply : Reply) : Prop :=
  reply.since ≤ state.settled.length ∧
    reply.answer = reply.query.answer (replay state.first (state.settled.take reply.since))

def Running.isRenamed : Running → Bool
  | .writing _ _ _ .renamed => true
  | _ => false

structure RosterState.Linear (state : RosterState) : Prop where
  order : state.submitted = state.settled.map Prod.fst ++ state.current ++ state.queue
  shape : state.Shape
  results : Explained state.first state.settled
  readers : state.readers.All fun _ reader =>
    Current state ⟨reader.query, reader.query.answer (reader.entries.getD state.first),
      reader.since⟩
  replies : ∀ reply ∈ state.replies, Current state reply
  turn : ∀ running, state.running = some running → running.isRenamed = false →
    state.file = state.turnFile

end Tapes.Roster
