import Tapes.Roster.PersonRoster

namespace Tapes.Roster

open Tapes.Js Tapes.Machine

/-! The roster is one atomic map, whatever its writes run into. -/

variable {state next : RosterState} {action : RosterAction} {task : Task} {entry : RosterEntry}
  {entries : List RosterEntry} {stage : Stage} {outcome : Outcome}

/-! ## The list of settled tasks -/

theorem replay_settled (first : List RosterEntry) (settled : List (Task × Outcome)) (task : Task)
    (outcome : Outcome) :
    replay first (settled ++ [(task, outcome)]) =
      if outcome.isResolved then task.apply (replay first settled) else replay first settled := by
  simp only [replay, List.foldl_append, List.foldl_cons, List.foldl_nil]

theorem Explained.settle {first : List RosterEntry} {settled : List (Task × Outcome)}
    (explained : Explained first settled)
    (written : ∀ written, outcome = .resolved written →
      written = task.written (replay first settled)) :
    Explained first (settled ++ [(task, outcome)]) := by
  intro before other held after split
  cases List.eq_nil_or_concat after with
  | inl none =>
      rw [none] at split
      obtain ⟨same, last⟩ := List.append_inj' split rfl
      cases last
      rw [← same]
      exact written held rfl
  | inr more =>
      obtain ⟨after, last, rfl⟩ := more
      rw [List.concat_eq_append, ← List.cons_append, ← List.append_assoc] at split
      exact explained before other held after (List.append_inj' split rfl).1

theorem Current.of_settled {reply : Reply} {more : List (Task × Outcome)}
    (current : Current state reply) (first : next.first = state.first)
    (settled : next.settled = state.settled ++ more) : Current next reply := by
  obtain ⟨before, answer⟩ := current
  refine ⟨?_, ?_⟩
  · rw [settled, List.length_append]
    omega
  · rw [first, settled, List.take_append_of_le_length before]
    exact answer

theorem Current.of_same {reply : Reply} (current : Current state reply)
    (first : next.first = state.first) (settled : next.settled = state.settled) :
    Current next reply := by
  have unchanged : next.settled = state.settled ++ [] := by
    rw [settled, List.append_nil]
  exact current.of_settled first unchanged

/-! ## One step -/

/-- The task whose turn it was has settled. -/
theorem RosterState.Linear.settle (linear : state.Linear) (turn : state.current = [task])
    (cached : Cached) (scratch : Option JsString) (outcome : Outcome)
    (shape : ({ state with cached, scratch }.settle task outcome).Shape)
    (written : ∀ written, outcome = .resolved written →
      written = task.written (replay state.first state.settled)) :
    ({ state with cached, scratch }.settle task outcome).Linear := by
  refine ⟨?_, shape, linear.results.settle written, ?_, ?_, ?_⟩
  · have order := linear.order
    rw [turn] at order
    simp [RosterState.settle, RosterState.current, order]
  · exact linear.readers.weaken fun _ _ _ current => current.of_settled rfl rfl
  · exact fun reply member => (linear.replies reply member).of_settled rfl rfl
  · intro running same
    cases same

/-- The task whose turn it is moves on to another stage. -/
theorem RosterState.Linear.advance (linear : state.Linear) (turn : state.current = [task])
    (running : Running) (file scratch : Option JsString)
    (goes : ({ state with file, scratch, running := some running } : RosterState).current = [task])
    (shape : ({ state with file, scratch, running := some running } : RosterState).Shape)
    (keeps : running.isRenamed = false → file = state.turnFile) :
    ({ state with file, scratch, running := some running } : RosterState).Linear := by
  refine ⟨?_, shape, linear.results, ?_, ?_, ?_⟩
  · rw [goes, ← turn]
    exact linear.order
  · exact linear.readers.weaken fun _ _ _ current => current.of_same rfl rfl
  · exact fun reply member => (linear.replies reply member).of_same rfl rfl
  · intro other same
    cases same
    exact keeps

theorem RosterState.Shape.writing (shape : state.Shape)
    {next : List RosterEntry} (running : state.running = some (.writing task entry next stage)) :
    ∃ entries, state.cached = .loaded entries ∧ entries = replay state.first state.settled ∧
      task.written entries = some entry ∧ next = replace entries entry ∧
        state.Reached entries next stage := by
  simp only [RosterState.Shape, running] at shape
  cases cached : state.cached with
  | loaded entries =>
      rw [cached] at shape
      exact ⟨entries, rfl, shape⟩
  | unread | reading =>
      rw [cached] at shape
      exact shape.elim

theorem RosterState.Shape.of_writing {next : List RosterEntry}
    (cached : state.cached = .loaded entries)
    (running : state.running = some (.writing task entry next stage))
    (memory : entries = replay state.first state.settled)
    (written : task.written entries = some entry) (replaced : next = replace entries entry)
    (reached : state.Reached entries next stage) : state.Shape := by
  simp only [RosterState.Shape, cached, running]
  exact ⟨memory, written, replaced, reached⟩

/-- No task is writing. -/
def RosterState.Idle (state : RosterState) : Prop :=
  ∀ task entry next stage, state.running ≠ some (.writing task entry next stage)

theorem RosterState.Shape.of_idle (cached : state.cached = .loaded entries) (idle : state.Idle)
    (memory : entries = replay state.first state.settled) (holds : Holds state.file entries) :
    state.Shape := by
  simp only [RosterState.Idle] at idle
  simp only [RosterState.Shape, cached]
  exact ⟨memory, holds⟩

theorem RosterState.Shape.idle (shape : state.Shape) (cached : state.cached = .loaded entries)
    (idle : state.Idle) :
    entries = replay state.first state.settled ∧ Holds state.file entries := by
  simp only [RosterState.Idle] at idle
  simpa only [RosterState.Shape, cached] using shape

/-- Before the first read is done nothing has settled and nobody has an answer. -/
structure RosterState.Fresh (state : RosterState) : Prop where
  idle : state.Idle
  settled : state.settled = []
  replies : state.replies = []
  readers : state.readers.All fun _ reader => reader.entries = none ∧ reader.since = 0
  waits : state.running.isSome = true → state.cached = .reading

theorem RosterState.idle_of_none (running : state.running = none) : state.Idle := by
  intro task entry next stage same
  rw [running] at same
  cases same

theorem RosterState.idle_of_loading (running : state.running = some (.loading task)) :
    state.Idle := by
  intro other entry next stage same
  rw [running] at same
  cases same

theorem RosterState.Shape.fresh (shape : state.Shape) (unread : state.cached.entries? = none) :
    state.Fresh := by
  unfold RosterState.Shape at shape
  cases cached : state.cached with
  | loaded entries =>
      rw [cached] at unread
      cases unread
  | unread | reading =>
      cases running : state.running with
      | none =>
          rw [cached, running] at shape
          obtain ⟨settled, replies, readers, -⟩ := shape
          refine ⟨RosterState.idle_of_none running, settled, replies, readers, ?_⟩
          intro busy
          rw [running] at busy
          cases busy
      | some turn =>
          cases turn with
          | loading task =>
              rw [cached, running] at shape
              obtain ⟨settled, replies, readers, waits⟩ := shape
              exact ⟨RosterState.idle_of_loading running, settled, replies, readers,
                fun _ => cached.trans (waits rfl)⟩
          | writing =>
              rw [cached, running] at shape
              exact shape.elim

theorem RosterState.Fresh.shape (fresh : state.Fresh) (unread : state.cached.entries? = none) :
    state.Shape := by
  unfold RosterState.Shape
  cases cached : state.cached with
  | loaded entries =>
      rw [cached] at unread
      cases unread
  | unread | reading =>
      have waits := fresh.waits
      rw [cached] at waits
      cases running : state.running with
      | none => exact ⟨fresh.settled, fresh.replies, fresh.readers, fun busy => by cases busy⟩
      | some turn =>
          rw [running] at waits
          cases turn with
          | loading task => exact ⟨fresh.settled, fresh.replies, fresh.readers, waits⟩
          | writing => exact fresh.idle _ _ _ _ running

theorem RosterState.loaded_of_entries? (found : state.cached.entries? = some entries) :
    state.cached = .loaded entries := by
  cases cached : state.cached with
  | loaded others =>
      rw [cached] at found
      rw [Option.some.inj found]
  | unread | reading =>
      rw [cached] at found
      cases found

/-! ## Every step -/

theorem RosterState.load_loaded (cached : state.cached = .loaded entries) :
    state.load.cached = .loaded entries := by
  simp only [RosterState.load, cached]

theorem RosterState.load_reading (unread : state.cached.entries? = none) :
    state.load.cached = .reading := by
  unfold RosterState.load
  cases cached : state.cached with
  | loaded entries =>
      rw [cached] at unread
      cases unread
  | unread => rfl
  | reading => exact cached

theorem RosterState.load_eq (state : RosterState) :
    state.load = { state with cached := state.load.cached } := by
  unfold RosterState.load
  split <;> rfl

theorem linear_submit (linear : state.Linear) (task : Task) :
    ({ state with
      queue := state.queue ++ [task]
      submitted := state.submitted ++ [task] } : RosterState).Linear := by
  refine ⟨?_, linear.shape, linear.results, ?_, ?_, linear.turn⟩
  · have order := linear.order
    simp only [RosterState.current] at order ⊢
    rw [order]
    simp only [List.append_assoc]
  · exact linear.readers.weaken fun _ _ _ current => current.of_same rfl rfl
  · exact fun reply member => (linear.replies reply member).of_same rfl rfl

theorem linear_begin (linear : state.Linear) {rest : List Task} (running : state.running = none)
    (queue : state.queue = task :: rest) :
    ({ state.load with
      queue := rest
      running := some (.loading task)
      turnFile := state.file } : RosterState).Linear := by
  rw [state.load_eq]
  refine ⟨?_, ?_, linear.results, ?_, ?_, fun _ _ _ => rfl⟩
  · have order := linear.order
    simp only [RosterState.current, running, queue] at order
    simpa [RosterState.current] using order
  · cases unread : state.cached.entries? with
    | some entries =>
        have cached := RosterState.loaded_of_entries? unread
        obtain ⟨memory, holds⟩ := linear.shape.idle cached (RosterState.idle_of_none running)
        exact RosterState.Shape.of_idle (RosterState.load_loaded cached)
          (RosterState.idle_of_loading rfl) memory holds
    | none =>
        have fresh := linear.shape.fresh unread
        have reading := RosterState.load_reading unread
        refine RosterState.Fresh.shape ⟨RosterState.idle_of_loading rfl, fresh.settled,
          fresh.replies, fresh.readers, fun _ => reading⟩ ?_
        rw [reading]
        rfl
  · exact linear.readers.weaken fun _ _ _ current => current.of_same rfl rfl
  · exact fun reply member => (linear.replies reply member).of_same rfl rfl

theorem linear_readFile (linear : state.Linear) (reading : state.cached = .reading)
    (read : readFile state.file = some entries) :
    ({ state with cached := .loaded entries, first := entries } : RosterState).Linear := by
  have unread : state.cached.entries? = none := by
    rw [reading]
    rfl
  have fresh := linear.shape.fresh unread
  refine ⟨linear.order, ?_, ?_, ?_, ?_, linear.turn⟩
  · have memory : entries = replay entries state.settled := by rw [fresh.settled]; rfl
    exact RosterState.Shape.of_idle rfl fresh.idle memory (.inl read)
  · intro before task written after split
    rw [fresh.settled] at split
    exact absurd split.symm (by simp)
  · intro call reader found
    obtain ⟨none, since⟩ := fresh.readers call reader found
    refine ⟨?_, ?_⟩
    · rw [since]
      exact Nat.zero_le _
    · rw [none, since]
      rfl
  · intro reply member
    rw [fresh.replies] at member
    cases member

theorem linear_resume (linear : state.Linear) (running : state.running = some (.loading task))
    (cached : state.cached = .loaded entries) : (state.start task entries).Linear := by
  have turn : state.current = [task] := by rw [RosterState.current, running]
  obtain ⟨memory, holds⟩ := linear.shape.idle cached (RosterState.idle_of_loading running)
  cases found : task.written entries with
  | none =>
      have stays : task.apply entries = entries := by rw [Task.apply, found]; rfl
      have explained : ∀ written, Outcome.resolved none = .resolved written →
          written = task.written (replay state.first state.settled) := by
        intro written same
        cases same
        rw [← memory, found]
      have settled := linear.settle turn state.cached state.scratch
        (.resolved none) (RosterState.Shape.of_idle cached (RosterState.idle_of_none rfl) (by
          rw [RosterState.settle, replay_settled, ← memory]
          exact stays.symm) holds) explained
      simpa only [RosterState.start, found] using settled
  | some entry =>
      have advanced := linear.advance turn
        (.writing task entry (replace entries entry) .mkdir) state.file state.scratch rfl
        (RosterState.Shape.of_writing cached rfl memory found rfl holds)
        fun _ => linear.turn _ running rfl
      simpa only [RosterState.start, found] using advanced

theorem linear_stage (linear : state.Linear) {next : List RosterEntry} {file scratch : Option JsString}
    {later : Stage} (running : state.running = some (.writing task entry next stage))
    (reaches : ∀ entries, state.Reached entries next stage →
      ({ state with file, scratch } : RosterState).Reached entries next later)
    (keeps : later = .renamed ∨ stage ≠ .renamed ∧ file = state.file) :
    ({ state with file, scratch, running := some (.writing task entry next later) } :
      RosterState).Linear := by
  obtain ⟨entries, cached, memory, written, replaced, reached⟩ := linear.shape.writing running
  have turn : state.current = [task] := by rw [RosterState.current, running]
  have further := reaches entries reached
  refine linear.advance turn (.writing task entry next later) file scratch rfl
    (RosterState.Shape.of_writing cached rfl memory written replaced ?_) ?_
  · cases later <;> exact further
  · intro early
    rcases keeps with renamed | ⟨before, same⟩
    · rw [renamed] at early
      cases early
    · rw [same]
      apply linear.turn _ running
      cases stage with
      | renamed => exact absurd rfl before
      | _ => rfl

theorem linear_commit (linear : state.Linear) {next : List RosterEntry}
    (running : state.running = some (.writing task entry next .renamed)) :
    ({ state with cached := .loaded next }.settle task (.resolved (some entry))).Linear := by
  obtain ⟨entries, cached, memory, written, replaced, holds⟩ := linear.shape.writing running
  have turn : state.current = [task] := by rw [RosterState.current, running]
  apply linear.settle turn (.loaded next) state.scratch
  · apply RosterState.Shape.of_idle rfl (RosterState.idle_of_none rfl)
    · rw [RosterState.settle, replay_settled, ← memory, replaced]
      simp only [Outcome.isResolved, if_true, Task.apply, written, Option.elim]
    · exact holds
  · intro held same
    cases same
    rw [← memory, written]

/-- A write that fails leaves the memory and the file as they were. -/
theorem linear_fail (linear : state.Linear) {next : List RosterEntry} {scratch : Option JsString}
    (running : state.running = some (.writing task entry next stage)) (early : stage ≠ .renamed) :
    ({ state with scratch }.settle task .rejected).Linear := by
  obtain ⟨entries, cached, memory, written, replaced, reached⟩ := linear.shape.writing running
  have turn : state.current = [task] := by rw [RosterState.current, running]
  have holds : Holds state.file entries := by
    cases stage with
    | mkdir | writeFile => exact reached
    | rename => exact reached.1
    | renamed => exact absurd rfl early
  apply linear.settle turn state.cached scratch
  · apply RosterState.Shape.of_idle
    · exact cached
    · exact RosterState.idle_of_none rfl
    · rw [RosterState.settle, replay_settled, ← memory]
      rfl
    · exact holds
  · intro held same
    cases same

theorem RosterState.Shape.entries? (shape : state.Shape)
    (cached : state.cached = .loaded entries) :
    entries = replay state.first state.settled := by
  cases running : state.running with
  | none => exact (shape.idle cached (RosterState.idle_of_none running)).1
  | some turn =>
      cases turn with
      | loading task => exact (shape.idle cached (RosterState.idle_of_loading running)).1
      | writing task entry next stage =>
          obtain ⟨held, same, memory, -⟩ := shape.writing running
          cases cached.symm.trans same
          exact memory

/-- With the list in memory, who waits for an answer does not matter. -/
theorem RosterState.Shape.of_readers (shape : state.Shape) (cached : state.cached = .loaded entries)
    (readers : Table Vouching.CallId Reader) (replies : List Reply) :
    ({ state with readers, replies } : RosterState).Shape := by
  cases running : state.running with
  | none =>
      have idle := RosterState.idle_of_none running
      obtain ⟨memory, holds⟩ := shape.idle cached idle
      exact RosterState.Shape.of_idle cached (RosterState.idle_of_none rfl) memory holds
  | some turn =>
      cases turn with
      | loading task =>
          obtain ⟨memory, holds⟩ := shape.idle cached (RosterState.idle_of_loading running)
          exact RosterState.Shape.of_idle cached (RosterState.idle_of_loading rfl) memory holds
      | writing task entry next stage =>
          obtain ⟨held, loaded, memory, written, replaced, reached⟩ := shape.writing running
          apply RosterState.Shape.of_writing
          · exact loaded
          · rfl
          · exact memory
          · exact written
          · exact replaced
          · cases stage <;> exact reached

theorem linear_read (linear : state.Linear) (call : Vouching.CallId) (query : Query) :
    ({ state.load with
      readers := state.readers.put call ⟨query, state.cached.entries?, state.settled.length⟩ } :
        RosterState).Linear := by
  have current : Current state ⟨query, query.answer (state.cached.entries?.getD state.first),
      state.settled.length⟩ := by
    refine ⟨le_refl _, ?_⟩
    dsimp only
    rw [List.take_length]
    cases cached : state.cached with
    | loaded entries =>
        rw [← linear.shape.entries? cached]
        rfl
    | unread | reading =>
        have unread : state.cached.entries? = none := by
          rw [cached]
          rfl
        rw [(linear.shape.fresh unread).settled]
        rfl
  have readers : (state.readers.put call
      ⟨query, state.cached.entries?, state.settled.length⟩).All fun _ reader => Current state
        ⟨reader.query, reader.query.answer (reader.entries.getD state.first), reader.since⟩ :=
    linear.readers.put current
  rw [state.load_eq]
  refine ⟨linear.order, ?_, linear.results, ?_, ?_, linear.turn⟩
  · cases unread : state.cached.entries? with
    | some entries =>
        have cached := RosterState.loaded_of_entries? unread
        have same : state.load.cached = state.cached :=
          (RosterState.load_loaded cached).trans cached.symm
        rw [same]
        exact linear.shape.of_readers cached _ state.replies
    | none =>
        have fresh := linear.shape.fresh unread
        have reading := RosterState.load_reading unread
        refine RosterState.Fresh.shape ⟨?_, fresh.settled, fresh.replies, ?_, fun _ => reading⟩ ?_
        · exact fun task entry next stage => fresh.idle task entry next stage
        · refine fresh.readers.put ⟨rfl, ?_⟩
          rw [fresh.settled]
          rfl
        · rw [reading]
          rfl
  · exact readers.weaken fun _ _ _ held => held.of_same rfl rfl
  · exact fun reply member => (linear.replies reply member).of_same rfl rfl

theorem linear_reply (linear : state.Linear) {call : Vouching.CallId} {reader : Reader}
    (found : state.readers call = some reader) (cached : state.cached = .loaded entries) :
    ({ state with
      readers := state.readers.remove call
      replies := ⟨reader.query, reader.query.answer (reader.entries.getD state.first),
        reader.since⟩ :: state.replies } : RosterState).Linear := by
  have current := linear.readers call reader found
  refine ⟨linear.order, linear.shape.of_readers cached _ _, linear.results, ?_, ?_, linear.turn⟩
  · exact Table.All.remove (linear.readers.weaken fun _ _ _ held => held.of_same rfl rfl)
  · intro reply member
    cases List.mem_cons.mp member with
    | inl same =>
        rw [same]
        exact current.of_same rfl rfl
    | inr old => exact (linear.replies reply old).of_same rfl rfl

theorem linear_opened (file scratch : Option JsString) :
    (RosterState.opened file scratch).Linear := by
  refine ⟨rfl, ?_, ?_, Table.all_empty, by simp [RosterState.opened], fun _ _ _ => rfl⟩
  · exact RosterState.Fresh.shape ⟨RosterState.idle_of_none rfl, rfl, rfl, Table.all_empty,
      fun busy => by cases busy⟩ rfl
  · intro before task written after split
    exact absurd split.symm (by simp [RosterState.opened])

theorem linear_step (linear : state.Linear) (taken : rosterStep state action = some next) :
    next.Linear := by
  cases action with
  | submit task =>
      cases taken
      exact linear_submit linear task
  | begin =>
      simp only [rosterStep] at taken
      split at taken
      · rename_i task rest running queue
        cases taken
        exact linear_begin linear running queue
      · cases taken
  | readFile =>
      simp only [rosterStep] at taken
      split at taken
      · rename_i reading
        obtain ⟨entries, read, rfl⟩ := Option.map_eq_some_iff.mp taken
        exact linear_readFile linear reading read
      · cases taken
  | resume =>
      simp only [rosterStep] at taken
      split at taken
      · rename_i task entries running cached
        cases taken
        exact linear_resume linear running cached
      · cases taken
  | mkdir =>
      simp only [rosterStep] at taken
      split at taken
      · rename_i task entry after running
        cases taken
        exact linear_stage linear running (fun _ holds => holds) (.inr ⟨by decide, rfl⟩)
      · cases taken
  | writeFile layout =>
      simp only [rosterStep] at taken
      split at taken
      · rename_i task entry after running
        split at taken
        · rename_i ordered
          cases taken
          exact linear_stage linear running (fun _ holds => ⟨holds, layout, ordered, rfl⟩)
            (.inr ⟨by decide, rfl⟩)
        · cases taken
      · cases taken
  | rename =>
      simp only [rosterStep] at taken
      split at taken
      · rename_i task entry after text running scratch
        cases taken
        refine linear_stage linear running (fun entries reached => ?_) (.inl rfl)
        obtain ⟨-, layout, ordered, same⟩ := reached
        exact .inr ⟨layout, ordered, scratch.symm.trans same⟩
      · cases taken
  | commit =>
      simp only [rosterStep] at taken
      split at taken
      · rename_i task entry after running
        cases taken
        exact linear_commit linear running
      · cases taken
  | fail left =>
      simp only [rosterStep] at taken
      split at taken
      · rename_i task entry after stage running
        cases stage with
        | mkdir | writeFile | rename =>
            cases taken
            exact linear_fail linear running (by decide)
        | renamed => cases taken
      · cases taken
  | read call query =>
      simp only [rosterStep] at taken
      split at taken
      · cases taken
        exact linear_read linear call query
      · cases taken
  | reply call =>
      simp only [rosterStep] at taken
      split at taken
      · rename_i reader entries found cached
        cases taken
        exact linear_reply linear found cached
      · cases taken
  | restart =>
      cases taken
      exact linear_opened state.file state.scratch

theorem linear_of_reached {file scratch : Option JsString} {guard : RosterState → RosterAction → Prop}
    (reached : Reaches rosterStep guard (.opened file scratch) state) : state.Linear :=
  reached.invariant RosterState.Linear (linear_opened file scratch)
    fun _ linear _ taken => linear_step linear taken

end Tapes.Roster
