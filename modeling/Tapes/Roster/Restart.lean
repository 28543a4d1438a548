import Tapes.Provenance.Codec
import Tapes.Provenance.Shown
import Tapes.Roster.DurableMap

namespace Tapes.Roster

open Tapes.Js Tapes.Machine Tapes.Provenance

/-! What the host's own tasks write comes back after a restart, and no failed write keeps the
next ones from being made. -/

/-! ## The host's own tasks -/

/-- The iterations of every hash that `hashPin` makes for the host. -/
def defaultIterations : Nat := 100000

/-- The hash that the change saves. -/
def Change.pinHash? : Change → Option PinHash
  | .rename _ pin => pin.join
  | .savePin hash => hash
  | _ => none

/-- A join's `put`, with the certificate that its check passed, or an `update` of the join, the
vouches, the PIN, the revocations or the passkey records. -/
inductive HostTask (platform : Platform) : Task → Prop
  | join {signed : Signed JsValue} {certificate : Signed DeviceCertificate}
      (personKey name address joinedAt : JsString) (pin : Option PinHash)
      (parsed : Parsed signed.payload)
      (checked : checkDeviceCertificate platform signed = .ok certificate)
      (hashed : ∀ hash, pin = some hash → hash.iterations = defaultIterations) :
      HostTask platform (.put (joinEntry personKey name ⟨address, signed⟩ pin joinedAt))
  | change (personKey : JsString) (change : Change)
      (hashed : ∀ hash, change.pinHash? = some hash → hash.iterations = defaultIterations) :
      HostTask platform (.update personKey change.apply)

/-- Every task comes from the host's own code. -/
def HostOnly (platform : Platform) (_ : RosterState) : RosterAction → Prop
  | .submit task => HostTask platform task
  | _ => True

theorem isData_of_verifyStatement {platform : Platform} {signed : Signed JsValue} {key : JsString}
    (parsed : Parsed signed.payload) (valid : verifyStatement platform signed key = true) :
    IsData signed.payload := by
  unfold verifyStatement at valid
  cases text : canonicalJson signed.payload with
  | none => simp [text] at valid
  | some text' => exact isData_of_canonicalJson parsed text

section

variable {platform : Platform} {state next : RosterState} {action : RosterAction} {task : Task}
  {entry written : RosterEntry} {entries : List RosterEntry}

theorem Change.apply_writable {change : Change} (writable : Writable entry)
    (hashed : ∀ hash, change.pinHash? = some hash → hash.iterations = defaultIterations)
    (changed : change.apply entry = some written) : Writable written := by
  obtain ⟨iterations, failures, certificate⟩ := writable
  have saved (pin : Option PinHash) (from_change : pin = change.pinHash?) :
      ∀ hash, pin = some hash → hash.iterations < 2 ^ 53 := by
    intro hash same
    rw [hashed hash (from_change ▸ same)]
    decide
  cases change with
  | rename name pin =>
      cases pin with
      | none =>
          cases changed
          exact ⟨iterations, failures, certificate⟩
      | some hash =>
          cases changed
          exact ⟨saved hash rfl, by simp, certificate⟩
  | countGuess =>
      simp only [Change.apply, Roster.countGuess] at changed
      split at changed
      · rename_i unlocked
        cases changed
        refine ⟨iterations, ?_, certificate⟩
        intro count same
        cases same
        simp only [Bool.and_eq_true, Bool.not_eq_true'] at unlocked
        have below : ¬ maxPinFailures ≤ failuresOf entry := of_decide_eq_false unlocked.2
        have limit : maxPinFailures = 5 := rfl
        omega
      · cases changed
  | clearFailures =>
      cases changed
      exact ⟨iterations, by simp, certificate⟩
  | savePin hash =>
      cases changed
      exact ⟨saved hash rfl, by simp, certificate⟩
  | unlock =>
      simp only [Change.apply, Roster.unlock] at changed
      split at changed
      · cases changed
      · cases changed
        exact ⟨iterations, by simp, certificate⟩
  | addVouch record =>
      cases changed
      exact ⟨iterations, failures, certificate⟩
  | markRevoked address revokedAt revocation =>
      cases changed
      exact ⟨iterations, failures, certificate⟩
  | keepRecord stored =>
      simp only [Change.apply, Roster.keepRecord] at changed
      split at changed
      · cases changed
      · cases changed
        exact ⟨iterations, failures, certificate⟩

theorem HostTask.writable (hosted : HostTask platform task)
    (all : ∀ entry ∈ entries, Writable entry) (wrote : task.written entries = some written) :
    Writable written := by
  cases hosted with
  | join personKey name address joinedAt pin parsed checked hashed =>
      cases wrote
      obtain ⟨-, -, valid⟩ := checkShapeAndSignature_eq_ok_iff.mp checked
      refine ⟨?_, ?_, isData_of_verifyStatement parsed valid⟩
      · intro hash same
        rw [hashed hash same]
        decide
      · intro count same
        cases same
  | change personKey change hashed =>
      obtain ⟨entry, found, changed⟩ := Option.bind_eq_some_iff.mp wrote
      exact Change.apply_writable (all entry (List.mem_of_find?_eq_some found)) hashed changed

theorem HostTask.keepsToPerson (hosted : HostTask platform task) : task.KeepsToPerson := by
  cases hosted with
  | join => trivial
  | change personKey change hashed => exact keepsToPerson_change personKey change

theorem writable_replace (all : ∀ entry ∈ entries, Writable entry) (new : Writable written) :
    ∀ entry ∈ replace entries written, Writable entry := by
  intro entry member
  cases List.mem_append.mp member with
  | inl old => exact all entry (List.mem_filter.mp old).1
  | inr last => rwa [List.mem_singleton.mp last]

theorem Writable.reread (writable : Writable entry) : Writable entry.reread :=
  ⟨writable.iterations, writable.failures, isData_reread writable.certificate⟩

/-! ## The file -/

/-- There is no file, or the host wrote it. -/
def Sound (file : Option JsString) : Prop :=
  file = none ∨ ∃ layout people, (∀ entry ∈ people, Order (layout entry) entry) ∧
    (∀ entry ∈ people, Writable entry) ∧ file = some (rosterText layout people)

theorem Sound.read {file : Option JsString} (sound : Sound file) :
    ∃ people, readFile file = some people ∧ ∀ entry ∈ people, Writable entry := by
  rcases sound with rfl | ⟨layout, people, ordered, writable, rfl⟩
  · exact ⟨[], rfl, by simp⟩
  · refine ⟨_, (readFile_some _).trans (readRoster_rosterText ordered writable), ?_⟩
    intro entry member
    obtain ⟨old, inside, rfl⟩ := List.mem_map.mp member
    exact (writable old inside).reread

structure RosterState.Hosted (platform : Platform) (state : RosterState) : Prop where
  current : ∀ task ∈ state.current, HostTask platform task
  queue : ∀ task ∈ state.queue, HostTask platform task
  memory : ∀ entries, state.cached = .loaded entries → ∀ entry ∈ entries, Writable entry
  next : ∀ task entry next stage, state.running = some (.writing task entry next stage) →
    ∀ entry ∈ next, Writable entry
  file : Sound state.file

theorem hosted_load (hosted : state.Hosted platform) (held : state.load.cached = .loaded entries) :
    ∀ entry ∈ entries, Writable entry := by
  apply hosted.memory
  cases unread : state.cached.entries? with
  | some others =>
      have cached := RosterState.loaded_of_entries? unread
      rw [cached, ← held, RosterState.load_loaded cached]
  | none =>
      rw [RosterState.load_reading unread] at held
      cases held

theorem hosted_start (hosted : state.Hosted platform) (cached : state.cached = .loaded entries)
    (running : state.running = some (.loading task)) :
    (state.start task entries).Hosted platform := by
  have turn : HostTask platform task := by
    apply hosted.current
    simp [RosterState.current, running]
  have memory := hosted.memory entries cached
  unfold RosterState.start
  cases found : task.written entries with
  | none =>
      refine ⟨by simp [RosterState.settle, RosterState.current], hosted.queue, hosted.memory, ?_,
        hosted.file⟩
      intro task entry next stage same
      cases same
  | some entry =>
      refine ⟨?_, hosted.queue, hosted.memory, ?_, hosted.file⟩
      · intro other member
        rwa [List.mem_singleton.mp member]
      · intro other entry' next stage same
        cases same
        exact writable_replace memory (turn.writable memory found)

theorem hosted_step (linear : state.Linear) (hosted : state.Hosted platform)
    (met : HostOnly platform state action) (taken : rosterStep state action = some next) :
    next.Hosted platform := by
  obtain ⟨current, queue, memory, ahead, file⟩ := hosted
  have settled : ∀ task outcome, (state.settle task outcome).Hosted platform := by
    intro task outcome
    refine ⟨by simp [RosterState.settle, RosterState.current], queue, memory, ?_, file⟩
    intro task entry next stage same
    cases same
  cases action with
  | submit task =>
      cases taken
      refine ⟨current, ?_, memory, ahead, file⟩
      intro other member
      cases List.mem_append.mp member with
      | inl old => exact queue other old
      | inr last => rwa [List.mem_singleton.mp last]
  | begin =>
      simp only [rosterStep] at taken
      split at taken
      · rename_i task rest running waiting
        cases taken
        have held := @hosted_load platform state
        rw [state.load_eq]
        refine ⟨?_, ?_, fun entries => held ⟨current, queue, memory, ahead, file⟩, ?_, file⟩
        · intro other member
          rw [List.mem_singleton.mp member]
          exact queue task (waiting ▸ List.mem_cons_self)
        · intro other member
          exact queue other (waiting ▸ List.mem_cons_of_mem task member)
        · intro task entry next stage same
          cases same
      · cases taken
  | readFile =>
      simp only [rosterStep] at taken
      split at taken
      · obtain ⟨entries, read, rfl⟩ := Option.map_eq_some_iff.mp taken
        refine ⟨current, queue, ?_, ahead, file⟩
        intro people same
        cases same
        obtain ⟨people, found, writable⟩ := file.read
        cases read.symm.trans found
        exact writable
      · cases taken
  | resume =>
      simp only [rosterStep] at taken
      split at taken
      · rename_i task entries running cached
        cases taken
        exact hosted_start ⟨current, queue, memory, ahead, file⟩ cached running
      · cases taken
  | mkdir =>
      simp only [rosterStep] at taken
      split at taken
      · rename_i task entry after running
        cases taken
        refine ⟨?_, queue, memory, ?_, file⟩
        · simpa [RosterState.current, running] using current
        · intro other entry' next stage same
          cases same
          exact ahead _ _ _ _ running
      · cases taken
  | writeFile layout =>
      simp only [rosterStep] at taken
      split at taken
      · rename_i task entry after running
        split at taken
        · cases taken
          refine ⟨?_, queue, memory, ?_, file⟩
          · simpa [RosterState.current, running] using current
          · intro other entry' next stage same
            cases same
            exact ahead _ _ _ _ running
        · cases taken
      · cases taken
  | rename =>
      simp only [rosterStep] at taken
      split at taken
      · rename_i task entry after text running scratch
        cases taken
        obtain ⟨entries, -, -, -, -, -, layout, ordered, same⟩ := linear.shape.writing running
        have text_eq : text = rosterText layout after := by
          rw [scratch] at same
          exact Option.some.inj same
        have writable := ahead _ _ _ _ running
        refine ⟨?_, queue, memory, ?_, .inr ⟨layout, after, ordered, writable, ?_⟩⟩
        · simpa [RosterState.current, running] using current
        · intro other entry' next stage equal
          cases equal
          exact writable
        · rw [text_eq]
      · cases taken
  | commit =>
      simp only [rosterStep] at taken
      split at taken
      · rename_i task entry after running
        cases taken
        refine ⟨by simp [RosterState.settle, RosterState.current], queue, ?_, ?_, file⟩
        · intro entries same
          cases same
          exact ahead _ _ _ _ running
        · intro task entry next stage same
          cases same
      · cases taken
  | fail left =>
      simp only [rosterStep] at taken
      split at taken
      · rename_i task entry after stage running
        cases stage with
        | mkdir | rename =>
            cases taken
            exact settled task .rejected
        | writeFile =>
            cases taken
            obtain ⟨current, queue, memory, ahead, file⟩ := settled task .rejected
            exact ⟨current, queue, memory, ahead, file⟩
        | renamed => cases taken
      · cases taken
  | read call query =>
      simp only [rosterStep] at taken
      split at taken
      · cases taken
        have held := @hosted_load platform state
        rw [state.load_eq]
        exact ⟨current, queue, fun entries => held ⟨current, queue, memory, ahead, file⟩, ahead,
          file⟩
      · cases taken
  | reply call =>
      simp only [rosterStep] at taken
      split at taken
      · cases taken
        exact ⟨current, queue, memory, ahead, file⟩
      · cases taken
  | restart =>
      cases taken
      refine ⟨by simp [RosterState.opened, RosterState.current], by simp [RosterState.opened], ?_,
        ?_, file⟩
      · intro entries same
        cases same
      · intro task entry next stage same
        cases same

theorem hosted_of_reached (reached : Reaches rosterStep (HostOnly platform) (.opened none none)
    state) : state.Hosted platform := by
  apply reached.invariant (RosterState.Hosted platform)
  · refine ⟨by simp [RosterState.opened, RosterState.current], by simp [RosterState.opened], ?_,
      ?_, .inl rfl⟩
    · intro entries same
      cases same
    · intro task entry next stage same
      cases same
  · intro state next action before hosted met taken
    exact hosted_step (linear_of_reached before) hosted met taken

/-! ## Restarts -/

/-- The certificate's payload says the same, and all else is equal. -/
structure SameEntry (entry again : RosterEntry) : Prop where
  payload : Same again.firstCertificate.signed.payload entry.firstCertificate.signed.payload
  others : again = { entry with firstCertificate :=
    ⟨entry.firstCertificate.address, ⟨again.firstCertificate.signed.payload,
      entry.firstCertificate.signed.signature⟩⟩ }

/-- The list that was written last: after a rename, the one that is about to be in memory. -/
def RosterState.saved (state : RosterState) : Option (List RosterEntry) :=
  match state.running with
  | some (.writing _ _ next .renamed) => some next
  | _ => state.cached.entries?

/-- Reading the file anew gives the entries that were written. -/
def RosterState.Durable (state : RosterState) : Prop :=
  ∃ read, readFile state.file = some read ∧
    ∀ entries, state.saved = some entries → List.Forall₂ SameEntry entries read

theorem same_refl {value : JsValue} (data : IsData value) : Same value value :=
  (same_normal data).symm.trans (same_normal data)

theorem sameEntry_reread (writable : Writable entry) : SameEntry entry entry.reread :=
  ⟨same_reread writable.certificate, rfl⟩

/-- A file that holds the list reads back as the list. -/
theorem Holds.read {file : Option JsString} (holds : Holds file entries)
    (writable : ∀ entry ∈ entries, Writable entry) :
    ∃ read, readFile file = some read ∧ List.Forall₂ SameEntry entries read := by
  rcases holds with read | ⟨layout, ordered, rfl⟩
  · refine ⟨entries, read, List.forall₂_same.mpr fun entry member => ?_⟩
    exact ⟨same_refl (writable entry member).certificate, rfl⟩
  · refine ⟨_, (readFile_some _).trans (readRoster_rosterText ordered writable), ?_⟩
    rw [List.forall₂_map_right_iff]
    exact List.forall₂_same.mpr fun entry member => sameEntry_reread (writable entry member)

theorem durable_of_hosted (linear : state.Linear) (hosted : state.Hosted platform) :
    state.Durable := by
  obtain ⟨people, found, -⟩ := hosted.file.read
  have unread (missing : state.saved = none) : state.Durable := by
    refine ⟨people, found, ?_⟩
    intro entries same
    rw [missing] at same
    cases same
  cases saved : state.saved with
  | none => exact unread saved
  | some entries =>
      have holds : Holds state.file entries ∧ ∀ entry ∈ entries, Writable entry := by
        by_cases idle : state.Idle
        · have cached : state.cached.entries? = some entries := by
            unfold RosterState.saved at saved
            split at saved
            · rename_i running
              exact absurd running (idle _ _ _ _)
            · exact saved
          have loaded := RosterState.loaded_of_entries? cached
          exact ⟨(linear.shape.idle loaded idle).2, hosted.memory entries loaded⟩
        · simp only [RosterState.Idle, not_forall, not_not] at idle
          obtain ⟨task, entry, next, stage, running⟩ := idle
          obtain ⟨held, cached, -, -, -, reached⟩ := linear.shape.writing running
          have memory := hosted.memory held cached
          simp only [RosterState.saved, running] at saved
          cases stage with
          | renamed =>
              cases saved
              exact ⟨reached, hosted.next _ _ _ _ running⟩
          | mkdir | writeFile =>
              rw [cached] at saved
              cases saved
              exact ⟨reached, memory⟩
          | rename =>
              rw [cached] at saved
              cases saved
              exact ⟨reached.1, memory⟩
      obtain ⟨read, again, same⟩ := holds.1.read holds.2
      refine ⟨read, again, ?_⟩
      intro others equal
      cases saved.symm.trans equal
      exact same

/-! ## Failed writes -/

/-- A write that fails leaves the memory as it was, the file as it was when the write's turn
began, and the queue to go on. -/
def RosterState.FailsAlone (state : RosterState) : Prop :=
  ∀ left next, rosterStep state (.fail left) = some next →
    next.cached = state.cached ∧ next.file = state.file ∧ next.file = state.turnFile ∧
      next.queue = state.queue ∧ next.running = none

theorem failsAlone (linear : state.Linear) : state.FailsAlone := by
  intro left next taken
  simp only [rosterStep] at taken
  split at taken
  · rename_i task entry after stage running
    cases stage with
    | mkdir | writeFile | rename =>
        cases taken
        exact ⟨rfl, rfl, linear.turn _ running rfl, rfl, rfl⟩
    | renamed => cases taken
  · cases taken

/-- Every file operation succeeds, and no more tasks come. -/
def Succeeds (_ : RosterState) : RosterAction → Prop
  | .fail _ | .restart | .submit _ => False
  | _ => True

/-- The tasks that have not settled do, all with success and in their order. -/
def RosterState.Drains (state : RosterState) : Prop :=
  ∃ final more, Reaches rosterStep Succeeds state final ∧
    final.current = [] ∧ final.queue = [] ∧ final.settled = state.settled ++ more ∧
      more.map Prod.fst = state.current ++ state.queue ∧
        ∀ task ∈ more, task.2.isResolved = true

/-- The task whose turn it is has settled with success, and the next may begin. -/
structure TurnOver (state : RosterState) (task : Task) (final : RosterState) : Prop where
  reached : Reaches rosterStep Succeeds state final
  running : final.running = none
  queue : final.queue = state.queue
  loaded : ∃ entries, final.cached = .loaded entries
  settled : ∃ written, final.settled = state.settled ++ [(task, .resolved written)]

theorem TurnOver.after {middle final : RosterState} (turned : TurnOver middle task final)
    (taken : rosterStep state action = some middle) (met : Succeeds state action)
    (queue : middle.queue = state.queue) (settled : middle.settled = state.settled) :
    TurnOver state task final :=
  ⟨(Reaches.refl.tail met taken).trans turned.reached, turned.running, turned.queue.trans queue,
    turned.loaded, settled ▸ turned.settled⟩

theorem order_all (entry : RosterEntry) : Order Field.all entry :=
  ⟨by decide, fun field _ _ => field.mem_all⟩

theorem turnOver_renamed {next : List RosterEntry}
    (running : state.running = some (.writing task entry next .renamed)) :
    ∃ final, TurnOver state task final := by
  have taken : rosterStep state .commit =
      some ({ state with cached := .loaded next }.settle task (.resolved (some entry))) := by
    simp only [rosterStep, running]
  have met : Succeeds state .commit := trivial
  exact ⟨_, Reaches.refl.tail met taken, rfl, rfl, ⟨next, rfl⟩, ⟨some entry, rfl⟩⟩

theorem turnOver_rename (linear : state.Linear) {next : List RosterEntry}
    (running : state.running = some (.writing task entry next .rename)) :
    ∃ final, TurnOver state task final := by
  obtain ⟨entries, -, -, -, -, -, layout, -, scratch⟩ := linear.shape.writing running
  have taken : rosterStep state .rename = some { state with
      file := some (rosterText layout next)
      scratch := none
      running := some (.writing task entry next .renamed) } := by
    simp only [rosterStep, running, scratch]
  obtain ⟨final, turned⟩ := @turnOver_renamed { state with
      file := some (rosterText layout next)
      scratch := none
      running := some (.writing task entry next .renamed) } task entry next rfl
  exact ⟨final, turned.after taken trivial rfl rfl⟩

theorem turnOver_writeFile (linear : state.Linear) {next : List RosterEntry}
    (running : state.running = some (.writing task entry next .writeFile)) :
    ∃ final, TurnOver state task final := by
  have ordered : ∀ entry ∈ next, Order ((fun _ => Field.all) entry) entry :=
    fun entry _ => order_all entry
  have taken : rosterStep state (.writeFile fun _ => Field.all) = some { state with
      scratch := some (rosterText (fun _ => Field.all) next)
      running := some (.writing task entry next .rename) } := by
    simp only [rosterStep, running]
    exact if_pos ordered
  obtain ⟨final, turned⟩ := turnOver_rename (linear_step linear taken) rfl
  exact ⟨final, turned.after taken trivial rfl rfl⟩

theorem turnOver_mkdir (linear : state.Linear) {next : List RosterEntry}
    (running : state.running = some (.writing task entry next .mkdir)) :
    ∃ final, TurnOver state task final := by
  have taken : rosterStep state .mkdir = some { state with
      running := some (.writing task entry next .writeFile) } := by
    simp only [rosterStep, running]
  obtain ⟨final, turned⟩ := turnOver_writeFile (linear_step linear taken) rfl
  exact ⟨final, turned.after taken trivial rfl rfl⟩

theorem turnOver_loaded (linear : state.Linear) (running : state.running = some (.loading task))
    (cached : state.cached = .loaded entries) : ∃ final, TurnOver state task final := by
  have taken : rosterStep state .resume = some (state.start task entries) := by
    simp only [rosterStep, running, cached]
  cases found : task.written entries with
  | none =>
      have nothing : state.start task entries = state.settle task (.resolved none) := by
        simp only [RosterState.start, found]
      rw [nothing] at taken
      have met : Succeeds state .resume := trivial
      exact ⟨_, Reaches.refl.tail met taken, rfl, rfl, ⟨entries, cached⟩, ⟨none, rfl⟩⟩
  | some entry =>
      have begins : state.start task entries = { state with
          running := some (.writing task entry (replace entries entry) .mkdir) } := by
        simp only [RosterState.start, found]
      rw [begins] at taken
      obtain ⟨final, turned⟩ := turnOver_mkdir (linear_step linear taken) rfl
      exact ⟨final, turned.after taken trivial rfl rfl⟩

/-- The list is in memory, or the file reads as one. -/
def RosterState.Readable (state : RosterState) : Prop :=
  (∃ entries, state.cached = .loaded entries) ∨ (readFile state.file).isSome = true

theorem turnOver_loading (linear : state.Linear) (readable : state.Readable)
    (running : state.running = some (.loading task)) : ∃ final, TurnOver state task final := by
  cases unread : state.cached.entries? with
  | some entries => exact turnOver_loaded linear running (RosterState.loaded_of_entries? unread)
  | none =>
      have reads : (readFile state.file).isSome = true := by
        refine readable.resolve_left ?_
        rintro ⟨entries, cached⟩
        rw [cached] at unread
        cases unread
      obtain ⟨entries, read⟩ := Option.isSome_iff_exists.mp reads
      have reading := (linear.shape.fresh unread).waits (by rw [running]; rfl)
      have taken : rosterStep state .readFile =
          some { state with cached := .loaded entries, first := entries } := by
        simp only [rosterStep, reading, read, Option.map_some]
      obtain ⟨final, turned⟩ := turnOver_loaded (linear_step linear taken) running rfl
      exact ⟨final, turned.after taken trivial rfl rfl⟩

theorem turnOver_running (linear : state.Linear) (readable : state.Readable)
    (turn : state.current = [task]) : ∃ final, TurnOver state task final := by
  unfold RosterState.current at turn
  split at turn
  · cases turn
  · rename_i other running
    cases turn
    exact turnOver_loading linear readable running
  · rename_i other entry next stage running
    cases turn
    cases stage with
    | mkdir => exact turnOver_mkdir linear running
    | writeFile => exact turnOver_writeFile linear running
    | rename => exact turnOver_rename linear running
    | renamed => exact turnOver_renamed running

theorem readable_load (readable : state.Readable) :
    (∃ entries, state.load.cached = .loaded entries) ∨ (readFile state.file).isSome = true := by
  rcases readable with ⟨entries, cached⟩ | reads
  · exact .inl ⟨entries, RosterState.load_loaded cached⟩
  · exact .inr reads

theorem drains_idle {queue : List Task} (linear : state.Linear) (readable : state.Readable)
    (idle : state.running = none) (waiting : state.queue = queue) : state.Drains := by
  induction queue generalizing state with
  | nil =>
      have nobody : state.current = [] := by rw [RosterState.current, idle]
      exact ⟨state, [], .refl, nobody, waiting, (List.append_nil _).symm, by simp [nobody, waiting],
        by simp⟩
  | cons task rest induction =>
      have taken : rosterStep state .begin = some { state.load with
          queue := rest
          running := some (.loading task)
          turnFile := state.file } := by
        simp only [rosterStep, idle, waiting]
      have begun := linear_step linear taken
      have same : state.load.file = state.file ∧ state.load.settled = state.settled := by
        rw [state.load_eq]
        exact ⟨rfl, rfl⟩
      have ready : RosterState.Readable { state.load with
          queue := rest
          running := some (.loading task)
          turnFile := state.file } := by
        rcases readable_load readable with loaded | reads
        · exact .inl loaded
        · refine .inr ?_
          rw [← same.1] at reads
          exact reads
      obtain ⟨middle, turned⟩ := turnOver_running begun ready rfl
      have linear_middle := turned.reached.invariant RosterState.Linear begun
        fun _ linear _ taken => linear_step linear taken
      obtain ⟨final, more, reached, nobody, none, settled, order, resolved⟩ :=
        induction linear_middle (.inl turned.loaded) turned.running turned.queue
      obtain ⟨written, first⟩ := turned.settled
      have met : Succeeds state .begin := trivial
      have whole := ((Reaches.refl.tail met taken).trans turned.reached).trans reached
      refine ⟨final, (task, .resolved written) :: more, whole, nobody, none, ?_, ?_, ?_⟩
      · rw [settled, first, List.append_assoc, same.2]
        rfl
      · have after : middle.current = [] := by rw [RosterState.current, turned.running]
        rw [List.map_cons, order, after, turned.queue, RosterState.current, idle, waiting]
        rfl
      · intro pair member
        cases List.mem_cons.mp member with
        | inl same => rw [same]; rfl
        | inr later => exact resolved pair later

theorem drains (linear : state.Linear) (readable : state.Readable) : state.Drains := by
  cases running : state.running with
  | none => exact drains_idle linear readable running rfl
  | some turn =>
      obtain ⟨task, current⟩ : ∃ task, state.current = [task] := by
        unfold RosterState.current
        rw [running]
        cases turn <;> exact ⟨_, rfl⟩
      obtain ⟨middle, turned⟩ := turnOver_running linear readable current
      have linear_middle := turned.reached.invariant RosterState.Linear linear
        fun _ linear _ taken => linear_step linear taken
      obtain ⟨final, more, reached, nobody, none, settled, order, resolved⟩ :=
        drains_idle linear_middle (.inl turned.loaded) turned.running rfl
      obtain ⟨written, first⟩ := turned.settled
      refine ⟨final, (task, .resolved written) :: more, turned.reached.trans reached, nobody, none,
        ?_, ?_, ?_⟩
      · rw [settled, first, List.append_assoc]
        rfl
      · have after : middle.current = [] := by rw [RosterState.current, turned.running]
        rw [List.map_cons, order, after, turned.queue, current]
        rfl
      · intro pair member
        cases List.mem_cons.mp member with
        | inl same => rw [same]; rfl
        | inr later => exact resolved pair later

end

/-! ## The roster -/

def samCertificate : Signed JsValue :=
  ⟨.object [(js "type", .string deviceCertificateType), (js "personKey", .string (sampleKey 0x50)),
    (js "deviceKey", .string (sampleKey 0x41)), (js "deviceLabel", .string (js "phone")),
    (js "issuedAt", .string (js "t"))], List.replicate 86 0x41⟩

def joinOfSam : Task :=
  .put (joinEntry (sampleKey 0x50) (js "Sam") ⟨js "address", samCertificate⟩ none (js "t"))

/-- Sam joins, a PIN of Sam's is not saved because the file cannot be written, and a list is
asked for in between. -/
def joinAndFail : List RosterAction :=
  [.submit joinOfSam, .submit (.update (sampleKey 0x50)
      (Change.savePin (some ⟨js "salt", js "hash", defaultIterations⟩)).apply),
    .begin, .readFile, .resume, .mkdir, .writeFile fun _ => Field.all, .rename, .commit,
    .begin, .resume, .mkdir, .read 0 .list, .fail none, .reply 0]

theorem hostTask_joinOfSam : HostTask lengthPlatform joinOfSam := by
  have certified : checkDeviceCertificate lengthPlatform samCertificate =
      .ok ⟨⟨sampleKey 0x50, sampleKey 0x41, js "phone", js "t"⟩, List.replicate 86 0x41⟩ :=
    checkShapeAndSignature_eq_ok_iff.mpr ⟨by decide +kernel, rfl, by decide +kernel⟩
  have parsed : Parsed samCertificate.payload :=
    ⟨by decide, trivial, trivial, trivial, trivial, trivial, trivial⟩
  exact .join _ _ _ _ none parsed certified fun hash same => by cases same

theorem joinAndFail_hosted : ∀ action ∈ joinAndFail, ∀ state, HostOnly lengthPlatform state action := by
  intro action member state
  simp only [joinAndFail, List.mem_cons, List.not_mem_nil, or_false] at member
  rcases member with rfl | rfl | rfl | rfl | rfl | rfl | rfl | rfl | rfl | rfl | rfl | rfl | rfl |
    rfl | rfl
  · exact hostTask_joinOfSam
  · refine .change _ _ fun hash same => ?_
    cases same
    rfl
  all_goals trivial

end Tapes.Roster
