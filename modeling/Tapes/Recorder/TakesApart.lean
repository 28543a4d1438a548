import Tapes.Recorder.TakeSteps

namespace Tapes.Recorder

open Tapes.Js Tapes.Machine

/-! The steps of the worker, and the runs of the studio. -/

variable {studio next : Studio} {call recorder chunk : CallId} {filename : FileId} {take : Take}
  {message : Message} {handler : Handler} {reply : Reply} {worker after : Worker}

/-! ## The worker -/

theorem grows_withWorker (files : after.files = studio.worker.files)
    (writing : after.writing = studio.worker.writing) : studio.Grows (studio.withWorker after) :=
  grows_of_moves (Nat.le_refl _) rfl files writing fun _ _ => .inl rfl

theorem Sound.withWorker (sound : Sound studio) (grows : studio.Grows (studio.withWorker after))
    (inbox : after.inbox.Sublist studio.worker.inbox)
    (handlers : ∀ call handler, after.handlers call = some handler →
      studio.worker.handlers call = some handler ∨ handler.Fine (studio.withWorker after) call)
    (outbox : ∀ reply ∈ after.outbox,
      reply ∈ studio.worker.outbox ∨ reply.Fine (studio.withWorker after))
    (chunks : (studio.withWorker after).Chunks) : Sound (studio.withWorker after) :=
  sound.later grows (fun _ member => .inl (inbox.subset member)) (sound.order.sublist inbox) handlers
    outbox (fun _ _ => .inl) sound.recorded sound.media
    (fun held found => (sound.take held found).later grows) chunks fun _ => .inl

theorem Sound.go (sound : Sound studio) (fine : handler.Fine studio call) :
    Sound (studio.withWorker (studio.worker.go call handler)) := by
  have grows : studio.Grows (studio.withWorker (studio.worker.go call handler)) :=
    grows_withWorker rfl rfl
  refine sound.withWorker grows (.refl _) ?_ (fun _ => .inl)
    (sound.chunks.same rfl sound.chunks.owns rfl rfl rfl rfl sound.chunks.pending)
  intro other running found
  obtain ⟨rfl, rfl⟩ | ⟨_, before⟩ := Table.put_cases found
  · exact .inr (fine.later grows)
  · exact .inl before

theorem Sound.answer (sound : Sound studio) (fine : reply.Fine studio) :
    Sound (studio.withWorker { studio.worker with outbox := studio.worker.outbox ++ [reply] }) := by
  have grows : studio.Grows
      (studio.withWorker { studio.worker with outbox := studio.worker.outbox ++ [reply] }) :=
    grows_withWorker rfl rfl
  refine sound.withWorker grows (.refl _) (fun _ _ => .inl) ?_
    (sound.chunks.same rfl sound.chunks.owns rfl rfl rfl rfl sound.chunks.pending)
  intro each member
  obtain old | new := List.mem_append.mp member
  · exact .inl old
  · rw [List.mem_singleton] at new
    subst new
    exact .inr (fine.later grows)

theorem Sound.ended (sound : Sound studio) (call : CallId) : Sound (studio.withWorker
    { studio.worker with handlers := studio.worker.handlers.remove call }) := by
  refine sound.withWorker (grows_withWorker rfl rfl) (.refl _) ?_ (fun _ => .inl)
    (sound.chunks.same rfl sound.chunks.owns rfl rfl rfl rfl sound.chunks.pending)
  intro other running found
  by_cases same : other = call
  · subst same
    replace found : studio.worker.handlers.remove other other = some running := found
    rw [Table.remove_self] at found
    cases found
  · exact .inl ((Table.remove_other same).symm.trans found)

theorem Sound.respond (sound : Sound studio) (call : CallId) (fine : reply.Fine studio) :
    Sound (studio.withWorker (studio.worker.respond call reply)) :=
  (sound.answer fine).ended call

/-- A message that is no chunk leaves the inbox. -/
theorem Sound.taken {rest : List Message} (sound : Sound studio)
    (inbox : studio.worker.inbox = message :: rest) (other : ∀ chunk, message ≠ .write chunk) :
    Sound (studio.withWorker { studio.worker with inbox := rest }) := by
  refine sound.withWorker (grows_withWorker rfl rfl) ?_ (fun _ _ => .inl) (fun _ => .inl) ?_
  · rw [inbox]
    exact List.sublist_cons_self _ _
  · refine sound.chunks.same rfl sound.chunks.owns rfl rfl ?_ rfl sound.chunks.pending
    cases message with
    | write chunk => exact absurd rfl (other chunk)
    | start | stop | claim => simp [Worker.onWay, Studio.withWorker, inbox]

theorem Sound.received {rest : List Reply} (sound : Sound studio)
    (outbox : studio.worker.outbox = reply :: rest) :
    Sound (studio.withWorker { studio.worker with outbox := rest }) := by
  refine sound.withWorker (grows_withWorker rfl rfl) (.refl _) (fun _ _ => .inl) ?_
    (sound.chunks.same rfl sound.chunks.owns rfl rfl rfl rfl sound.chunks.pending)
  intro each member
  exact .inl (outbox ▸ List.mem_cons_of_mem reply member)

/-! ### Chunks -/

/-- While a chunk is on its way it is the only one, and the handle is its file's. -/
theorem Studio.Chunks.alone (chunks : studio.Chunks) (member : chunk ∈ studio.worker.onWay) :
    studio.worker.onWay = [chunk] ∧ ∃ take, studio.Stopped chunk take ∧
      studio.worker.accessHandle = some take.filename ∧
        studio.worker.files take.filename = some ⟨chunk, []⟩ := by
  obtain noChunk | ⟨only, take, alone, stopped, handle, empty⟩ := chunks.way
  · rw [noChunk] at member
    cases member
  · rw [alone, List.mem_singleton] at member
    subst member
    exact ⟨alone, take, stopped, handle, empty⟩

theorem Sound.chunkTaken {rest : List Message} (sound : Sound studio)
    (inbox : studio.worker.inbox = .write chunk :: rest) : Sound (studio.withWorker
      { studio.worker with
        inbox := rest
        writing := if studio.worker.accessHandle.isSome then studio.worker.writing ++ [chunk]
          else studio.worker.writing
        pendingWrite := some chunk }) := by
  have way : studio.worker.onWay = studio.worker.writing ++ chunk ::
      Worker.onWay { studio.worker with inbox := rest, writing := [] } := by
    simp [Worker.onWay, inbox]
  have member : chunk ∈ studio.worker.onWay := by simp [way]
  obtain ⟨alone, take, _, handle, _⟩ := sound.chunks.alone member
  have nothing : studio.worker.writing = [] := by
    rw [way, List.append_eq_singleton_iff] at alone
    obtain ⟨noChunk, _⟩ | ⟨_, noChunk⟩ := alone
    · exact noChunk
    · cases noChunk
  rw [handle]
  refine sound.withWorker ?_ ?_ (fun _ _ => .inl) (fun _ => .inl) ?_
  · refine ⟨Nat.le_refl _, fun _ each found => ⟨each, found, rfl, id⟩,
      fun _ file found => ⟨file, found, rfl, fun _ => rfl⟩, ?_, fun _ _ _ => id, fun _ => .inl⟩
    rw [nothing]
    intro each member
    cases member
  · rw [inbox]
    exact List.sublist_cons_self _ _
  · refine sound.chunks.same rfl sound.chunks.owns rfl rfl ?_ rfl ?_
    · simp [Worker.onWay, Studio.withWorker, inbox]
    · intro each member
      replace member : each ∈ studio.worker.writing ++ [chunk] := member
      rw [nothing, List.nil_append, List.mem_singleton] at member
      subst member
      rfl

theorem mem_onWay (worker : Worker) (chunk : CallId) :
    chunk ∈ worker.onWay ↔ chunk ∈ worker.writing ∨ .write chunk ∈ worker.inbox := by
  rw [Worker.onWay, List.mem_append, List.mem_filterMap]
  constructor
  · intro either
    obtain writing | ⟨message, member, found⟩ := either
    · exact .inl writing
    · cases message with
      | write other =>
          cases found
          exact .inr member
      | start | stop | claim => cases found
  · intro either
    obtain writing | waiting := either
    · exact .inl writing
    · exact .inr ⟨_, waiting, rfl⟩

/-- A claim finds its chunk written, or waits for it. The chunk is not behind it. -/
theorem Sound.claimTaken {rest : List Message} {endedAt : Int} (sound : Sound studio)
    (inbox : studio.worker.inbox = .claim call take endedAt :: rest) :
    Handler.Fine studio call (.awaitingWrite take endedAt studio.worker.pendingWrite) := by
  obtain ⟨recorder, asked⟩ := sound.inbox (.claim call take endedAt) (inbox ▸ List.mem_cons_self)
  refine ⟨recorder, asked, ?_⟩
  obtain way | written := sound.chunks.received recorder take asked.stopped
  · obtain writing | waiting := (mem_onWay _ _).mp way
    · exact .inr ⟨writing, sound.chunks.pending recorder writing⟩
    · have order := sound.order
      rw [inbox] at waiting order
      obtain same | behind := List.mem_cons.mp waiting
      · cases same
      · exact absurd asked.stopped ((List.pairwise_cons.mp order).1 _ behind _ _ _ _ rfl rfl)
  · exact .inl written

theorem Sound.handle (sound : Sound studio) (handled : studio.worker.handle = some after) :
    Sound (studio.withWorker after) := by
  unfold Worker.handle at handled
  split at handled
  · cases handled
  · rename_i message rest inbox
    cases message with
    | start call =>
        cases handled
        have taken := sound.taken inbox fun _ write => by cases write
        exact @Sound.go _ call .creatingFile taken trivial
    | write chunk =>
        cases handled
        exact sound.chunkTaken inbox
    | stop call =>
        cases handled
        have taken := sound.taken inbox fun _ write => by cases write
        exact @Sound.answer _ (.stopped call) taken trivial
    | claim call take endedAt =>
        cases handled
        have taken := sound.taken inbox fun _ write => by cases write
        exact taken.go ((sound.claimTaken inbox).later (grows_withWorker rfl rfl))

theorem files_modify {files : Table FileId StoredFile} {change : StoredFile → StoredFile}
    {name : FileId} {file : StoredFile} (found : files.modify filename change name = some file) :
    name = filename ∧ (∃ before, files filename = some before ∧ file = change before) ∨
      name ≠ filename ∧ files name = some file := by
  by_cases same : name = filename
  · subst same
    rw [Table.modify, Function.update_self, Option.map_eq_some_iff] at found
    obtain ⟨before, there, rfl⟩ := found
    exact .inl ⟨rfl, before, there, rfl⟩
  · rw [Table.modify, Function.update_of_ne same] at found
    exact .inr ⟨same, found⟩

theorem Studio.Stopped.unique {other : Take} (stopped : studio.Stopped chunk take)
    (also : studio.Stopped chunk other) : take = other := by
  rw [Studio.Stopped, stopped] at also
  cases also
  rfl

/-- The chunk goes to the file of its take, and no other is on its way. -/
theorem Sound.written (sound : Sound studio) (alone : studio.worker.onWay = [chunk])
    (writing : chunk ∈ studio.worker.writing) (stopped : studio.Stopped chunk take)
    (empty : studio.worker.files take.filename = some ⟨chunk, []⟩) :
    Sound (studio.withWorker { studio.worker with
      writing := studio.worker.writing.filter (· ≠ chunk)
      accessHandle := none
      files := studio.worker.files.modify take.filename fun file =>
        { file with chunks := file.chunks ++ [chunk] } }) := by
  have only : studio.worker.writing = [chunk] := by
    rw [Worker.onWay, List.append_eq_singleton_iff] at alone
    obtain ⟨noChunk, _⟩ | ⟨only, _⟩ := alone
    · rw [noChunk] at writing
      cases writing
    · exact only
  have nothing : Worker.onWay { studio.worker with
      writing := studio.worker.writing.filter (· ≠ chunk)
      accessHandle := none
      files := studio.worker.files.modify take.filename fun file =>
        { file with chunks := file.chunks ++ [chunk] } } = [] := by
    simp only [Worker.onWay, only, List.singleton_append, List.cons.injEq, true_and] at alone ⊢
    simpa using alone
  have there : (studio.worker.files.modify take.filename fun file : StoredFile =>
      { file with chunks := file.chunks ++ [chunk] }) take.filename = some ⟨chunk, [chunk]⟩ := by
    simp [Table.modify, empty]
  have others (name : FileId) (different : name ≠ take.filename) :
      (studio.worker.files.modify take.filename fun file : StoredFile =>
        { file with chunks := file.chunks ++ [chunk] }) name = studio.worker.files name :=
    Function.update_of_ne different ..
  have grows : studio.Grows (studio.withWorker { studio.worker with
      writing := studio.worker.writing.filter (· ≠ chunk)
      accessHandle := none
      files := studio.worker.files.modify take.filename fun file =>
        { file with chunks := file.chunks ++ [chunk] } }) := by
    refine ⟨Nat.le_refl _, fun _ each found => ⟨each, found, rfl, id⟩, ?_, ?_, fun _ _ _ => id,
      fun _ => .inl⟩
    · intro name file found
      by_cases same : name = take.filename
      · subst same
        rw [empty] at found
        cases found
        exact ⟨_, there, rfl, fun full => by cases full⟩
      · exact ⟨file, (others name same).trans found, rfl, fun _ => rfl⟩
    · intro each member held also
      rw [only, List.mem_singleton] at member
      subst member
      obtain rfl := stopped.unique also
      exact .inr there
  refine sound.withWorker grows (.refl _) (fun _ _ => .inl) (fun _ => .inl) ⟨?_, ?_, ?_, .inl nothing,
    ?_, ?_⟩
  · intro name file found
    obtain ⟨rfl, before, first, _⟩ | ⟨_, before⟩ := files_modify found
    · exact sound.chunks.new _ before first
    · exact sound.chunks.new name file before
  · intro recorder each found
    exact (sound.chunks.owns recorder each found).later grows
  · intro name file found
    obtain ⟨rfl, before, first, rfl⟩ | ⟨_, before⟩ := files_modify found
    · rw [empty] at first
      cases first
      exact .inr ⟨rfl, take, stopped, rfl⟩
    · exact sound.chunks.content name file before
  · intro other held also
    obtain way | full := sound.chunks.received other held also
    · rw [alone, List.mem_singleton] at way
      subst way
      obtain rfl : take = held := stopped.unique also
      exact .inr there
    · exact .inr (full.later grows)
  · intro other member
    have way : other ∈ Worker.onWay _ := (mem_onWay _ _).mpr (.inl member)
    rw [Studio.withWorker, nothing] at way
    cases way

theorem Sound.write (sound : Sound studio) (wrote : studio.worker.write chunk = some after) :
    Sound (studio.withWorker after) := by
  unfold Worker.write at wrote
  split at wrote
  · rename_i writing
    obtain ⟨alone, take, stopped, handle, empty⟩ :=
      sound.chunks.alone ((mem_onWay _ _).mpr (.inl writing))
    rw [handle] at wrote
    cases wrote
    exact sound.written alone writing stopped empty
  · cases wrote

/-! ### Calls -/

theorem Sound.created (sound : Sound studio) (call : CallId) :
    Sound (studio.withWorker { studio.worker with
      files := studio.worker.files.put studio.worker.nextFile ⟨call, []⟩
      nextFile := studio.worker.nextFile + 1 }) := by
  have others (name : FileId) (file : StoredFile) (found : studio.worker.files name = some file) :
      studio.worker.files.put studio.worker.nextFile ⟨call, []⟩ name = some file :=
    (Table.put_other (Nat.ne_of_lt (sound.chunks.new name file found))).trans found
  have grows : studio.Grows (studio.withWorker { studio.worker with
      files := studio.worker.files.put studio.worker.nextFile ⟨call, []⟩
      nextFile := studio.worker.nextFile + 1 }) :=
    ⟨Nat.le_refl _, fun _ each found => ⟨each, found, rfl, id⟩,
      fun name file found => ⟨file, others name file found, rfl, fun _ => rfl⟩,
      fun _ member _ _ => .inl member, fun _ _ _ => id, fun _ => .inl⟩
  refine sound.withWorker grows (.refl _) (fun _ _ => .inl) (fun _ => .inl)
    ⟨?_, ?_, ?_, ?_, ?_, sound.chunks.pending⟩
  · intro name file found
    obtain ⟨rfl, _⟩ | ⟨_, before⟩ := Table.put_cases found
    · exact Nat.lt_succ_self _
    · exact Nat.lt_succ_of_lt (sound.chunks.new name file before)
  · intro recorder each found
    exact (sound.chunks.owns recorder each found).later grows
  · intro name file found
    obtain ⟨rfl, rfl⟩ | ⟨_, before⟩ := Table.put_cases found
    · exact .inl rfl
    · exact sound.chunks.content name file before
  · obtain noChunk | ⟨chunk, take, alone, stopped, handle, empty⟩ := sound.chunks.way
    · exact .inl noChunk
    · exact .inr ⟨chunk, take, alone, stopped, handle, others _ _ empty⟩
  · intro chunk take stopped
    obtain way | written := sound.chunks.received chunk take stopped
    · exact .inl way
    · exact .inr (written.later grows)

/-- A new handle replaces none that a chunk is on its way to. -/
theorem Sound.opened (sound : Sound studio) (nothing : studio.worker.onWay = [])
    (filename : FileId) :
    Sound (studio.withWorker { studio.worker with accessHandle := some filename }) := by
  refine sound.withWorker (grows_withWorker rfl rfl) (.refl _) (fun _ _ => .inl) (fun _ => .inl) ?_
  have chunks := sound.chunks
  exact ⟨chunks.new, chunks.owns, chunks.content, .inl nothing, chunks.received, chunks.pending⟩

theorem Sound.resume {ok : Bool} (sound : Sound studio)
    (free : ok = true → ∀ filename, studio.worker.handlers call = some (.openingHandle filename) →
      studio.worker.onWay = []) (resumed : studio.worker.resume call ok = some after) :
    Sound (studio.withWorker after) := by
  unfold Worker.resume at resumed
  split at resumed
  · cases resumed
  · split at resumed
    · cases resumed
      have created := sound.created call
      exact created.go ⟨[], Table.put_self⟩
    · cases resumed
      exact sound.respond call trivial
  · rename_i filename running
    split at resumed
    · rename_i opens
      cases resumed
      have opened := sound.opened (free opens filename running) filename
      have owns : studio.Owns call filename := sound.handlers call _ running
      exact @Sound.respond _ (.started call (some filename)) opened call owns
    · cases resumed
      exact sound.respond call trivial
  · rename_i take endedAt write running
    split at resumed
    · rename_i turned
      cases resumed
      obtain ⟨recorder, asked, written | ⟨writing, rfl⟩⟩ := sound.handlers call _ running
      · exact sound.go ⟨recorder, asked, written⟩
      · simp [writing] at turned
    · cases resumed
  · rename_i take endedAt running
    obtain ⟨recorder, asked, written⟩ := sound.handlers call _ running
    rw [Studio.Written] at written
    rw [written] at resumed
    simp only at resumed
    split at resumed
    · cases resumed
      exact sound.go ⟨recorder, asked, written, rfl⟩
    · cases resumed
      exact sound.respond call trivial
  · rename_i take endedAt content running
    obtain ⟨recorder, asked, written, rfl⟩ := sound.handlers call _ running
    cases resumed
    refine sound.respond call ?_
    cases ok with
    | false => trivial
    | true => exact ⟨recorder, take, asked, written, rfl, rfl, rfl⟩

/-! ## Runs -/

theorem chunks_new : Studio.new.Chunks where
  new _ _ found := by cases found
  owns _ _ found := by cases found
  content _ _ found := by cases found
  way := .inl rfl
  received _ _ stopped := by cases stopped
  pending _ member := by cases member

theorem sound_new : Sound Studio.new where
  inbox _ member := by cases member
  order := .nil
  handlers _ _ found := by cases found
  outbox _ member := by cases member
  presses _ _ found := by cases found
  recorded _ _ found := by cases found
  media _ found := by cases found
  take _ found := by cases found
  chunks := chunks_new
  returned _ member := by cases member

theorem Sound.step {action : StudioAction} (sound : Sound studio) (apart : TakesApart studio action)
    (taken : studioStep studio action = some next) : Sound next := by
  cases action with
  | press sessionId =>
      simp only [studioStep] at taken
      split at taken
      · cases taken
        exact sound.stopRecording
      · cases taken
        exact sound.startRecording sessionId
  | tick ms =>
      cases taken
      exact sound.flags studio.isRecording studio.isStarting studio.stopRequested _
  | receive =>
      simp only [studioStep] at taken
      split at taken
      · cases taken
      · rename_i reply rest outbox
        cases taken
        have fine := sound.outbox reply (outbox ▸ List.mem_cons_self)
        refine (sound.received outbox).afterReply (fine.later (grows_withWorker rfl rfl)) ?_
        rintro call take endedAt recorder each rfl
        exact apart call rest take endedAt recorder each outbox
  | microphone call ok =>
      simp only [studioStep] at taken
      split at taken
      · rename_i sessionId filename waits
        split at taken
        · cases taken
          exact sound.record waits
        · cases taken
          exact (sound.finish call).flags false false false studio.clock
      · cases taken
  | stopEvent recorder =>
      simp only [studioStep] at taken
      split at taken
      · rename_i take stopping
        cases taken
        exact sound.stopEvent stopping (apart _ stopping)
      · cases taken
  | flushed call =>
      simp only [studioStep] at taken
      split at taken
      · rename_i captured endedAt recorder waits
        split at taken
        · rename_i turned
          split at taken
          · cases taken
            exact sound.finish call
          · cases taken
            exact sound.claiming waits turned
        · cases taken
      · cases taken
  | handle =>
      obtain ⟨after, handled, rfl⟩ := Option.map_eq_some_iff.mp taken
      exact sound.handle handled
  | write chunk =>
      obtain ⟨after, wrote, rfl⟩ := Option.map_eq_some_iff.mp taken
      exact sound.write wrote
  | resume call ok =>
      obtain ⟨after, resumed, rfl⟩ := Option.map_eq_some_iff.mp taken
      refine sound.resume ?_ resumed
      rintro rfl
      exact apart

theorem sound_of_reaches (reached : Reaches studioStep TakesApart .new studio) : Sound studio :=
  reached.invariant Sound sound_new fun _ => Sound.step

/-- Takes whose handles and presses keep apart never mix. -/
theorem takes_apart_never_mix (studio : Studio)
    (reached : Reaches studioStep TakesApart .new studio) : NeverMixed studio :=
  (sound_of_reaches reached).neverMixed

/-- A take that is stopped before the next is started returns its claim. -/
theorem a_take_is_claimed : ∃ studio, Reaches studioStep TakesApart .new studio ∧
    NeverMixed studio ∧ studio.returned = [(0, ⟨[0], 0, 0, none⟩)] := by
  have along : MeetsAlong studioStep TakesApart .new
      [.press none, .handle, .resume 0 true, .resume 0 true, .receive, .microphone 0 true,
        .press none, .handle, .receive, .stopEvent 0, .flushed 1, .handle, .write 0, .handle,
        .resume 1 true, .resume 1 true, .resume 1 true, .receive] := by
    refine .cons trivial rfl (.cons trivial rfl (.cons ?_ rfl (.cons ?_ rfl (.cons ?_ rfl
      (.cons trivial rfl (.cons trivial rfl (.cons trivial rfl (.cons ?_ rfl (.cons ?_ rfl
      (.cons trivial rfl (.cons trivial rfl (.cons trivial rfl (.cons trivial rfl (.cons ?_ rfl
      (.cons ?_ rfl (.cons ?_ rfl (.cons ?_ rfl trivial)))))))))))))))))
    · intro filename found
      cases found
    · intro filename found
      rfl
    · intro call rest take endedAt recorder each outbox
      cases outbox
    · -- The stop finds the recorder of its take.
      intro call rest take endedAt recorder each outbox press media found
      cases outbox
      cases press
      cases media
      cases found
      rfl
    · intro each found
      cases found
      rfl
    · intro filename found
      cases found
    · intro filename found
      cases found
    · intro filename found
      cases found
    · intro call rest take endedAt recorder each outbox
      cases outbox
  have reached : Reaches studioStep TakesApart .new _ := .of_run rfl along
  exact ⟨_, reached, takes_apart_never_mix _ reached, rfl⟩

/-- Starting again before the last chunk is there puts it in the next take's file. -/
theorem a_chunk_goes_to_the_next_take : ¬ TakesNeverMix anyAction := by
  obtain ⟨studio, ran, chunks, named⟩ : ∃ studio,
      run studioStep .new [.press none, .handle, .resume 0 true, .resume 0 true, .receive,
        .microphone 0 true, .press none, .handle, .receive, .press none, .handle, .resume 2 true,
        .resume 2 true, .stopEvent 0, .handle, .write 0] = some studio ∧
      studio.worker.files 1 = some ⟨2, [0]⟩ ∧
      studio.recorders 0 = some ⟨⟨0, 0, none⟩, .stopped⟩ :=
    ⟨_, rfl, rfl, rfl⟩
  intro apart
  have never := apart studio (.of_run ran (meetsAlong_anyAction _ _))
  obtain ⟨recorder, found, same, _⟩ := never.own 1 _ chunks 0 List.mem_cons_self
  rw [named] at found
  cases found
  cases same

end Tapes.Recorder
