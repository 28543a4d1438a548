import Tapes.Recorder.Takes

namespace Tapes.Recorder

open Tapes.Js Tapes.Machine

/-! Takes that keep apart never mix: each step of the page, the worker and the recorders. -/

variable {studio next : Studio} {call recorder chunk : CallId} {filename : FileId} {take other : Take}
  {press : Press} {message : Message} {handler : Handler} {reply : Reply} {worker after : Worker}

/-! ## Steps in general -/

theorem Sound.later (sound : Sound studio) (grows : studio.Grows next)
    (inbox : ∀ message ∈ next.worker.inbox, message ∈ studio.worker.inbox ∨ message.Fine next)
    (order : next.worker.inbox.Pairwise next.InOrder)
    (handlers : ∀ call handler, next.worker.handlers call = some handler →
      studio.worker.handlers call = some handler ∨ handler.Fine next call)
    (outbox : ∀ reply ∈ next.worker.outbox, reply ∈ studio.worker.outbox ∨ reply.Fine next)
    (presses : ∀ call press, next.presses call = some press →
      studio.presses call = some press ∨ call < next.nextCall ∧ press.Fine next call)
    (recorded : ∀ recorder each, next.recorders recorder = some each → recorder < next.nextCall)
    (media : ∀ recorder, next.mediaRecorder = some recorder →
      ∃ take, next.recorders recorder = some ⟨take, .recording⟩)
    (take : ∀ take, next.take = some take → next.Known take) (chunks : next.Chunks)
    (returned : ∀ each ∈ next.returned, each ∈ studio.returned ∨
      ∃ take, next.Stopped each.1 take ∧ each.2.Of next each.1 take) : Sound next := by
  refine ⟨?_, order, ?_, ?_, ?_, recorded, media, take, chunks, ?_⟩
  · intro message member
    obtain old | new := inbox message member
    · exact (sound.inbox message old).later grows
    · exact new
  · intro call handler found
    obtain old | new := handlers call handler found
    · exact (sound.handlers call handler old).later grows
    · exact new
  · intro reply member
    obtain old | new := outbox reply member
    · exact (sound.outbox reply old).later grows
    · exact new
  · intro call press found
    obtain old | new := presses call press found
    · obtain ⟨below, fine⟩ := sound.presses call press old
      exact ⟨Nat.lt_of_lt_of_le below grows.calls, fine.later grows found⟩
    · exact new
  · intro each member
    obtain old | new := returned each member
    · obtain ⟨take, stopped, of⟩ := sound.returned each old
      exact ⟨take, stopped.later grows, of.later grows⟩
    · exact new

/-- A press changes only while it does not wait for a claim. -/
def Studio.Moves (studio next : Studio) : Prop :=
  ∀ call < studio.nextCall, next.presses call = studio.presses call ∨ next.presses call = none ∨
    ∃ press, studio.presses call = some press ∧ ∀ recorder, press ≠ .claiming recorder

theorem Studio.Moves.waits (moves : studio.Moves next) : ∀ call < studio.nextCall, ∀ recorder,
    (∀ press, studio.presses call = some press → press = .claiming recorder) →
      ∀ press, next.presses call = some press → press = .claiming recorder := by
  intro call below recorder waits press found
  obtain same | gone | ⟨before, there, different⟩ := moves call below
  · exact waits press (same ▸ found)
  · rw [gone] at found
    cases found
  · exact absurd (waits before there) (different recorder)

theorem moves_of_finish (studio : Studio) (call : CallId) : studio.Moves (studio.finish call) := by
  intro other _
  by_cases same : other = call
  · subst same
    exact .inr (.inl Table.remove_self)
  · exact .inl (Table.remove_other same)

theorem moves_of_put (found : studio.presses call = some press)
    (different : ∀ recorder, press ≠ .claiming recorder) (later : Press) :
    studio.Moves { studio with presses := studio.presses.put call later } := by
  intro other _
  by_cases same : other = call
  · subst same
    exact .inr (.inr ⟨press, found, different⟩)
  · exact .inl (Table.put_other same)

/-- Nothing is recorded or written in the step. -/
theorem grows_of_moves (calls : studio.nextCall ≤ next.nextCall)
    (recorders : next.recorders = studio.recorders) (files : next.worker.files = studio.worker.files)
    (writing : next.worker.writing = studio.worker.writing) (moves : studio.Moves next) :
    studio.Grows next := by
  refine ⟨calls, ?_, ?_, ?_, moves.waits, ?_⟩
  · intro recorder each found
    exact ⟨each, recorders ▸ found, rfl, id⟩
  · intro filename file found
    exact ⟨file, files ▸ found, rfl, fun _ => rfl⟩
  · intro chunk member _ _
    exact .inl (writing ▸ member)
  · intro call absent
    exact .inl (recorders ▸ absent)

theorem stopped_of_same (recorders : next.recorders = studio.recorders) :
    next.Stopped = studio.Stopped := by
  unfold Studio.Stopped
  rw [recorders]

theorem Studio.Chunks.same (chunks : studio.Chunks) (stopped : next.Stopped = studio.Stopped)
    (owns : ∀ recorder each, next.recorders recorder = some each →
      studio.Owns recorder each.take.filename)
    (files : next.worker.files = studio.worker.files)
    (nextFile : next.worker.nextFile = studio.worker.nextFile)
    (onWay : next.worker.onWay = studio.worker.onWay)
    (accessHandle : next.worker.accessHandle = studio.worker.accessHandle)
    (pending : ∀ chunk ∈ next.worker.writing, next.worker.pendingWrite = some chunk) :
    next.Chunks := by
  refine ⟨?_, ?_, ?_, ?_, ?_, pending⟩
  · rw [files, nextFile]
    exact chunks.new
  · intro recorder each found
    obtain ⟨held, there⟩ := owns recorder each found
    exact ⟨held, files ▸ there⟩
  · rw [files, stopped]
    exact chunks.content
  · unfold Studio.OneOnWay
    rw [onWay, stopped, files, accessHandle]
    exact chunks.way
  · unfold Studio.Written
    rw [onWay, stopped, files]
    exact chunks.received

theorem inOrder_of_same (stopped : next.Stopped = studio.Stopped) : next.InOrder = studio.InOrder := by
  unfold Studio.InOrder
  rw [stopped]

/-! ## The page -/

/-- The page goes on by itself: at most one press changes, or ends. -/
theorem Sound.page (sound : Sound studio) (same : next.worker = studio.worker)
    (nextCall : next.nextCall = studio.nextCall) (recorders : next.recorders = studio.recorders)
    (moves : studio.Moves next)
    (presses : ∀ call press, next.presses call = some press →
      studio.presses call = some press ∨ call < next.nextCall ∧ press.Fine next call)
    (media : next.mediaRecorder = studio.mediaRecorder)
    (take : next.take = none ∨ next.take = studio.take)
    (returned : ∀ each ∈ next.returned, each ∈ studio.returned ∨
      ∃ take, next.Stopped each.1 take ∧ each.2.Of next each.1 take) : Sound next := by
  have grows : studio.Grows next :=
    grows_of_moves (Nat.le_of_eq nextCall.symm) recorders (by rw [same]) (by rw [same]) moves
  refine sound.later grows ?_ ?_ ?_ ?_ presses ?_ ?_ ?_ ?_ returned
  · rw [same]
    exact fun _ => .inl
  · rw [same, inOrder_of_same (stopped_of_same recorders)]
    exact sound.order
  · rw [same]
    exact fun _ _ => .inl
  · rw [same]
    exact fun _ => .inl
  · rw [recorders, nextCall]
    exact sound.recorded
  · rw [media, recorders]
    exact sound.media
  · intro held found
    obtain nothingHeld | kept := take
    · rw [nothingHeld] at found
      cases found
    · exact (sound.take held (kept ▸ found)).later grows
  · have pending := sound.chunks.pending
    rw [← same] at pending
    exact sound.chunks.same (stopped_of_same recorders) (by rw [recorders]; exact sound.chunks.owns)
      (by rw [same]) (by rw [same]) (by rw [same]) (by rw [same]) pending

theorem Sound.finish (sound : Sound studio) (call : CallId) : Sound (studio.finish call) := by
  refine sound.page rfl rfl rfl (moves_of_finish studio call) ?_ rfl (.inr rfl) fun _ => .inl
  intro other press found
  by_cases same : other = call
  · subst same
    replace found : studio.presses.remove other other = some press := found
    rw [Table.remove_self] at found
    cases found
  · exact .inl ((Table.remove_other same).symm.trans found)

/-- The flags and the clock. -/
theorem Sound.flags (sound : Sound studio) (isRecording isStarting stopRequested : Bool) (clock : Int) :
    Sound { studio with
      isRecording := isRecording, isStarting := isStarting, stopRequested := stopRequested
      clock := clock } :=
  sound.page rfl rfl rfl (fun _ _ => .inl rfl) (fun _ _ => .inl) rfl (.inr rfl) fun _ => .inl

theorem Sound.noTake (sound : Sound studio) : Sound { studio with take := none } :=
  sound.page rfl rfl rfl (fun _ _ => .inl rfl) (fun _ _ => .inl) rfl (.inl rfl) fun _ => .inl

/-- A press sends the worker its first message. -/
theorem Sound.called (sound : Sound studio)
    (first : message = .start studio.nextCall ∨ message = .stop studio.nextCall)
    (fine : press.Fine studio studio.nextCall) :
    Sound { studio with
      worker := studio.worker.post message
      presses := studio.presses.put studio.nextCall press
      nextCall := studio.nextCall + 1 } := by
  have onWay : (studio.worker.post message).onWay = studio.worker.onWay := by
    obtain rfl | rfl := first <;> simp [Worker.onWay, Worker.post]
  have sent : message.Fine studio ∧ ∀ claim ∈ studio.worker.inbox, studio.InOrder claim message := by
    obtain rfl | rfl := first <;> refine ⟨trivial, fun claim _ call take endedAt chunk _ same => ?_⟩ <;>
      cases same
  have grows : studio.Grows { studio with
      worker := studio.worker.post message
      presses := studio.presses.put studio.nextCall press
      nextCall := studio.nextCall + 1 } :=
    grows_of_moves (Nat.le_succ _) rfl rfl rfl fun other below =>
      .inl (Table.put_other (Nat.ne_of_lt below))
  refine sound.later grows ?_ ?_ (fun _ _ => .inl) (fun _ => .inl) ?_ ?_ sound.media
    (fun take found => (sound.take take found).later grows) ?_ fun _ => .inl
  · intro each member
    obtain old | new := List.mem_append.mp member
    · exact .inl old
    · rw [List.mem_singleton] at new
      subst new
      exact .inr (sent.1.later grows)
  · refine List.pairwise_append.mpr ⟨sound.order, List.pairwise_singleton _ _, ?_⟩
    intro claim before last member
    rw [List.mem_singleton] at member
    subst member
    exact sent.2 claim before
  · intro other waiting found
    obtain ⟨rfl, rfl⟩ | ⟨_, before⟩ := Table.put_cases found
    · exact .inr ⟨Nat.lt_succ_self _, fine.later grows (Table.put_self)⟩
    · exact .inl before
  · intro recorder each found
    exact Nat.lt_succ_of_lt (sound.recorded recorder each found)
  · exact sound.chunks.same rfl sound.chunks.owns rfl rfl onWay rfl sound.chunks.pending

theorem Sound.startRecording (sound : Sound studio) (sessionId : Option JsString) :
    Sound (startRecording studio sessionId) := by
  have absent : studio.recorders studio.nextCall = none := by
    cases found : studio.recorders studio.nextCall with
    | none => rfl
    | some each => exact absurd (sound.recorded _ each found) (Nat.lt_irrefl _)
  have fine : (Press.starting sessionId).Fine studio studio.nextCall := absent
  have called := sound.called (.inl rfl) fine
  exact called.flags true true false studio.clock

theorem Sound.stopRecording (sound : Sound studio) : Sound (stopRecording studio) := by
  have fine : (Press.stopping studio.take studio.clock).Fine studio studio.nextCall :=
    fun each inside => sound.take each inside
  have called := sound.called (.inr rfl) fine
  exact called.noTake.flags false studio.isStarting studio.stopRequested studio.clock

/-! ## The recorders -/

theorem Studio.Owns.same_call {first second : CallId} (one : studio.Owns first filename)
    (two : studio.Owns second filename) : first = second := by
  obtain ⟨chunks, found⟩ := one
  obtain ⟨others, there⟩ := two
  rw [found] at there
  cases there
  rfl

/-- The recorder is known by its file. -/
theorem Sound.same_recorder (sound : Sound studio) {first second : CallId} {one two : MediaRecorder}
    (foundFirst : studio.recorders first = some one) (foundSecond : studio.recorders second = some two)
    (named : one.take.filename = two.take.filename) : first = second := by
  have owns := sound.chunks.owns first one foundFirst
  rw [named] at owns
  exact owns.same_call (sound.chunks.owns second two foundSecond)

/-- A recorder goes on, for the take it has. -/
theorem grows_of_recorder {each later : MediaRecorder} (found : studio.recorders recorder = some each)
    (take : later.take = each.take) (state : each.state = .stopped → later.state = .stopped)
    (recorders : next.recorders = studio.recorders.put recorder later)
    (calls : next.nextCall = studio.nextCall) (files : next.worker.files = studio.worker.files)
    (writing : next.worker.writing = studio.worker.writing) (presses : next.presses = studio.presses) :
    studio.Grows next := by
  refine ⟨Nat.le_of_eq calls.symm, ?_, ?_, ?_, ?_, ?_⟩
  · intro other before there
    rw [recorders]
    by_cases same : other = recorder
    · subst same
      rw [found] at there
      cases there
      exact ⟨later, Table.put_self, take, state⟩
    · exact ⟨before, (Table.put_other same).trans there, rfl, id⟩
  · rw [files]
    exact fun name file there => ⟨file, there, rfl, fun _ => rfl⟩
  · rw [writing]
    exact fun chunk member _ _ => .inl member
  · rw [presses]
    exact fun _ _ _ => id
  · intro other absent
    have different : other ≠ recorder := by
      intro same
      rw [same, found] at absent
      cases absent
    rw [recorders]
    exact .inl ((Table.put_other different).trans absent)

theorem takes_of_recorder {each later other : MediaRecorder}
    (found : studio.recorders recorder = some each) (take : later.take = each.take)
    (there : studio.recorders.put recorder later call = some other) :
    ∃ earlier, studio.recorders call = some earlier ∧ other.take = earlier.take := by
  obtain ⟨rfl, rfl⟩ | ⟨_, before⟩ := Table.put_cases there
  · exact ⟨each, found, take⟩
  · exact ⟨other, before, rfl⟩

theorem Sound.stopRecorder (sound : Sound studio)
    (recording : studio.recorders recorder = some ⟨take, .recording⟩) :
    Sound (studio.stopRecorder recorder) := by
  have put : (studio.stopRecorder recorder).recorders =
      studio.recorders.put recorder ⟨take, .stopping⟩ := Table.modify_eq_put recording _
  have stopped : (studio.stopRecorder recorder).Stopped = studio.Stopped := by
    funext other captured
    unfold Studio.Stopped
    rw [put]
    by_cases same : other = recorder
    · subst same
      rw [Table.put_self, recording]
      simp
    · rw [Table.put_other same]
  have kept : (⟨take, .stopping⟩ : MediaRecorder).take = (⟨take, .recording⟩ : MediaRecorder).take := rfl
  have grows : studio.Grows (studio.stopRecorder recorder) :=
    grows_of_recorder recording kept (fun state => by cases state) put rfl rfl rfl rfl
  refine sound.later grows (fun _ => .inl) ?_ (fun _ _ => .inl) (fun _ => .inl) (fun _ _ => .inl) ?_ ?_
    (fun held found => (sound.take held found).later grows) ?_ fun _ => .inl
  · rw [inOrder_of_same stopped]
    exact sound.order
  · intro other each found
    rw [put] at found
    obtain ⟨earlier, there, _⟩ := takes_of_recorder recording kept found
    exact sound.recorded other earlier there
  · intro other found
    cases found
  · refine sound.chunks.same stopped ?_ rfl rfl rfl rfl sound.chunks.pending
    intro other each found
    rw [put] at found
    obtain ⟨earlier, there, same⟩ := takes_of_recorder recording kept found
    rw [same]
    exact sound.chunks.owns other earlier there

/-- A recorder starts for the file of its press. -/
theorem Sound.recording (sound : Sound studio) (waits : studio.presses call = none)
    (below : call < studio.nextCall) (absent : studio.recorders call = none)
    (owns : studio.Owns call take.filename) :
    Sound { studio with
      recorders := studio.recorders.put call ⟨take, .recording⟩
      mediaRecorder := some call
      take := some take } := by
  have others (other : CallId) (different : other ≠ call) :
      studio.recorders.put call ⟨take, .recording⟩ other = studio.recorders other :=
    Table.put_other different
  have stopped : Studio.Stopped { studio with
      recorders := studio.recorders.put call ⟨take, .recording⟩
      mediaRecorder := some call
      take := some take } = studio.Stopped := by
    funext other captured
    unfold Studio.Stopped
    by_cases same : other = call
    · subst same
      rw [absent]
      simp
    · rw [← others other same]
  have grows : studio.Grows { studio with
      recorders := studio.recorders.put call ⟨take, .recording⟩
      mediaRecorder := some call
      take := some take } := by
    refine ⟨Nat.le_refl _, ?_, ?_, fun _ member _ _ => .inl member, fun _ _ _ => id, ?_⟩
    · intro other each found
      have different : other ≠ call := by
        intro same
        rw [same, absent] at found
        cases found
      exact ⟨each, (others other different).trans found, rfl, id⟩
    · exact fun name file found => ⟨file, found, rfl, fun _ => rfl⟩
    · intro other gone
      by_cases same : other = call
      · subst same
        exact .inr waits
      · exact .inl ((others other same).trans gone)
  refine sound.later grows (fun _ => .inl) ?_ (fun _ _ => .inl) (fun _ => .inl) (fun _ _ => .inl) ?_ ?_
    ?_ ?_ fun _ => .inl
  · rw [inOrder_of_same stopped]
    exact sound.order
  · intro other each found
    obtain ⟨rfl, _⟩ | ⟨_, there⟩ := Table.put_cases found
    · exact below
    · exact sound.recorded other each there
  · intro other found
    cases found
    exact ⟨take, Table.put_self⟩
  · intro held found
    cases found
    exact ⟨call, .recording, Table.put_self⟩
  · refine sound.chunks.same stopped ?_ rfl rfl rfl rfl sound.chunks.pending
    intro other each found
    obtain ⟨rfl, rfl⟩ | ⟨_, there⟩ := Table.put_cases found
    · exact owns
    · exact sound.chunks.owns other each there

theorem Sound.record {sessionId : Option JsString} (sound : Sound studio)
    (waits : studio.presses call = some (.openingMicrophone sessionId filename)) :
    Sound ((record studio call sessionId filename).started call) := by
  obtain ⟨below, absent, owns⟩ := sound.presses call _ waits
  have recording := @Sound.recording (studio.finish call) call ⟨filename, studio.clock, sessionId⟩
    (sound.finish call) Table.remove_self below absent owns
  unfold Recorder.record
  split
  · have stopped := @Sound.stopRecorder _ call ⟨filename, studio.clock, sessionId⟩ recording
      Table.put_self
    exact stopped.noTake.flags studio.isRecording false false studio.clock
  · exact recording.flags studio.isRecording false false studio.clock

/-! ## What the page receives -/

/-- A press that does not wait for a claim awaits something else. -/
theorem Sound.awaits {later : Press} (sound : Sound studio) (found : studio.presses call = some press)
    (different : ∀ recorder, press ≠ .claiming recorder) (fine : later.Fine studio call) :
    Sound { studio with presses := studio.presses.put call later } := by
  have moves := moves_of_put found different later
  have grows : studio.Grows { studio with presses := studio.presses.put call later } :=
    grows_of_moves (Nat.le_refl _) rfl rfl rfl moves
  refine sound.page rfl rfl rfl moves ?_ rfl (.inr rfl) fun _ => .inl
  intro other waiting there
  obtain ⟨rfl, rfl⟩ | ⟨_, before⟩ := Table.put_cases there
  · exact .inr ⟨(sound.presses other press found).1, fine.later grows Table.put_self⟩
  · exact .inl before

theorem Sound.afterStop {endedAt : Int} {captured : Option Take} (sound : Sound studio)
    (found : studio.presses call = some (.stopping captured endedAt))
    (same : ∀ take ∈ captured, ∀ recorder each, studio.mediaRecorder = some recorder →
      studio.recorders recorder = some each → take.filename = each.take.filename) :
    Sound (afterStop studio call captured endedAt) := by
  unfold Recorder.afterStop
  cases media : studio.mediaRecorder with
  | none =>
      exact (sound.finish call).flags studio.isRecording studio.isStarting _ studio.clock
  | some recorder =>
      obtain ⟨take, recording⟩ := sound.media recorder media
      have stopping := sound.stopRecorder recording
      refine stopping.awaits found ?_ ?_
      · intro other claiming
        cases claiming
      · refine ⟨⟨take, .stopping⟩, ?_, ?_⟩
        · simp [Studio.stopRecorder, Table.modify, recording]
        · intro each inside
          obtain ⟨other, state, known⟩ := (sound.presses call _ found).2 each inside
          have named := same each inside recorder _ media recording
          have one := sound.same_recorder known recording named
          subst one
          rw [known] at recording
          cases recording
          rfl

theorem Sound.afterReply (sound : Sound studio) (fine : reply.Fine studio)
    (same : ∀ call take endedAt recorder each, reply = .stopped call →
      studio.presses call = some (.stopping (some take) endedAt) →
        studio.mediaRecorder = some recorder → studio.recorders recorder = some each →
          take.filename = each.take.filename) : Sound (afterReply studio reply) := by
  unfold Recorder.afterReply
  split
  · split
    · rename_i call filename _ sessionId found
      refine sound.awaits found (fun _ claiming => by cases claiming) ?_
      exact ⟨(sound.presses call _ found).2, fine⟩
    · exact sound
  · split
    · rename_i call _ sessionId found
      exact (sound.finish call).flags false false false studio.clock
    · exact sound
  · split
    · rename_i call _ captured endedAt found
      refine sound.afterStop found fun take inside recorder each => ?_
      rw [Option.mem_def] at inside
      subst inside
      exact same call take endedAt recorder each rfl found
    · exact sound
  · split
    · rename_i call claim _ recorder found
      refine (sound.finish call).page rfl rfl rfl (fun _ _ => .inl rfl) (fun _ _ => .inl) rfl (.inr rfl)
        fun returned member => ?_
      obtain old | new := List.mem_append.mp member
      · exact .inl old
      · rw [List.mem_map] at new
        obtain ⟨each, inside, rfl⟩ := new
        rw [Option.mem_toList] at inside
        subst inside
        obtain ⟨other, take, asked, of⟩ := fine
        have claiming := asked.waits _ found
        cases claiming
        exact .inr ⟨take, asked.stopped, of⟩
    · exact sound

/-! ## What a recorder leaves -/

theorem Studio.Chunks.nothing_onWay (chunks : studio.Chunks)
    (stopping : studio.recorders recorder = some ⟨take, .stopping⟩)
    (handle : studio.worker.accessHandle = some take.filename) : studio.worker.onWay = [] := by
  obtain nothingHeld | ⟨chunk, other, _, stopped, held, empty⟩ := chunks.way
  · exact nothingHeld
  · have named : take.filename = other.filename := Option.some.inj (handle.symm.trans held)
    have owns := chunks.owns recorder _ stopping
    rw [named] at owns
    have same := owns.same_call ⟨[], empty⟩
    subst same
    rw [Studio.Stopped, stopping] at stopped
    cases stopped

theorem Studio.Chunks.nothing_written (chunks : studio.Chunks)
    (stopping : studio.recorders recorder = some ⟨take, .stopping⟩) :
    studio.worker.files take.filename = some ⟨recorder, []⟩ := by
  obtain ⟨held, found⟩ := chunks.owns recorder _ stopping
  obtain empty | ⟨_, other, stopped, _⟩ := chunks.content _ _ found
  · replace empty : held = [] := empty
    rw [found, empty]
  · replace stopped : studio.recorders recorder = _ := stopped
    rw [stopping] at stopped
    cases stopped

theorem onWay_post (message : Message) : (worker.post message).onWay = worker.onWay ++
    (match message with
    | .write chunk => [chunk]
    | _ => []) := by
  cases message <;> simp [Worker.onWay, Worker.post]

theorem Worker.not_onWay (nothing : worker.onWay = []) :
    worker.writing = [] ∧ ∀ chunk, Message.write chunk ∉ worker.inbox := by
  rw [Worker.onWay, List.append_eq_nil_iff] at nothing
  refine ⟨nothing.1, fun chunk member => ?_⟩
  have nothingHeld := List.filterMap_eq_nil_iff.mp nothing.2 _ member
  cases nothingHeld

theorem Sound.stopEvent (sound : Sound studio)
    (stopping : studio.recorders recorder = some ⟨take, .stopping⟩)
    (handle : studio.worker.accessHandle = some take.filename) :
    Sound { studio with
      recorders := studio.recorders.put recorder ⟨take, .stopped⟩
      worker := studio.worker.post (.write recorder) } := by
  have nothing := sound.chunks.nothing_onWay stopping handle
  have unsent := (Worker.not_onWay nothing).2
  have kept : (⟨take, .stopped⟩ : MediaRecorder).take = (⟨take, .stopping⟩ : MediaRecorder).take := rfl
  have grows : studio.Grows { studio with
      recorders := studio.recorders.put recorder ⟨take, .stopped⟩
      worker := studio.worker.post (.write recorder) } :=
    grows_of_recorder stopping kept (fun _ => rfl) rfl rfl rfl rfl rfl
  refine sound.later grows ?_ ?_ (fun _ _ => .inl) (fun _ => .inl) (fun _ _ => .inl) ?_ ?_
    (fun held found => (sound.take held found).later grows) ?_ fun _ => .inl
  · intro message member
    obtain old | new := List.mem_append.mp member
    · exact .inl old
    · rw [List.mem_singleton] at new
      subst new
      exact .inr ⟨take, Table.put_self⟩
  · -- No chunk is in the inbox. No claim is for a recorder that has not stopped.
    refine List.pairwise_append.mpr ⟨?_, List.pairwise_singleton _ _, ?_⟩
    · refine sound.order.imp_of_mem fun _ member _ call take endedAt chunk _ write => ?_
      subst write
      exact absurd member (unsent chunk)
    · intro claim member message last call claimed endedAt chunk asks write
      rw [List.mem_singleton] at last
      subst asks last
      cases write
      obtain ⟨other, asked⟩ := sound.inbox _ member
      intro stopped
      have found := asked.stopped
      replace stopped : studio.recorders.put recorder ⟨take, .stopped⟩ recorder = _ := stopped
      rw [Table.put_self] at stopped
      cases stopped
      have same := sound.same_recorder found stopping rfl
      subst same
      rw [Studio.Stopped, stopping] at found
      cases found
  · intro other each found
    obtain ⟨earlier, there, _⟩ := takes_of_recorder stopping kept found
    exact sound.recorded other earlier there
  · intro other found
    obtain ⟨held, recording⟩ := sound.media other found
    have different : other ≠ recorder := by
      rintro rfl
      rw [stopping] at recording
      cases recording
    exact ⟨held, (Table.put_other different).trans recording⟩
  · have onWay : (studio.worker.post (.write recorder)).onWay = [recorder] := by
      rw [onWay_post, nothing, List.nil_append]
    refine ⟨sound.chunks.new, ?_, ?_, ?_, ?_, sound.chunks.pending⟩
    · intro other each found
      obtain ⟨earlier, there, same⟩ := takes_of_recorder stopping kept found
      rw [same]
      exact sound.chunks.owns other earlier there
    · intro name file found
      obtain empty | ⟨only, held, stopped, named⟩ := sound.chunks.content name file found
      · exact .inl empty
      · exact .inr ⟨only, held, stopped.later grows, named⟩
    · exact .inr ⟨recorder, take, onWay, Table.put_self, handle, sound.chunks.nothing_written stopping⟩
    · intro chunk held stopped
      obtain ⟨rfl, _⟩ | ⟨_, there⟩ := Table.put_cases stopped
      · exact .inl (by simp [onWay])
      · obtain way | written := sound.chunks.received chunk held there
        · rw [nothing] at way
          cases way
        · exact .inr written

/-- The claim is asked for when the recorder has stopped. -/
theorem Sound.claiming {endedAt : Int} (sound : Sound studio)
    (found : studio.presses call = some (.flushing (some take) endedAt recorder))
    (turned : (studio.recorders recorder).map MediaRecorder.state = some .stopped) :
    Sound { studio with
      worker := studio.worker.post (.claim call take endedAt)
      presses := studio.presses.put call (.claiming recorder) } := by
  obtain ⟨below, ⟨same, state⟩, known, captured⟩ := sound.presses call _ found
  have stopped : studio.Stopped recorder take := by
    replace captured : same = take := captured take rfl
    rw [known, Option.map_some, Option.some.injEq] at turned
    replace turned : state = .stopped := turned
    rw [Studio.Stopped, known, captured, turned]
  have moves : studio.Moves { studio with
      worker := studio.worker.post (.claim call take endedAt)
      presses := studio.presses.put call (.claiming recorder) } :=
    moves_of_put found (fun _ claiming => by cases claiming) (.claiming recorder)
  have grows : studio.Grows { studio with
      worker := studio.worker.post (.claim call take endedAt)
      presses := studio.presses.put call (.claiming recorder) } :=
    grows_of_moves (Nat.le_refl _) rfl rfl rfl moves
  refine sound.later grows ?_ ?_ (fun _ _ => .inl) (fun _ => .inl) ?_ sound.recorded sound.media
    sound.take ?_ fun _ => .inl
  · intro message member
    obtain old | new := List.mem_append.mp member
    · exact .inl old
    · rw [List.mem_singleton] at new
      subst new
      refine .inr ⟨recorder, stopped, below, fun press waits => ?_⟩
      replace waits : studio.presses.put call (.claiming recorder) call = some press := waits
      rw [Table.put_self] at waits
      cases waits
      rfl
  · refine List.pairwise_append.mpr ⟨sound.order, List.pairwise_singleton _ _, ?_⟩
    intro claim _ message last _ _ _ chunk _ write
    rw [List.mem_singleton] at last
    subst last
    cases write
  · intro other press waits
    obtain ⟨rfl, rfl⟩ | ⟨_, there⟩ := Table.put_cases waits
    · exact .inr ⟨below, trivial⟩
    · exact .inl there
  · refine sound.chunks.same rfl sound.chunks.owns rfl rfl ?_ rfl sound.chunks.pending
    exact (onWay_post _).trans (List.append_nil _)

end Tapes.Recorder
