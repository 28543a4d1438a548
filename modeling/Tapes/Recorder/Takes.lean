import Tapes.Recorder.RecordButton

namespace Tapes.Recorder

open Tapes.Js Tapes.Machine

/-! What holds of the messages, handlers and presses of takes that keep apart, and what a step must
leave for it to hold still. -/

variable {studio next : Studio} {call recorder chunk : CallId} {filename : FileId} {take : Take}
  {press : Press} {message : Message} {handler : Handler} {reply : Reply}

/-! ## What a message, a handler or a press relies on -/

/-- The file was made for the start. -/
def Studio.Owns (studio : Studio) (call : CallId) (filename : FileId) : Prop :=
  ∃ chunks, studio.worker.files filename = some ⟨call, chunks⟩

def Studio.Stopped (studio : Studio) (recorder : CallId) (take : Take) : Prop :=
  studio.recorders recorder = some ⟨take, .stopped⟩

def Studio.Written (studio : Studio) (recorder : CallId) (take : Take) : Prop :=
  studio.worker.files take.filename = some ⟨recorder, [recorder]⟩

def Studio.Known (studio : Studio) (take : Take) : Prop :=
  ∃ recorder state, studio.recorders recorder = some ⟨take, state⟩

/-- A claim for the take is under way, or it has been. -/
structure Studio.Asked (studio : Studio) (call : CallId) (take : Take) (recorder : CallId) : Prop where
  stopped : studio.Stopped recorder take
  old : call < studio.nextCall
  waits : ∀ press, studio.presses call = some press → press = .claiming recorder

def Message.Fine (studio : Studio) : Message → Prop
  | .start _ | .stop _ => True
  | .write chunk => ∃ take, studio.Stopped chunk take
  | .claim call take _ => ∃ recorder, studio.Asked call take recorder

def Handler.Fine (studio : Studio) (call : CallId) : Handler → Prop
  | .creatingFile => True
  | .openingHandle filename => studio.Owns call filename
  | .awaitingWrite take _ write => ∃ recorder, studio.Asked call take recorder ∧
      (studio.Written recorder take ∨ recorder ∈ studio.worker.writing ∧ write = some recorder)
  | .signing take _ => ∃ recorder, studio.Asked call take recorder ∧ studio.Written recorder take
  | .hashing take _ content => ∃ recorder, studio.Asked call take recorder ∧
      studio.Written recorder take ∧ content = [recorder]

def Claim.Of (claim : Claim) (studio : Studio) (recorder : CallId) (take : Take) : Prop :=
  studio.Written recorder take ∧ claim.content = [recorder] ∧ claim.startedAt = take.startedAt ∧
    claim.sessionId = take.sessionId

def Reply.Fine (studio : Studio) : Reply → Prop
  | .started call (some filename) => studio.Owns call filename
  | .claimed call (some claim) => ∃ recorder take, studio.Asked call take recorder ∧
      claim.Of studio recorder take
  | .started _ none | .claimed _ none | .stopped _ => True

def Press.Fine (studio : Studio) (call : CallId) : Press → Prop
  | .starting _ => studio.recorders call = none
  | .openingMicrophone _ filename => studio.recorders call = none ∧ studio.Owns call filename
  | .stopping take _ => ∀ each ∈ take, studio.Known each
  | .flushing take _ recorder => ∃ each, studio.recorders recorder = some each ∧
      ∀ captured ∈ take, each.take = captured
  | .claiming _ => True

/-! ## What a step leaves -/

/-- Files, recorders and requests are what they were, but for what they have still to become. -/
structure Studio.Grows (studio next : Studio) : Prop where
  calls : studio.nextCall ≤ next.nextCall
  recorders : ∀ recorder each, studio.recorders recorder = some each →
    ∃ later, next.recorders recorder = some later ∧ later.take = each.take ∧
      (each.state = .stopped → later.state = .stopped)
  files : ∀ filename file, studio.worker.files filename = some file →
    ∃ later, next.worker.files filename = some later ∧ later.start = file.start ∧
      (file.chunks = [file.start] → later.chunks = file.chunks)
  writing : ∀ chunk ∈ studio.worker.writing, ∀ take, studio.Stopped chunk take →
    chunk ∈ next.worker.writing ∨ next.Written chunk take
  waits : ∀ call < studio.nextCall, ∀ recorder,
    (∀ press, studio.presses call = some press → press = .claiming recorder) →
      ∀ press, next.presses call = some press → press = .claiming recorder
  unrecorded : ∀ call, studio.recorders call = none →
    next.recorders call = none ∨ next.presses call = none

theorem Studio.Owns.later (owns : studio.Owns call filename) (grows : studio.Grows next) :
    next.Owns call filename := by
  obtain ⟨chunks, found⟩ := owns
  obtain ⟨⟨start, more⟩, there, same, _⟩ := grows.files filename _ found
  replace same : start = call := same
  subst same
  exact ⟨more, there⟩

theorem Studio.Stopped.later (stopped : studio.Stopped recorder take) (grows : studio.Grows next) :
    next.Stopped recorder take := by
  obtain ⟨⟨same, state⟩, found, rfl, still⟩ := grows.recorders recorder _ stopped
  replace still : state = .stopped := still rfl
  subst still
  exact found

theorem Studio.Written.later (written : studio.Written recorder take) (grows : studio.Grows next) :
    next.Written recorder take := by
  obtain ⟨⟨start, chunks⟩, found, same, kept⟩ := grows.files take.filename _ written
  replace same : start = recorder := same
  replace kept : chunks = [recorder] := kept rfl
  subst same kept
  exact found

theorem Studio.Known.later (known : studio.Known take) (grows : studio.Grows next) :
    next.Known take := by
  obtain ⟨recorder, state, found⟩ := known
  obtain ⟨⟨same, later⟩, there, rfl, _⟩ := grows.recorders recorder _ found
  exact ⟨recorder, later, there⟩

theorem Studio.Asked.later (asked : studio.Asked call take recorder) (grows : studio.Grows next) :
    next.Asked call take recorder :=
  ⟨asked.stopped.later grows, Nat.lt_of_lt_of_le asked.old grows.calls,
    grows.waits call asked.old recorder asked.waits⟩

theorem Message.Fine.later (fine : message.Fine studio) (grows : studio.Grows next) :
    message.Fine next := by
  cases message with
  | start | stop => trivial
  | write chunk =>
      obtain ⟨take, stopped⟩ := fine
      exact ⟨take, stopped.later grows⟩
  | claim call take endedAt =>
      obtain ⟨recorder, asked⟩ := fine
      exact ⟨recorder, asked.later grows⟩

theorem Handler.Fine.later (fine : handler.Fine studio call) (grows : studio.Grows next) :
    handler.Fine next call := by
  cases handler with
  | creatingFile => trivial
  | openingHandle filename => exact Studio.Owns.later fine grows
  | awaitingWrite take endedAt write =>
      obtain ⟨recorder, asked, written | ⟨writing, awaited⟩⟩ := fine
      · exact ⟨recorder, asked.later grows, .inl (written.later grows)⟩
      · obtain still | written := grows.writing recorder writing take asked.stopped
        · exact ⟨recorder, asked.later grows, .inr ⟨still, awaited⟩⟩
        · exact ⟨recorder, asked.later grows, .inl written⟩
  | signing take endedAt =>
      obtain ⟨recorder, asked, written⟩ := fine
      exact ⟨recorder, asked.later grows, written.later grows⟩
  | hashing take endedAt content =>
      obtain ⟨recorder, asked, written, same⟩ := fine
      exact ⟨recorder, asked.later grows, written.later grows, same⟩

theorem Claim.Of.later {claim : Claim} (of : claim.Of studio recorder take)
    (grows : studio.Grows next) : claim.Of next recorder take :=
  ⟨of.1.later grows, of.2⟩

theorem Reply.Fine.later (fine : reply.Fine studio) (grows : studio.Grows next) :
    reply.Fine next := by
  cases reply with
  | started call filename =>
      cases filename with
      | none => trivial
      | some filename => exact Studio.Owns.later fine grows
  | stopped call => trivial
  | claimed call claim =>
      cases claim with
      | none => trivial
      | some claim =>
          obtain ⟨recorder, take, asked, of⟩ := fine
          exact ⟨recorder, take, asked.later grows, of.later grows⟩

theorem Press.Fine.later (fine : press.Fine studio call) (grows : studio.Grows next)
    (waits : next.presses call = some press) : press.Fine next call := by
  have unrecorded (absent : studio.recorders call = none) : next.recorders call = none := by
    obtain still | gone := grows.unrecorded call absent
    · exact still
    · rw [waits] at gone
      cases gone
  cases press with
  | starting sessionId => exact unrecorded fine
  | openingMicrophone sessionId filename => exact ⟨unrecorded fine.1, fine.2.later grows⟩
  | stopping take endedAt => exact fun each inside => (fine each inside).later grows
  | flushing take endedAt recorder =>
      obtain ⟨each, found, captured⟩ := fine
      obtain ⟨later, there, same, _⟩ := grows.recorders recorder each found
      exact ⟨later, there, fun other inside => same.trans (captured other inside)⟩
  | claiming recorder => trivial

/-! ## The invariant -/

/-- One chunk at most is on its way, its file's handle is the worker's, and the file is empty. -/
def Studio.OneOnWay (studio : Studio) : Prop :=
  studio.worker.onWay = [] ∨ ∃ chunk take, studio.worker.onWay = [chunk] ∧
    studio.Stopped chunk take ∧ studio.worker.accessHandle = some take.filename ∧
      studio.worker.files take.filename = some ⟨chunk, []⟩

/-- The files and the chunks. -/
structure Studio.Chunks (studio : Studio) : Prop where
  new : ∀ filename file, studio.worker.files filename = some file → filename < studio.worker.nextFile
  owns : ∀ recorder each, studio.recorders recorder = some each →
    studio.Owns recorder each.take.filename
  content : ∀ filename file, studio.worker.files filename = some file → file.chunks = [] ∨
    file.chunks = [file.start] ∧ ∃ take, studio.Stopped file.start take ∧ take.filename = filename
  way : studio.OneOnWay
  received : ∀ chunk take, studio.Stopped chunk take →
    chunk ∈ studio.worker.onWay ∨ studio.Written chunk take
  pending : ∀ chunk ∈ studio.worker.writing, studio.worker.pendingWrite = some chunk

/-- A chunk is not behind the claim for its take. -/
def Studio.InOrder (studio : Studio) (first second : Message) : Prop :=
  ∀ call take endedAt chunk, first = .claim call take endedAt → second = .write chunk →
    ¬ studio.Stopped chunk take

structure Sound (studio : Studio) : Prop where
  inbox : ∀ message ∈ studio.worker.inbox, message.Fine studio
  order : studio.worker.inbox.Pairwise studio.InOrder
  handlers : ∀ call handler, studio.worker.handlers call = some handler → handler.Fine studio call
  outbox : ∀ reply ∈ studio.worker.outbox, reply.Fine studio
  presses : ∀ call press, studio.presses call = some press →
    call < studio.nextCall ∧ press.Fine studio call
  recorded : ∀ recorder each, studio.recorders recorder = some each → recorder < studio.nextCall
  media : ∀ recorder, studio.mediaRecorder = some recorder →
    ∃ take, studio.recorders recorder = some ⟨take, .recording⟩
  take : ∀ take, studio.take = some take → studio.Known take
  chunks : studio.Chunks
  returned : ∀ returned ∈ studio.returned, ∃ take, studio.Stopped returned.1 take ∧
    returned.2.Of studio returned.1 take

theorem Sound.neverMixed (sound : Sound studio) : NeverMixed studio := by
  refine ⟨?_, sound.chunks.received, ?_⟩
  · intro filename file found chunk member
    obtain empty | ⟨only, take, stopped, named⟩ := sound.chunks.content filename file found
    · rw [empty] at member
      cases member
    · rw [only, List.mem_singleton] at member
      subst member
      exact ⟨⟨take, .stopped⟩, stopped, named, rfl⟩
  · intro returned member
    obtain ⟨take, stopped, written, same⟩ := sound.returned returned member
    exact ⟨⟨take, .stopped⟩, stopped, written, same⟩

end Tapes.Recorder
