import Tapes.Recorder.TakeWorker

namespace Tapes.Recorder

open Tapes.Js Tapes.Machine

/-! The page of the web recorder with its worker: the presses of the record button, what the page
awaits in each, and the recorders. -/

/-- A press between two of its steps, named for what it awaits. -/
inductive Press where
  | starting (sessionId : Option JsString)
  | openingMicrophone (sessionId : Option JsString) (filename : FileId)
  | stopping (take : Option Take) (endedAt : Int)
  | flushing (take : Option Take) (endedAt : Int) (recorder : CallId)
  | claiming (recorder : CallId)
deriving DecidableEq

inductive RecorderState where
  | recording
  | stopping
  | stopped
deriving DecidableEq

/-- `take` is what it records for: the file of its start's reply, and when and in which session it was
started. -/
structure MediaRecorder where
  take : Take
  state : RecorderState
deriving DecidableEq

/-- `returned` are the claims that presses have returned, with the recorder that each has stopped. -/
structure Studio where
  worker : Worker
  presses : Table CallId Press
  nextCall : CallId
  isRecording : Bool
  isStarting : Bool
  stopRequested : Bool
  mediaRecorder : Option CallId
  take : Option Take
  recorders : Table CallId MediaRecorder
  clock : Int
  returned : List (CallId × Claim)

def Studio.new : Studio := ⟨.new, .empty, 0, false, false, false, none, none, .empty, 0, []⟩

def Studio.finish (studio : Studio) (call : CallId) : Studio :=
  { studio with presses := studio.presses.remove call }

/-- The `finally` of a start. -/
def Studio.started (studio : Studio) (call : CallId) : Studio :=
  { studio.finish call with isStarting := false, stopRequested := false }

/-- The stop event comes later. -/
def Studio.stopRecorder (studio : Studio) (recorder : CallId) : Studio :=
  { studio with
    recorders := studio.recorders.modify recorder fun each => { each with state := .stopping }
    mediaRecorder := none }

def startRecording (studio : Studio) (sessionId : Option JsString) : Studio :=
  { studio with
    isRecording := true
    isStarting := true
    stopRequested := false
    worker := studio.worker.post (.start studio.nextCall)
    presses := studio.presses.put studio.nextCall (.starting sessionId)
    nextCall := studio.nextCall + 1 }

def stopRecording (studio : Studio) : Studio :=
  { studio with
    take := none
    isRecording := false
    worker := studio.worker.post (.stop studio.nextCall)
    presses := studio.presses.put studio.nextCall (.stopping studio.take studio.clock)
    nextCall := studio.nextCall + 1 }

/-- The worker has flushed the file. -/
def afterStop (studio : Studio) (call : CallId) (take : Option Take) (endedAt : Int) : Studio :=
  match studio.mediaRecorder with
  | some recorder =>
      let stopping := studio.stopRecorder recorder
      { stopping with presses := studio.presses.put call (.flushing take endedAt recorder) }
  | none =>
      -- While the microphone is opening, the start stops its recorder itself.
      { studio.finish call with stopRequested := studio.stopRequested || studio.isStarting }

/-- A reply reaches the press that waits for it. -/
def afterReply (studio : Studio) : Reply → Studio
  | .started call (some filename) => match studio.presses call with
      | some (.starting sessionId) => { studio with
          presses := studio.presses.put call (.openingMicrophone sessionId filename) }
      | _ => studio
  | .started call none => match studio.presses call with
      | some (.starting _) => { studio.started call with isRecording := false }
      | _ => studio
  | .stopped call => match studio.presses call with
      | some (.stopping take endedAt) => afterStop studio call take endedAt
      | _ => studio
  | .claimed call claim => match studio.presses call with
      | some (.claiming recorder) => { studio.finish call with
          returned := studio.returned ++ claim.toList.map fun each => (recorder, each) }
      | _ => studio

/-- The recorder of a start whose microphone has opened. -/
def record (studio : Studio) (call : CallId) (sessionId : Option JsString) (filename : FileId) :
    Studio :=
  let take : Take := ⟨filename, studio.clock, sessionId⟩
  let recording := { studio with
    recorders := studio.recorders.put call ⟨take, .recording⟩
    mediaRecorder := some call
    take := some take }
  if studio.stopRequested then { recording.stopRecorder call with take := none } else recording

inductive StudioAction where
  | press (sessionId : Option JsString)
  | tick (ms : Nat)
  | receive
  | microphone (call : CallId) (ok : Bool)
  /-- The last chunk and the stop event of a recorder. -/
  | stopEvent (recorder : CallId)
  /-- A press goes on when its recorder has stopped. -/
  | flushed (call : CallId)
  | handle
  | write (chunk : CallId)
  | resume (call : CallId) (ok : Bool)

def Studio.withWorker (studio : Studio) (worker : Worker) : Studio := { studio with worker := worker }

def studioStep (studio : Studio) : StudioAction → Option Studio
  | .press sessionId =>
      if studio.isRecording then some (stopRecording studio)
      else some (startRecording studio sessionId)
  | .tick ms => some { studio with clock := studio.clock + ms }
  | .receive => match studio.worker.outbox with
      | [] => none
      | reply :: rest => some (afterReply (studio.withWorker { studio.worker with outbox := rest }) reply)
  | .microphone call ok => match studio.presses call with
      | some (.openingMicrophone sessionId filename) =>
          if ok then some ((record studio call sessionId filename).started call)
          else some { studio.started call with isRecording := false }
      | _ => none
  | .stopEvent recorder => match studio.recorders recorder with
      | some ⟨take, .stopping⟩ => some { studio with
          recorders := studio.recorders.put recorder ⟨take, .stopped⟩
          worker := studio.worker.post (.write recorder) }
      | _ => none
  | .flushed call => match studio.presses call with
      | some (.flushing take endedAt recorder) =>
          if (studio.recorders recorder).map MediaRecorder.state = some .stopped then
            match take with
            | none => some (studio.finish call)
            | some take => some { studio with
                worker := studio.worker.post (.claim call take endedAt)
                presses := studio.presses.put call (.claiming recorder) }
          else none
      | _ => none
  | .handle => studio.worker.handle.map studio.withWorker
  | .write chunk => (studio.worker.write chunk).map studio.withWorker
  | .resume call ok => (studio.worker.resume call ok).map studio.withWorker

/-! ## Takes -/

/-- A chunk that is posted and not written. -/
def Worker.onWay (worker : Worker) : List CallId :=
  worker.writing ++ worker.inbox.filterMap fun message =>
    match message with
    | .write chunk => some chunk
    | _ => none

structure NeverMixed (studio : Studio) : Prop where
  own : ∀ filename file, studio.worker.files filename = some file → ∀ chunk ∈ file.chunks,
    ∃ recorder, studio.recorders chunk = some recorder ∧ recorder.take.filename = filename ∧
      file.start = chunk
  received : ∀ chunk take, studio.recorders chunk = some ⟨take, .stopped⟩ →
    chunk ∈ studio.worker.onWay ∨ studio.worker.files take.filename = some ⟨chunk, [chunk]⟩
  claims : ∀ returned ∈ studio.returned, ∃ recorder, studio.recorders returned.1 = some recorder ∧
    studio.worker.files recorder.take.filename = some ⟨returned.1, [returned.1]⟩ ∧
      returned.2.content = [returned.1] ∧ returned.2.startedAt = recorder.take.startedAt ∧
        returned.2.sessionId = recorder.take.sessionId

def TakesNeverMix (guard : Studio → StudioAction → Prop) : Prop :=
  ∀ studio, Reaches studioStep guard .new studio → NeverMixed studio

/-- The last chunk of a recorder finds the handle of its own file. No handle is replaced while a chunk
is on its way. And a stop finds the recorder of the take it was pressed in. -/
def TakesApart (studio : Studio) : StudioAction → Prop
  | .stopEvent recorder => ∀ each, studio.recorders recorder = some each →
      studio.worker.accessHandle = some each.take.filename
  | .resume call true => ∀ filename, studio.worker.handlers call = some (.openingHandle filename) →
      studio.worker.onWay = []
  | .receive => ∀ call rest take endedAt recorder each,
      studio.worker.outbox = .stopped call :: rest →
        studio.presses call = some (.stopping (some take) endedAt) →
          studio.mediaRecorder = some recorder → studio.recorders recorder = some each →
            take.filename = each.take.filename
  | _ => True

end Tapes.Recorder
