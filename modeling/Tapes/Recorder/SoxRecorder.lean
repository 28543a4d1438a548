import Tapes.Js.Text
import Tapes.Machine.Run
import Tapes.Machine.Table

namespace Tapes.Recorder.Sox

open Tapes.Js Tapes.Machine

/-! The desktop recorder: the record button, the one slot of the main process, and the sox processes.

A call is a request that the button has sent, and a sox process has the name of the start call that
spawned it.
-/

inductive Message where
  | start (call : Nat)
  | stop (call : Nat)
deriving DecidableEq

def Message.call : Message → Nat
  | .start call | .stop call => call

/-- The four fields that outlive a request. -/
structure SoxRecorder where
  filepath : Option JsString
  startedAt : Option JsString
  sessionId : Option JsString
  sox : Option Nat
deriving DecidableEq

def SoxRecorder.idle : SoxRecorder := ⟨none, none, none, none⟩

/-- A start that awaits `spawn` or `error`. -/
structure StartCall where
  sox : Nat
  filepath : JsString
  sessionId : Option JsString
deriving DecidableEq

structure RecordedTake where
  filepath : JsString
  startedAt : JsString
  endedAt : JsString
  sessionId : Option JsString
deriving DecidableEq

/-- A stop that awaits `close`, with what it has read from the slot. -/
structure StopCall where
  call : Nat
  sox : Nat
  take : RecordedTake
deriving DecidableEq

inductive Status where
  | spawning
  | failed
  | running
  | closed
deriving DecidableEq

/-- A sox process, with what its start was called with and when that resolved. -/
structure SoxProcess where
  status : Status
  filepath : JsString
  startedAt : Option JsString
  sessionId : Option JsString
deriving DecidableEq

inductive Signal where
  | interrupt
  | kill
deriving DecidableEq

inductive Answer where
  | started (success : Bool)
  | stopped (take : Option RecordedTake)
deriving DecidableEq

/-- The page and the main process. `inbox` are the requests on their way, in order, `answers` the
answers on their way, and `returned` the stops that have returned their take. -/
structure Desk where
  isRecording : Bool
  isEditorOpen : Bool
  inbox : List Message
  recorder : SoxRecorder
  starts : List StartCall
  stops : List StopCall
  answers : List (Nat × Answer)
  processes : Table Nat SoxProcess
  signals : List (Nat × Signal)
  returned : List StopCall
  nextCall : Nat

def Desk.new : Desk := ⟨false, false, [], .idle, [], [], [], .empty, [], [], 0⟩

inductive Action where
  /-- The button is pressed. -/
  | press
  /-- A request arrives: the path and the session are a start's, the time is a stop's. -/
  | deliver (filepath : JsString) (sessionId : Option JsString) (now : JsString)
  | spawned (sox : Nat) (now : JsString)
  | spawnFailed (sox : Nat)
  | closed (sox : Nat)
  /-- A stop has waited for `STOP_TIMEOUT_MS`. -/
  | giveUp (stop : StopCall)
  | answered (call : Nat) (answer : Answer)
  | closeEditor
deriving DecidableEq

/-! ## The page -/

/-- The button is disabled while the editor is open. -/
def Desk.press (desk : Desk) : Option Desk :=
  if desk.isEditorOpen then none
  else if desk.isRecording then
    some { desk with
      isRecording := false
      inbox := desk.inbox ++ [.stop desk.nextCall]
      nextCall := desk.nextCall + 1 }
  else
    some { desk with
      isRecording := true
      inbox := desk.inbox ++ [.start desk.nextCall]
      nextCall := desk.nextCall + 1 }

def Desk.answered (desk : Desk) (call : Nat) (answer : Answer) : Option Desk :=
  if (call, answer) ∈ desk.answers then
    let desk := { desk with answers := desk.answers.erase (call, answer) }
    match answer with
    | .started false => some { desk with isRecording := false }
    | .stopped (some _) => some { desk with isEditorOpen := true }
    | _ => some desk
  else none

/-! ## The main process -/

def Desk.deliver (desk : Desk) (filepath : JsString) (sessionId : Option JsString) (now : JsString) :
    Option Desk :=
  match desk.inbox with
  | [] => none
  | .start call :: rest =>
      some { desk with
        inbox := rest
        starts := desk.starts ++ [⟨call, filepath, sessionId⟩]
        processes := desk.processes.put call ⟨.spawning, filepath, none, sessionId⟩ }
  | .stop call :: rest =>
      match desk.recorder.sox, desk.recorder.filepath, desk.recorder.startedAt with
      | some sox, some filepath, some startedAt =>
          some { desk with
            inbox := rest
            stops := desk.stops ++ [⟨call, sox, ⟨filepath, startedAt, now, desk.recorder.sessionId⟩⟩]
            signals := desk.signals ++ [(sox, .interrupt)] }
      | _, _, _ =>
          some { desk with
            inbox := rest
            answers := desk.answers ++ [(call, .stopped none)] }

/-- A start is called with what its process was. -/
def Desk.spawned (desk : Desk) (sox : Nat) (now : JsString) : Option Desk :=
  match desk.starts.find? (·.sox = sox) with
  | none => none
  | some start =>
      some { desk with
        starts := desk.starts.filter (·.sox ≠ sox)
        processes := desk.processes.put sox ⟨.running, start.filepath, some now, start.sessionId⟩
        recorder := ⟨some start.filepath, some now, start.sessionId, some sox⟩
        answers := desk.answers ++ [(sox, .started true)] }

def Desk.spawnFailed (desk : Desk) (sox : Nat) : Option Desk :=
  match desk.starts.find? (·.sox = sox) with
  | none => none
  | some start =>
      some { desk with
        starts := desk.starts.filter (·.sox ≠ sox)
        processes := desk.processes.put sox ⟨.failed, start.filepath, none, start.sessionId⟩
        answers := desk.answers ++ [(sox, .started false)] }

/-- Every stop that waits for the process resumes: it clears the slot, whatever that holds by now. -/
def Desk.closed (desk : Desk) (sox : Nat) : Option Desk :=
  match desk.processes sox with
  | none => none
  | some process =>
      if process.status ≠ .running then none
      else
        let resumed := desk.stops.filter (·.sox = sox)
        some { desk with
          processes := desk.processes.put sox { process with status := .closed }
          stops := desk.stops.filter (·.sox ≠ sox)
          recorder := if resumed = [] then desk.recorder else .idle
          returned := desk.returned ++ resumed
          answers := desk.answers ++ resumed.map fun stop => (stop.call, .stopped (some stop.take)) }

def step (desk : Desk) : Action → Option Desk
  | .press => desk.press
  | .deliver filepath sessionId now => desk.deliver filepath sessionId now
  | .spawned sox now => desk.spawned sox now
  | .spawnFailed sox => desk.spawnFailed sox
  | .closed sox => desk.closed sox
  | .giveUp stop =>
      if stop ∈ desk.stops then some { desk with signals := desk.signals ++ [(stop.sox, .kill)] }
      else none
  | .answered call answer => desk.answered call answer
  | .closeEditor => some { desk with isEditorOpen := false }

/-! ## What a recorder owes -/

def Desk.BeingStopped (desk : Desk) (sox : Nat) : Prop := ∃ stop ∈ desk.stops, stop.sox = sox

def Desk.StopComing (desk : Desk) : Prop := ∃ call, .stop call ∈ desk.inbox

/-- A stop has read the fields of the process that it has interrupted. -/
structure Interrupted (signals : List (Nat × Signal)) (stop : StopCall) (process : SoxProcess) :
    Prop where
  filepath : stop.take.filepath = process.filepath
  startedAt : process.startedAt = some stop.take.startedAt
  sessionId : stop.take.sessionId = process.sessionId
  signalled : (stop.sox, .interrupt) ∈ signals

/-- Every process whose start has resolved can be stopped until a stop has returned its take, every
take is returned once and is its process's own, and with the button off and no call going on no sox
is running. -/
structure KeepsTakes (desk : Desk) : Prop where
  stoppable : ∀ sox process, desk.processes sox = some process → process.startedAt.isSome →
    (∃ stop ∈ desk.returned, stop.sox = sox) ∨
      process.status = .running ∧ (desk.recorder.sox = some sox ∨ desk.BeingStopped sox)
  own : ∀ stop ∈ desk.returned, ∃ process, desk.processes stop.sox = some process ∧
    Interrupted desk.signals stop process
  once : (desk.returned.map StopCall.sox).Nodup
  quiet : desk.isRecording = false → desk.inbox = [] → desk.starts = [] → desk.stops = [] →
    ∀ sox process, desk.processes sox = some process →
      process.status = .failed ∨ process.status = .closed

/-- No process in the slot that no stop has reached. -/
def Desk.SlotFree (desk : Desk) : Prop := ∀ sox, desk.recorder.sox = some sox → desk.BeingStopped sox

/-- When a step leaves every take with someone to stop it. -/
def OneAtATime (desk : Desk) : Action → Prop
  | .spawned _ _ => desk.SlotFree ∧ (desk.isRecording = true ∨ desk.StopComing)
  | .deliver _ _ _ => (∃ call rest, desk.inbox = .stop call :: rest) →
      ∀ sox, desk.recorder.sox = some sox → ¬ desk.BeingStopped sox
  | .closed sox => desk.BeingStopped sox ∧
      ∀ other, desk.recorder.sox = some other → other = sox ∨ desk.BeingStopped other
  | .answered _ (.started false) => desk.SlotFree ∨ desk.StopComing
  | _ => True

end Tapes.Recorder.Sox
