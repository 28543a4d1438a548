import Tapes.Js.Text
import Tapes.Machine.Run
import Tapes.Machine.Table

namespace Tapes.Recorder

open Tapes.Js Tapes.Machine

/-! The recording worker: its messages in their order, and each handler as steps between its awaits.
A handler runs on while others wait, and the worker has one access handle for all of them. -/

/-- A press of the record button. The one that starts a take names its recorder and the chunk too. -/
abbrev CallId := Nat

abbrev FileId := Nat

/-- What the page keeps of a take. -/
structure Take where
  filename : FileId
  startedAt : Int
  sessionId : Option JsString
deriving DecidableEq

inductive Message where
  | start (call : CallId)
  | write (chunk : CallId)
  | stop (call : CallId)
  | claim (call : CallId) (take : Take) (endedAt : Int)
deriving DecidableEq

/-- `content` is what was hashed. -/
structure Claim where
  content : List CallId
  startedAt : Int
  endedAt : Int
  sessionId : Option JsString
deriving DecidableEq

/-- None where the handler has failed. -/
inductive Reply where
  | started (call : CallId) (filename : Option FileId)
  | stopped (call : CallId)
  | claimed (call : CallId) (claim : Option Claim)
deriving DecidableEq

/-- A handler between two of its steps. `write` is the `pendingWrite` that a claim has found. -/
inductive Handler where
  | creatingFile
  | openingHandle (filename : FileId)
  | awaitingWrite (take : Take) (endedAt : Int) (write : Option CallId)
  | signing (take : Take) (endedAt : Int)
  | hashing (take : Take) (endedAt : Int) (content : List CallId)
deriving DecidableEq

/-- `start` is the call that has had the file made. -/
structure StoredFile where
  start : CallId
  chunks : List CallId
deriving DecidableEq

/-- `writing` lists the chunks whose bytes `writeChunk` awaits. -/
structure Worker where
  inbox : List Message
  outbox : List Reply
  handlers : Table CallId Handler
  writing : List CallId
  accessHandle : Option FileId
  pendingWrite : Option CallId
  files : Table FileId StoredFile
  nextFile : FileId

def Worker.new : Worker := ⟨[], [], .empty, [], none, none, .empty, 0⟩

def Worker.post (worker : Worker) (message : Message) : Worker :=
  { worker with inbox := worker.inbox ++ [message] }

/-- The handler's last step. -/
def Worker.respond (worker : Worker) (call : CallId) (reply : Reply) : Worker :=
  { worker with handlers := worker.handlers.remove call, outbox := worker.outbox ++ [reply] }

def Worker.go (worker : Worker) (call : CallId) (handler : Handler) : Worker :=
  { worker with handlers := worker.handlers.put call handler }

/-- The next message, up to the first await of its handler. -/
def Worker.handle (worker : Worker) : Option Worker :=
  match worker.inbox with
  | [] => none
  | message :: rest =>
      let worker := { worker with inbox := rest }
      match message with
      | .start call => some (worker.go call .creatingFile)
      | .write chunk =>
          -- Without a handle the chunk is dropped.
          let writing := if worker.accessHandle.isSome then worker.writing ++ [chunk] else worker.writing
          some { worker with writing := writing, pendingWrite := some chunk }
      | .stop call => some { worker with outbox := worker.outbox ++ [.stopped call] }
      | .claim call take endedAt =>
          some (worker.go call (.awaitingWrite take endedAt worker.pendingWrite))

/-- The bytes of a chunk are there. They go where the handle is by now. -/
def Worker.write (worker : Worker) (chunk : CallId) : Option Worker :=
  if chunk ∈ worker.writing then
    let written := { worker with writing := worker.writing.filter (· ≠ chunk) }
    match worker.accessHandle with
    | none => some written
    | some filename => some { written with
        accessHandle := none
        files := worker.files.modify filename fun file =>
          { file with chunks := file.chunks ++ [chunk] } }
  else none

/-- An await of a handler resolves, or it fails. -/
def Worker.resume (worker : Worker) (call : CallId) (ok : Bool) : Option Worker :=
  match worker.handlers call with
  | none => none
  | some .creatingFile =>
      if ok then
        let created := { worker with
          files := worker.files.put worker.nextFile ⟨call, []⟩
          nextFile := worker.nextFile + 1 }
        some (created.go call (.openingHandle worker.nextFile))
      else some (worker.respond call (.started call none))
  | some (.openingHandle filename) =>
      if ok then
        let opened := { worker with accessHandle := some filename }
        some (opened.respond call (.started call (some filename)))
      else some (worker.respond call (.started call none))
  | some (.awaitingWrite take endedAt write) =>
      if write.all (· ∉ worker.writing) then some (worker.go call (.signing take endedAt)) else none
  | some (.signing take endedAt) =>
      match worker.files take.filename with
      | some file =>
          if ok then some (worker.go call (.hashing take endedAt file.chunks))
          else some (worker.respond call (.claimed call none))
      | none => some (worker.respond call (.claimed call none))
  | some (.hashing take endedAt content) =>
      let claim := if ok then some ⟨content, take.startedAt, endedAt, take.sessionId⟩ else none
      some (worker.respond call (.claimed call claim))

end Tapes.Recorder
