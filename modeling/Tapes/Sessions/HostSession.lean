import Tapes.Machine.Run
import Tapes.Sessions.SessionRecorder

namespace Tapes.Sessions

open Tapes.Js Tapes.Provenance Tapes.Machine

/-! Starting and stopping the host's session, and the field of the root document that names it.

Each call finds a document between reading the recorder and changing it, so calls interleave there.
-/

structure PublishedSession where
  sessionId : JsString
  startedAt : JsString
deriving DecidableEq

def published (platform : RecorderPlatform) (tracked : Tracked) : PublishedSession :=
  ⟨tracked.sessionId, platform.toISOString tracked.openedAt⟩

/-- Which document a session was published in. -/
structure PublishedIn where
  sessionId : JsString
  docUrl : JsString
deriving DecidableEq

/-- A call that waits for a document. -/
inductive SessionCall where
  | starting (docUrl : JsString)
  | stopping (target : PublishedIn) (signsAt : JsString)
  | clearing (docUrl : JsString)
deriving DecidableEq

inductive SessionAnswer where
  | started (session : PublishedSession)
  | threw
  | stopped (closed : Option (JsString × JsString))
  | cleared
deriving DecidableEq

abbrev CallId := Nat

/-- `session` is the session field of each root document.  `sessionIds` are those that
`newSessionId` has given. -/
structure HostSession where
  recorder : Recorder
  publishedIn : Option PublishedIn
  session : Table JsString PublishedSession
  calls : Table CallId SessionCall
  sessionIds : List JsString
  answers : List (CallId × SessionAnswer)

def HostSession.created (recorder : Recorder) : HostSession :=
  ⟨recorder, none, Table.empty, Table.empty, [], []⟩

namespace HostSession

def park (host : HostSession) (call : CallId) (waiting : SessionCall) : HostSession :=
  { host with calls := host.calls.put call waiting }

def answer (host : HostSession) (call : CallId) (result : SessionAnswer) : HostSession :=
  { host with calls := host.calls.remove call, answers := (call, result) :: host.answers }

end HostSession

/-- `start` up to the document. -/
def start (host : HostSession) (call : CallId) (docUrl : JsString) : HostSession :=
  match host.recorder.opened with
  | some _ => host.answer call .threw
  | none => host.park call (.starting docUrl)

/-- `start` with the document found: `sessions.open` throws if a session is open by now, or if one
with the id is closing. -/
def started (platform : RecorderPlatform) (host : HostSession) (call : CallId)
    (docUrl sessionId : JsString) (connections : List SyncConnection) : HostSession :=
  let named := { host with sessionIds := sessionId :: host.sessionIds }
  if host.recorder.opened.isSome || (host.recorder.closing sessionId).isSome then
    named.answer call .threw
  else
    let recorder := openSession host.recorder sessionId docUrl connections
    let session : PublishedSession := ⟨sessionId, platform.toISOString host.recorder.now⟩
    { named with
      recorder
      publishedIn := some ⟨sessionId, docUrl⟩
      session := host.session.put docUrl session }.answer call (.started session)

/-- `stop` up to the document. -/
def stop (platform : RecorderPlatform) (host : HostSession) (call : CallId) (graceMs : Nat) :
    HostSession :=
  match host.recorder.opened with
  | none => host.answer call (.stopped none)
  | some tracked =>
      let signsAt := platform.toISOString (host.recorder.now + graceMs)
      let closed := { host with
        recorder := close platform host.recorder graceMs
        publishedIn := none }
      match host.publishedIn with
      | none => closed.answer call (.stopped (some (tracked.sessionId, signsAt)))
      | some target =>
          if target.sessionId ≠ tracked.sessionId then
            closed.answer call (.stopped (some (tracked.sessionId, signsAt)))
          else closed.park call (.stopping target signsAt)

/-- `stop` with the document found. -/
def stopped (host : HostSession) (call : CallId) (target : PublishedIn) (signsAt : JsString) :
    HostSession :=
  let result := SessionAnswer.stopped (some (target.sessionId, signsAt))
  if (host.session target.docUrl).map PublishedSession.sessionId = some target.sessionId then
    { host with session := host.session.remove target.docUrl }.answer call result
  else host.answer call result

/-- `clearStale` with the document found. -/
def cleared (host : HostSession) (call : CallId) (docUrl : JsString) : HostSession :=
  match host.session docUrl with
  | none => host.answer call .cleared
  | some stale =>
      if some stale.sessionId = host.recorder.opened.map Tracked.sessionId then
        host.answer call .cleared
      else { host with session := host.session.remove docUrl }.answer call .cleared

inductive HostAction where
  /-- Anything else that the recorder does. -/
  | recorder (action : Action)
  | start (call : CallId) (docUrl : JsString)
  | stop (call : CallId) (graceMs : Nat)
  | clearStale (call : CallId) (docUrl : JsString)
  /-- A `start` finds its document.  The id is what `newSessionId` gives, and the connections are
  those there are. -/
  | startFound (call : CallId) (sessionId : JsString) (connections : List SyncConnection)
  /-- A `stop` or a `clearStale` finds its document. -/
  | found (call : CallId)

/-- Only a host session opens and closes sessions. -/
def hostStep (platform : RecorderPlatform) (host : HostSession) : HostAction → Option HostSession
  | .recorder (.openSession _ _ _) | .recorder (.close _) | .recorder .flush => none
  | .recorder action =>
      (step platform host.recorder action).map fun recorder => { host with recorder }
  | .start call docUrl => if (host.calls call).isSome then none else some (start host call docUrl)
  | .stop call graceMs =>
      if (host.calls call).isSome then none else some (stop platform host call graceMs)
  | .clearStale call docUrl =>
      if (host.calls call).isSome then none else some (host.park call (.clearing docUrl))
  | .startFound call sessionId connections =>
      match host.calls call with
      | some (.starting docUrl) => some (started platform host call docUrl sessionId connections)
      | _ => none
  | .found call =>
      match host.calls call with
      | some (.stopping target signsAt) => some (stopped host call target signsAt)
      | some (.clearing docUrl) => some (cleared host call docUrl)
      | _ => none

/-- `newSessionId` gives no id twice. -/
def IdIsNew (host : HostSession) : HostAction → Prop
  | .startFound _ sessionId _ => sessionId ∉ host.sessionIds
  | _ => True

end Tapes.Sessions
