import Tapes.Js.NumberText
import Tapes.Js.OrderedMap
import Tapes.Sessions.SessionRecorder

namespace Tapes.Connections

open Tapes.Js

/-! The sockets that a host's sync server holds open, and what it tells of them. -/

/-- A socket is known by its identity. -/
abbrev Socket := Nat

structure SyncConnectionDetails where
  label : Option JsString
  address : Option JsString
  self : Bool
  deviceKey : Option JsString
deriving DecidableEq

structure SyncConnection extends SyncConnectionDetails where
  id : JsString
  connectedAt : Int
deriving DecidableEq

/-- What the session recorder reads of a connection. -/
def SyncConnection.recorded (connection : SyncConnection) : Sessions.SyncConnection where
  id := connection.id
  deviceKey := connection.deviceKey
  label := connection.label
  connectedAt := connection.connectedAt

structure Entry where
  connection : SyncConnection
  alive : Bool

/-- What the registry calls. `change` is `onChange`. -/
inductive Effect where
  | ping (socket : Socket)
  | terminate (socket : Socket)
  | change (connections : List SyncConnection)

/-- `nextId` is counted by the module, so a registry goes on where the last one ended. `beating` is
whether the interval is set. -/
structure Registry where
  entries : OrderedMap Socket Entry
  nextId : Nat
  beating : Bool

def createSyncConnectionRegistry (nextId : Nat) : Registry := ⟨.empty, nextId, true⟩

def connectionId (number : Nat) : JsString :=
  js "sync-connection-" ++ digitText (decimalDigits number)

namespace Registry

def list (registry : Registry) : List SyncConnection :=
  registry.entries.values.map Entry.connection

def add (registry : Registry) (now : Int) (socket : Socket) (details : SyncConnectionDetails) :
    Registry × List Effect :=
  let connection := { details with id := connectionId registry.nextId, connectedAt := now }
  let next := { registry with
    entries := registry.entries.set socket ⟨connection, true⟩
    nextId := registry.nextId + 1 }
  (next, [.change next.list])

def setAlive (registry : Registry) (socket : Socket) (alive : Bool) : Registry :=
  match registry.entries.get? socket with
  | some entry => { registry with entries := registry.entries.set socket { entry with alive } }
  | none => registry

def remove (registry : Registry) (socket : Socket) : Registry × List Effect :=
  if registry.entries.has socket then
    let next := { registry with entries := registry.entries.delete socket }
    (next, [.change next.list])
  else (registry, [])

/-- One round of the loop of the interval. -/
def visit (registry : Registry) (socket : Socket) : Registry × List Effect :=
  match registry.entries.get? socket with
  | none => (registry, [])
  | some entry =>
      if entry.alive then (registry.setAlive socket false, [.ping socket])
      else
        let removed := registry.remove socket
        (removed.1, .terminate socket :: removed.2)

def visitAll (registry : Registry) : List Socket → Registry × List Effect
  | [] => (registry, [])
  | socket :: rest =>
      let visited := registry.visit socket
      let later := visited.1.visitAll rest
      (later.1, visited.2 ++ later.2)

/-- Only sockets that have been visited are deleted on the way. -/
def heartbeat (registry : Registry) : Registry × List Effect :=
  registry.visitAll registry.entries.keys

def close (registry : Registry) : Registry × List Effect :=
  ({ registry with entries := .empty, beating := false }, [.change []])

end Registry

/-! ## Events -/

inductive SocketEvent where
  | pong
  | close
  | error
deriving DecidableEq

/-- A server that has stopped waits for its sockets to close, and one is started only then. -/
inductive Action where
  | create
  | add (socket : Socket) (details : SyncConnectionDetails)
  | event (socket : Socket) (event : SocketEvent)
  | heartbeat
  | close
deriving DecidableEq

def act (now : Int) (registry : Registry) : Action → Option (Registry × List Effect)
  | .create =>
      if registry.beating || !registry.entries.entries.isEmpty then none
      else some (createSyncConnectionRegistry registry.nextId, [])
  | .add socket details => some (registry.add now socket details)
  | .event socket .pong => some (registry.setAlive socket true, [])
  | .event socket .close | .event socket .error => some (registry.remove socket)
  | .heartbeat => if registry.beating then some registry.heartbeat else none
  | .close => some registry.close

end Tapes.Connections
