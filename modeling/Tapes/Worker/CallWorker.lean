import Tapes.Js.Json
import Tapes.Js.NumberText
import Tapes.Machine.Run
import Tapes.Machine.Table

namespace Tapes.Worker

open Tapes.Js Tapes.Machine

/-! The requests of a page to its worker: each settles once, with the first reply to it. -/

/-! ## Messages -/

def recorderWrite : JsString := js "recorder:write"

/-- What the worker's `switch` knows. -/
def knownTypes : List JsString :=
  [js "recorder:start", recorderWrite, js "recorder:stop", js "recorder:claim",
    js "provenance:device-key", js "person:status", js "person:create", js "person:passphrase",
    js "person:backup", js "person:sign-join", js "person:request-vouch", js "person:accept-vouch",
    js "person:revoke-device", js "person:restore", js "person:passkey-record",
    js "person:passkey-restore", js "person:mark-record", js "person:mark-joined",
    js "person:check-backup", js "storage:get", js "storage:read-bytes", js "storage:get-file",
    js "blob:put", js "blob:get", js "blob:has", js "blob:delete"]

/-- The rest of the payload is for the handlers. -/
structure Posted where
  type : JsString
  requestId : Option JsString

structure WorkerResponse where
  type : JsString
  requestId : Option JsString
  success : Bool
  payload : JsValue
  error : Option JsString

/-- `respond`, with the text of an error. -/
def respond (posted : Posted) (success : Bool) (payload : JsValue) (error : Option JsString) :
    WorkerResponse :=
  ⟨posted.type ++ js ":response", posted.requestId, success, payload, error⟩

/-- A failure is told where there is an id to tell it under. -/
def failure (posted : Posted) (error : JsString) : List WorkerResponse :=
  match posted.requestId with
  | none | some [] => []
  | some (_ :: _) => [respond posted false .undefined (some error)]

/-! ## Calls -/

inductive Settled where
  | resolved (payload : JsValue)
  | failed (message : JsString)
  | aborted
  | timedOut

/-- A call listens until it is settled. `random` is the second half of its id. -/
structure Call where
  type : JsString
  random : JsString
  armed : Bool
  outcome : Option Settled

def requestId (number : Nat) (random : JsString) : JsString :=
  digitText (decimalDigits number) ++ 0x2D :: random

def Call.id (call : Call) (number : Nat) : JsString := requestId number call.random

def settledBy (response : WorkerResponse) : Settled :=
  if response.success then .resolved response.payload
  else .failed (response.error.getD (js "Worker error"))

/-- `onMessage` -/
def Call.hear (call : Call) (number : Nat) (response : WorkerResponse) : Call :=
  if call.outcome.isNone ∧ response.requestId = some (call.id number) then
    { call with outcome := some (settledBy response) }
  else call

def Call.settle (call : Call) (outcome : Settled) : Call :=
  if call.outcome.isNone then { call with outcome := some outcome } else call

/-! ## The page and the worker -/

/-- A handler on its way, and whether it has responded. -/
structure Handling where
  posted : Posted
  answered : Bool

/-- `calls` are known by their number, `heard` are the responses that have arrived, the first one
first, and `alive` is whether the worker runs. -/
structure Office where
  counter : Nat
  calls : Table Nat Call
  inbox : List Posted
  received : Nat
  handling : Table Nat Handling
  outbox : List WorkerResponse
  heard : List WorkerResponse
  alive : Bool

def Office.opened : Office := ⟨0, .empty, [], 0, .empty, [], [], true⟩

inductive OfficeAction where
  /-- `aborted` is whether the signal is so already, and `armed` whether there is a limit. -/
  | call (type random : JsString) (armed aborted : Bool)
  /-- A chunk, posted without an id. -/
  | write
  | receive
  | respond (handler : Nat) (success : Bool) (payload : JsValue) (error : Option JsString)
  | finish (handler : Nat)
  | throw (handler : Nat) (error : JsString)
  | deliver
  | abort (number : Nat)
  | timeout (number : Nat)
  | die

def Office.call (office : Office) (type random : JsString) (armed aborted : Bool) : Office :=
  let number := office.counter + 1
  if aborted then
    { office with
      counter := number
      calls := office.calls.put number ⟨type, random, false, some .aborted⟩ }
  else
    { office with
      counter := number
      calls := office.calls.put number ⟨type, random, armed, none⟩
      inbox := office.inbox ++ [⟨type, some (requestId number random)⟩] }

/-- `onmessage`, up to its first await. -/
def Office.receive (office : Office) (posted : Posted) (rest : List Posted) : Office :=
  if knownTypes.contains posted.type then
    { office with
      inbox := rest
      received := office.received + 1
      handling := office.handling.put office.received ⟨posted, false⟩ }
  else
    { office with
      inbox := rest
      outbox := office.outbox ++ failure posted (js "unknown message type: " ++ posted.type) }

/-- Of the handlers only the one of `recorder:write` ends without a response, and a handler that
throws is answered for. -/
def officeStep (office : Office) : OfficeAction → Option Office
  | .call type random armed aborted => some (office.call type random armed aborted)
  | .write => some { office with inbox := office.inbox ++ [⟨recorderWrite, none⟩] }
  | .receive =>
      match office.inbox with
      | [] => none
      | posted :: rest => if office.alive then some (office.receive posted rest) else none
  | .respond handler success payload error =>
      match office.handling handler with
      | some ⟨posted, _⟩ =>
          if office.alive ∧ posted.type ≠ recorderWrite then
            some { office with
              handling := office.handling.put handler ⟨posted, true⟩
              outbox := office.outbox ++ [respond posted success payload error] }
          else none
      | none => none
  | .finish handler =>
      match office.handling handler with
      | some ⟨posted, answered⟩ =>
          if office.alive ∧ (answered = true ∨ posted.type = recorderWrite) then
            some { office with handling := office.handling.remove handler }
          else none
      | none => none
  | .throw handler error =>
      match office.handling handler with
      | some ⟨posted, _⟩ =>
          if office.alive then
            some { office with
              handling := office.handling.remove handler
              outbox := office.outbox ++ failure posted error }
          else none
      | none => none
  | .deliver =>
      match office.outbox with
      | [] => none
      | response :: rest =>
          some { office with
            calls := fun number => (office.calls number).map (·.hear number response)
            outbox := rest
            heard := office.heard ++ [response] }
  | .abort number =>
      (office.calls number).map fun call =>
        { office with calls := office.calls.put number (call.settle .aborted) }
  | .timeout number =>
      (office.calls number).bind fun call =>
        if call.armed then
          some { office with calls := office.calls.put number (call.settle .timedOut) }
        else none
  | .die => some { office with alive := false }

end Tapes.Worker
