import Tapes.Events.Aggregates
import Tapes.Events.Segment
import Tapes.Machine.Run
import Tapes.Machine.Table
import Tapes.Outbox.EventHttp

namespace Tapes.Outbox

open Tapes.Js Tapes.Machine
open Tapes.Events (Day EventStore LogDir PlaybackEvent StoredEvent TotalsMap admitAll appendFile
  deriveAggregates eventOf foldEvent forget openStore payload replay segmentDay)

/-! Plays on their way from the queues of any number of devices to the log of one host: a step
for each stretch of the client or the host between two awaits. -/

abbrev ExchangeId := Nat

/-! ## The host -/

/-- A call of `append` that waits for its turn. -/
structure PendingAppend where
  exchange : ExchangeId
  judged : Judged
  now : Int

/-- What the loop of `append` leaves to be written and answered. -/
structure RunningAppend where
  exchange : ExchangeId
  rejected : List Rejection
  accepted : List StoredEvent
  duplicates : List JsString
  day : Day

def RunningAppend.response (append : RunningAppend) : IngestResponse :=
  ⟨append.accepted.map (·.id), append.duplicates, append.rejected⟩

/-- `tail` are the appends that wait, `writing` is the one whose file write is under way, and
`resolved` are those whose ingest has yet to go on. -/
structure Host where
  store : EventStore
  rollup : TotalsMap
  tail : List PendingAppend
  writing : Option RunningAppend
  resolved : List RunningAppend

/-- `open` of both stores. No sweep has ever written a baseline. -/
def openHost (dir : LogDir) : Host where
  store := openStore dir
  rollup := deriveAggregates ((replay dir).map eventOf) .empty
  tail := []
  writing := none
  resolved := []

/-- The loop of `append`, up to its write. -/
def Host.begin (host : Host) (pending : PendingAppend) : Host :=
  let admission := admitAll host.store.seen pending.judged.valid (toISOString pending.now)
  let append : RunningAppend := {
    exchange := pending.exchange
    rejected := pending.judged.rejected
    accepted := admission.accepted
    duplicates := admission.duplicates
    day := segmentDay pending.now }
  let begun := { host with store := { host.store with seen := admission.seen } }
  if admission.accepted = [] then { begun with resolved := host.resolved ++ [append] }
  else { begun with writing := some append }

def Host.wrote (host : Host) (append : RunningAppend) : Host :=
  { host with
    store := { host.store with
      dir := appendFile host.store.dir append.day (payload append.accepted) }
    writing := none
    resolved := host.resolved ++ [append] }

def Host.failed (host : Host) (append : RunningAppend) : Host :=
  { host with
    store := { host.store with seen := forget host.store.seen append.accepted }
    writing := none }

/-- `record`. -/
def Host.recorded (host : Host) (append : RunningAppend) : Host :=
  { host with rollup := append.accepted.foldl foldEvent host.rollup }

/-! ## Devices, host and requests -/

/-- Where the host is with a request. A request that it will not answer is dropped. -/
inductive Phase where
  | sent
  | judging (candidates : List (JsValue × Nat)) (judged : Judged)
  | appending
  | answered (answer : Except Nat IngestResponse)
  | dropped

/-- A flush and its request. `awaited` is whether the flush still waits for the answer, and `came`
are the plays that its device enqueued while it did. -/
structure Exchange where
  device : JsString
  batch : List PlaybackEvent
  awaited : Bool
  phase : Phase
  came : List PlaybackEvent

def Exchange.to (exchange : Exchange) (phase : Phase) : Exchange := { exchange with phase }

def Exchange.unawaited (exchange : Exchange) : Exchange := { exchange with awaited := false }

def Exchange.hears (exchange : Exchange) (device : JsString) (event : PlaybackEvent) : Exchange :=
  if exchange.awaited ∧ exchange.device = device then
    { exchange with came := exchange.came ++ [event] }
  else exchange

/-- A request after a restart of the host. -/
def Exchange.cut (exchange : Exchange) : Exchange :=
  match exchange.phase with
  | .judging _ _ | .appending => exchange.to .dropped
  | .sent | .answered _ | .dropped => exchange

/-- `enqueued` is every event ever enqueued, `evicted` what the cap of a queue dropped, `refused`
the batches that the host refused whole, and `crossed` what was enqueued during the flushes of
those. -/
structure System where
  queues : JsString → List PlaybackEvent
  exchanges : Table ExchangeId Exchange
  host : Host
  enqueued : List PlaybackEvent
  evicted : List PlaybackEvent
  refused : List PlaybackEvent
  crossed : List PlaybackEvent

def start : System := ⟨fun _ => [], .empty, openHost .empty, [], [], [], []⟩

/-! ## Steps -/

/-- `lose` stands for every end of a flush without a readable answer: a request or an answer that
is lost, and any other status. -/
inductive Action where
  | enqueue (device : JsString) (event : PlaybackEvent)
  | flush (device : JsString) (exchange : ExchangeId)
  | receive (exchange : ExchangeId)
  | judge (exchange : ExchangeId) (known : Bool)
  | append (exchange : ExchangeId) (now : Int)
  | begin
  | write (succeeds : Bool)
  | record
  | settle (exchange : ExchangeId)
  | lose (exchange : ExchangeId)
  | restart

def System.put (system : System) (id : ExchangeId) (exchange : Exchange) : System :=
  { system with exchanges := system.exchanges.put id exchange }

def System.moveTo (system : System) (id : ExchangeId) (phase : Phase) : System :=
  { system with exchanges := system.exchanges.modify id (·.to phase) }

/-- The body of a request is read. -/
def receive (limits : Limits) (system : System) (id : ExchangeId) (exchange : Exchange) :
    Option System :=
  match exchange.phase with
  | .sent =>
      match readBatch limits (requestBody exchange.batch) with
      | .error status => some (system.moveTo id (.answered (.error status)))
      | .ok events => some (system.moveTo id (.judging events.zipIdx ⟨[], []⟩))
  | _ => none

def judgeNext (isDate : JsString → Bool) (known : Bool) (system : System) (id : ExchangeId)
    (exchange : Exchange) : Option System :=
  match exchange.phase with
  | .judging (candidate :: rest) judged =>
      some (system.moveTo id (.judging rest (judge isDate known candidate judged)))
  | _ => none

/-- Every event is judged, and `append` is called. -/
def callAppend (now : Int) (system : System) (id : ExchangeId) (exchange : Exchange) :
    Option System :=
  match exchange.phase with
  | .judging [] judged =>
      let pending : PendingAppend := ⟨id, judged, now⟩
      some { system.moveTo id .appending with
        host := { system.host with tail := system.host.tail ++ [pending] } }
  | _ => none

/-- The end of a flush that has got an answer. -/
def settle (system : System) (id : ExchangeId) (exchange : Exchange) : Option System :=
  let ended := system.put id exchange.unawaited
  let queue := system.queues exchange.device
  match exchange.awaited, exchange.phase with
  | true, .answered (.error status) =>
      if status = 400 ∨ status = 413 ∨ status = 415 then
        some { ended with
          queues := Function.update system.queues exchange.device []
          refused := system.refused ++ exchange.batch
          crossed := system.crossed ++ exchange.came }
      else some ended
  | true, .answered (.ok response) =>
      some { ended with
        queues := Function.update system.queues exchange.device
          (afterAnswer queue exchange.batch response) }
  | _, _ => none

def step (isDate : JsString → Bool) (limits : Limits) (cap : Nat) (system : System) :
    Action → Option System
  | .enqueue device event =>
      let queue := system.queues device
      some { system with
        queues := Function.update system.queues device (enqueueEvent queue event cap)
        exchanges := fun id => (system.exchanges id).map (·.hears device event)
        enqueued := system.enqueued ++ [event]
        evicted := system.evicted ++ evictedBy queue event cap }
  | .flush device id =>
      match system.exchanges id, system.queues device with
      | none, event :: rest => some (system.put id ⟨device, event :: rest, true, .sent, []⟩)
      | _, _ => none
  | .receive id => (system.exchanges id).bind (receive limits system id)
  | .judge id known => (system.exchanges id).bind (judgeNext isDate known system id)
  | .append id now => (system.exchanges id).bind (callAppend now system id)
  | .begin =>
      match system.host.writing, system.host.tail with
      | none, pending :: rest =>
          some { system with host := Host.begin { system.host with tail := rest } pending }
      | _, _ => none
  | .write succeeds => system.host.writing.map fun append =>
      if succeeds then { system with host := system.host.wrote append }
      else { system.moveTo append.exchange .dropped with host := system.host.failed append }
  | .record =>
      match system.host.resolved with
      | append :: rest =>
          some { system.moveTo append.exchange (.answered (.ok append.response)) with
            host := Host.recorded { system.host with resolved := rest } append }
      | [] => none
  | .settle id => (system.exchanges id).bind (settle system id)
  | .lose id => (system.exchanges id).map fun exchange => system.put id exchange.unawaited
  | .restart => some { system with
      exchanges := fun id => (system.exchanges id).map Exchange.cut
      host := openHost system.host.store.dir }

end Tapes.Outbox
