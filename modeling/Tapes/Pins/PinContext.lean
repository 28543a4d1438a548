import Mathlib.Data.Finset.Erase
import Mathlib.Data.Finset.Insert
import Tapes.Js.OrderedMap
import Tapes.Outbox.EventTarget
import Tapes.Recorder.PendingUploads

namespace Tapes.Pins

open Tapes.Js
open Tapes.Outbox (BlobEndpoint)
open Tapes.Recorder (BlobDescriptor)

/-! "Keep offline": `pin` and `unpin` of `PinProvider`, one step for each await, over the local
cache that they fill and evict from. -/

/-! ## The pin map -/

abbrev Hash := JsString

abbrev RecordingUrl := JsString

structure PinRecord where
  hash : Hash
  size : Nat
  pinnedAt : Int
  /-- Absent on pins made before statements were kept. -/
  statements : Option (List Hash)
deriving DecidableEq

abbrev PinMap := OrderedMap RecordingUrl PinRecord

def PinRecord.hashes (record : PinRecord) : List Hash := record.hash :: record.statements.getD []

def heldHashes (pins : PinMap) : List Hash := pins.values.flatMap PinRecord.hashes

/-! ## The calls -/

inductive AppContextType where
  | webClient
  | electronClient
deriving DecidableEq

/-- One statement that `keepStatements` is to keep. -/
inductive Keeping where
  | fetching
  | caching
  | settled (fetched : Bool)
deriving DecidableEq

/-- How a put in the cache settles. -/
inductive PutOutcome where
  | stored
  /-- The other side answers that it did not take the bytes. -/
  | refused
  /-- The call throws, whatever the other side did by then. -/
  | threw (written : Bool)
deriving DecidableEq

inductive EvictOutcome where
  | done
  | threw (removed : Bool)
deriving DecidableEq

abbrev CallId := Nat

/-- A `pin` or an `unpin`, named for what it awaits. -/
inductive Call where
  | fetching (url : RecordingUrl) (descriptor : BlobDescriptor) (statements : List Hash)
  | caching (url : RecordingUrl) (descriptor : BlobDescriptor) (statements : List Hash)
  | keeping (url : RecordingUrl) (descriptor : BlobDescriptor) (kept : OrderedMap Hash Keeping)
  | evicting (record : PinRecord) (stillHeld : List Hash) (hash : Hash) (rest : List Hash)

structure CacheEntry where
  size : Nat
  lastPlayedAt : Int

/-- `pins` is the React state, which its updaters write through to `localStorage`, and `rendered`
what it was at each render. `fetched` are the statements that the pin of a recording got from a
host. -/
structure State where
  pins : PinMap
  rendered : List PinMap
  fetched : RecordingUrl → List Hash
  cache : Finset Hash
  index : OrderedMap Hash CacheEntry
  calls : OrderedMap CallId Call

def State.opened (pins : PinMap) (fetched : RecordingUrl → List Hash) (cache : Finset Hash)
    (index : OrderedMap Hash CacheEntry) : State :=
  ⟨pins, [pins], fetched, cache, index, .empty⟩

def State.park (state : State) (call : CallId) (running : Call) : State :=
  { state with calls := state.calls.set call running }

def State.finish (state : State) (call : CallId) : State :=
  { state with calls := state.calls.delete call }

def recordCacheHit (state : State) (descriptor : BlobDescriptor) (now : Int) : State :=
  { state with index := state.index.set descriptor.hash ⟨descriptor.size, now⟩ }

def forgetCacheEntry (state : State) (hash : Hash) : State :=
  { state with index := state.index.delete hash }

def PutOutcome.writes : PutOutcome → Bool
  | .stored | .threw true => true
  | .refused | .threw false => false

/-- What the put leaves in the cache. -/
def State.write (state : State) (hash : Hash) (outcome : PutOutcome) : State :=
  if outcome.writes then { state with cache := insert hash state.cache } else state

def Keeping.isSettled : Keeping → Bool
  | .settled _ => true
  | .fetching | .caching => false

def Keeping.isFetched : Keeping → Bool
  | .settled fetched => fetched
  | .fetching | .caching => false

def fetchedOf (kept : OrderedMap Hash Keeping) : List Hash :=
  (kept.entries.filter (·.2.isFetched)).map Prod.fst

/-- The updater of `pin`. -/
def enterPin (state : State) (url : RecordingUrl) (descriptor : BlobDescriptor)
    (kept : OrderedMap Hash Keeping) (now : Int) : State :=
  { state with
    pins := state.pins.set url ⟨descriptor.hash, descriptor.size, now, some kept.keys⟩
    fetched := Function.update state.fetched url (fetchedOf kept) }

/-- The loop of `unpin` from here to its next await, or to its end. -/
def evictNext (state : State) (call : CallId) (record : PinRecord) (stillHeld : List Hash) :
    List Hash → State
  | [] =>
      if record.hash ∈ stillHeld then state.finish call
      else (forgetCacheEntry state record.hash).finish call
  | hash :: rest =>
      if hash ∈ stillHeld then evictNext state call record stillHeld rest
      else state.park call (.evicting record stillHeld hash rest)

/-- `unpin` up to its first await. The callback has the pins of the render it was made in. -/
def unpin (state : State) (call : CallId) (pins : PinMap) (url : RecordingUrl) : State :=
  let released := { state with pins := state.pins.delete url }
  match pins.get? url with
  | none => released
  | some record => evictNext released call record (heldHashes (pins.delete url)) record.hashes

variable (appContext : AppContextType)

/-- `callWorker` rejects what the worker refuses. Nothing reads what the main process answers. -/
def PutOutcome.resolves : PutOutcome → Bool
  | .stored => true
  | .refused => appContext = .electronClient
  | .threw _ => false

/-- The statements of `[...new Set(statements)]`, of which the desktop app keeps none. -/
def keepStatements (statements : List Hash) : OrderedMap Hash Keeping :=
  .ofList (statements.map fun hash =>
    (hash, if appContext = .webClient then .fetching else .settled false))

/-- A put that threw may still have written: a worker can answer too late, and `localStorage` can
be full when the hit is recorded. -/
def cachedBlob (state : State) (call : CallId) (url : RecordingUrl) (descriptor : BlobDescriptor)
    (statements : List Hash) (outcome : PutOutcome) (now : Int) : State :=
  let written := state.write descriptor.hash outcome
  if outcome.resolves appContext then
    (recordCacheHit written descriptor now).park call
      (.keeping url descriptor (keepStatements appContext statements))
  else written.finish call

def evictCachedBlob (state : State) (hash : Hash) : State :=
  match appContext with
  | .webClient => { state with cache := state.cache.erase hash }
  | .electronClient => state

inductive Action where
  | render
  | pin (call : CallId) (endpoints : List BlobEndpoint) (url : RecordingUrl)
      (descriptor : BlobDescriptor) (statements : List Hash)
  /-- `fetchBlobFromAny` settles. -/
  | fetchedBlob (call : CallId) (found : Bool)
  | cachedBlob (call : CallId) (outcome : PutOutcome) (now : Int)
  | fetchedStatement (call : CallId) (hash : Hash) (found : Bool)
  | cachedStatement (call : CallId) (hash : Hash) (outcome : PutOutcome)
  /-- `keepStatements` has settled, and the pin enters the map. -/
  | enter (call : CallId) (now : Int)
  /-- The callback is that of the render with this number. -/
  | unpin (call : CallId) (render : Nat) (url : RecordingUrl)
  | evicted (call : CallId) (outcome : EvictOutcome)

def step (state : State) : Action → Option State
  | .render => some { state with rendered := state.rendered ++ [state.pins] }
  | .pin call endpoints url descriptor statements =>
      if state.calls.has call then none
      else if endpoints = [] then some state
      else some (state.park call (.fetching url descriptor statements))
  | .fetchedBlob call found =>
      match state.calls.get? call with
      | some (.fetching url descriptor statements) =>
          some (if found then state.park call (.caching url descriptor statements)
            else state.finish call)
      | _ => none
  | .cachedBlob call outcome now =>
      match state.calls.get? call with
      | some (.caching url descriptor statements) =>
          some (cachedBlob appContext state call url descriptor statements outcome now)
      | _ => none
  | .fetchedStatement call hash found =>
      match state.calls.get? call with
      | some (.keeping url descriptor kept) =>
          if kept.get? hash = some .fetching then
            some (state.park call (.keeping url descriptor
              (kept.set hash (if found then .caching else .settled false))))
          else none
      | _ => none
  | .cachedStatement call hash outcome =>
      match state.calls.get? call with
      | some (.keeping url descriptor kept) =>
          if kept.get? hash = some .caching then
            some ((state.write hash outcome).park call
              (.keeping url descriptor (kept.set hash (.settled true))))
          else none
      | _ => none
  | .enter call now =>
      match state.calls.get? call with
      | some (.keeping url descriptor kept) =>
          if kept.values.all Keeping.isSettled then
            some ((enterPin state url descriptor kept now).finish call)
          else none
      | _ => none
  | .unpin call render url =>
      if state.calls.has call then none
      else (state.rendered[render]?).map (unpin state call · url)
  | .evicted call outcome =>
      match state.calls.get? call, outcome with
      | some (.evicting record stillHeld hash rest), .done =>
          some (evictNext (evictCachedBlob appContext state hash) call record stillHeld rest)
      | some (.evicting _ _ hash _), .threw removed =>
          -- Nothing on the desktop can throw.
          match appContext with
          | .electronClient => none
          | .webClient =>
              some ((if removed then evictCachedBlob .webClient state hash else state).finish call)
      | _, _ => none

end Tapes.Pins
