import Tapes.Machine.Table
import Tapes.Outbox.EventTarget
import Tapes.Outbox.PlayEventQueue

namespace Tapes.Outbox.Hook

open Tapes.Js Tapes.Machine
open Tapes.Events (PlaybackEvent)

/-! `usePlayEventQueue` over all the hosts a device knows, through its mounts and unmounts: the four
refs, the flushes and timers that are really there, and the queues that other tabs share. -/

/-! ## The hook -/

abbrev EdgeKey := JsString

def edgeKey (endpoint : BlobEndpoint) : EdgeKey := endpoint.baseUrl

abbrev FlightId := Nat

abbrev TimerId := Nat

/-- A `flushQueue` that has been called: the endpoint it flushes, and the batch it read. -/
structure Flight where
  endpoint : BlobEndpoint
  batch : List PlaybackEvent

def Flight.key (flight : Flight) : EdgeKey := edgeKey flight.endpoint

/-- `timers`, `inFlight`, `pending` and `failures` are what the refs hold, `flights` and `armed` the
flushes that have not resolved and the timers that are due, each with its key. `ours` has, for as
long as an edge stays configured, the plays that this tab queued for it or found there when it
flushed all. -/
structure State where
  mounted : Bool
  endpoints : List BlobEndpoint
  queues : EdgeKey → List PlaybackEvent
  failures : EdgeKey → Nat
  timers : EdgeKey → Option TimerId
  inFlight : EdgeKey → Bool
  pending : EdgeKey → Bool
  flights : Table FlightId Flight
  armed : Table TimerId EdgeKey
  nextFlight : FlightId
  nextTimer : TimerId
  ours : EdgeKey → List PlaybackEvent

/-- Before the first mount. -/
def State.new (queues : EdgeKey → List PlaybackEvent) : State :=
  ⟨false, [], queues, fun _ => 0, fun _ => none, fun _ => false, fun _ => false, .empty, .empty,
    0, 0, fun _ => []⟩

def State.configures (state : State) (key : EdgeKey) : Bool :=
  state.endpoints.any (edgeKey · = key)

/-- `flushEndpoint` up to the flush it awaits. -/
def flushEndpoint (state : State) (endpoint : BlobEndpoint) : State :=
  let key := edgeKey endpoint
  if state.inFlight key then { state with pending := Function.update state.pending key true }
  else
    { state with
      pending := Function.update state.pending key false
      inFlight := Function.update state.inFlight key true
      flights := state.flights.put state.nextFlight ⟨endpoint, state.queues key⟩
      nextFlight := state.nextFlight + 1 }

/-- `clearTimeout` of the timer that the map has for the key. -/
def State.clearTimer (state : State) (key : EdgeKey) : State :=
  match state.timers key with
  | none => state
  | some existing =>
      { state with
        armed := state.armed.remove existing
        timers := Function.update state.timers key none }

def State.setTimer (state : State) (key : EdgeKey) : State :=
  { state with
    armed := state.armed.put state.nextTimer key
    timers := Function.update state.timers key (some state.nextTimer)
    nextTimer := state.nextTimer + 1 }

/-- The flush has written its queue, and its `finally` has run. -/
def State.landed (state : State) (id : FlightId) (key : EdgeKey) (queue : List PlaybackEvent) :
    State :=
  { state with
    queues := Function.update state.queues key queue
    flights := state.flights.remove id
    inFlight := Function.update state.inFlight key false }

/-- The rest of `flushEndpoint` once the flush has resolved. -/
def flushSettled (state : State) (endpoint : BlobEndpoint) (outcome : FlushOutcome) : State :=
  let key := edgeKey endpoint
  if state.mounted = false then state
  else
    let cleared := state.clearTimer key
    match outcome with
    | .empty | .flushed 0 =>
        let settled := { cleared with failures := Function.update cleared.failures key 0 }
        if settled.pending key then flushEndpoint settled endpoint else settled
    | .flushed _ | .deferred =>
        { cleared with
          failures := Function.update cleared.failures key (cleared.failures key + 1) }.setTimer key

/-- What is found queued is the tab's to deliver. -/
def State.findQueued (state : State) : State :=
  { state with
    ours := fun key =>
      if state.configures key then state.ours key ++ state.queues key else state.ours key }

def flushAll (state : State) : State := state.endpoints.foldl flushEndpoint state.findQueued

def recordPlaySession (cap : Nat) (state : State) (event : PlaybackEvent) : State :=
  match EventQueue.resolveEventTarget event.recordingUrl state.endpoints with
  | none => state
  | some target =>
      let key := edgeKey target
      flushEndpoint { state with
        queues := Function.update state.queues key (enqueueEvent (state.queues key) event cap)
        ours := Function.update state.ours key (state.ours key ++ [event]) } target

def endpointKeys (endpoints : List BlobEndpoint) : JsString :=
  [0x0A].intercalate (endpoints.map fun endpoint =>
    edgeKey endpoint ++ [0x20] ++ endpoint.token.getD [])

/-- The ref has the new list. An edge that it leaves out does not stay configured. -/
def State.know (state : State) (endpoints : List BlobEndpoint) : State :=
  { state with
    endpoints := endpoints
    ours := fun key =>
      if state.configures key && endpoints.any (edgeKey · = key) then state.ours key else [] }

/-- A timer in the map is under the key that its callback has. -/
def unmount (state : State) : State :=
  { state with
    mounted := false
    armed := fun timer => (state.armed timer).filter fun key => state.timers key ≠ some timer
    timers := fun _ => none
    pending := fun _ => false }

def timerFires (state : State) (timer : TimerId) (key : EdgeKey) : State :=
  let fired := { state with
    armed := state.armed.remove timer
    timers := Function.update state.timers key none }
  match fired.endpoints.find? (edgeKey · = key) with
  | none => fired
  | some current => flushEndpoint fired current

inductive Action where
  /-- The first mount, or one after an unmount that kept the refs. -/
  | mount (endpoints : List BlobEndpoint)
  | unmount
  | changeEndpoints (endpoints : List BlobEndpoint)
  | recordPlaySession (event : PlaybackEvent)
  /-- The device is back online, or the app in the foreground. -/
  | flushAll
  | reply (flight : FlightId) (reply : Reply)
  | timerFires (timer : TimerId)
  /-- Another tab queues plays of its own, or a flush of it takes some away. -/
  | otherTab (key : EdgeKey) (queue : List PlaybackEvent)

def step (cap : Nat) (state : State) : Action → Option State
  | .mount endpoints =>
      if state.mounted then none
      else some { Hook.flushAll (state.know endpoints) with mounted := true }
  | .unmount => if state.mounted then some (Hook.unmount state) else none
  | .changeEndpoints endpoints =>
      if state.mounted then
        let known := state.know endpoints
        some <|
          if endpointKeys endpoints = endpointKeys state.endpoints then known
          else Hook.flushAll known
      else none
  | .recordPlaySession event => some (Hook.recordPlaySession cap state event)
  | .flushAll => if state.mounted then some (Hook.flushAll state) else none
  | .reply id reply =>
      match state.flights id with
      | none => none
      | some ⟨endpoint, batch⟩ =>
          let settlement := settleFlush batch (state.queues (edgeKey endpoint)) reply
          settlement.outcome.map
            (flushSettled (state.landed id (edgeKey endpoint) settlement.queue) endpoint)
  | .timerFires timer => (state.armed timer).map (Hook.timerFires state timer)
  | .otherTab key queue =>
      if queue.all fun event => event ∈ state.queues key || event ∉ state.ours key then
        some { state with queues := Function.update state.queues key queue }
      else none

/-! ## The property -/

/-- A play of this tab is queued for the edge. -/
def State.OwnQueued (state : State) (key : EdgeKey) : Prop :=
  ∃ event ∈ state.queues key, event ∈ state.ours key

structure NoneStranded (state : State) : Prop where
  oneFlush : ∀ first second one other, state.flights first = some one →
    state.flights second = some other → one.key = other.key → first = second
  oneTimer : ∀ first second key, state.armed first = some key → state.armed second = some key →
    first = second
  retried : state.mounted = true → ∀ endpoint ∈ state.endpoints,
    (∀ id flight, state.flights id = some flight → flight.key ≠ edgeKey endpoint) →
      state.OwnQueued (edgeKey endpoint) → ∃ timer, state.armed timer = some (edgeKey endpoint)

/-! ## The invariant -/

/-- `owing` are the edges for which a flush is about to be asked, where a play may have neither a
flush nor a timer. -/
structure Kept (owing : EdgeKey → Prop) (state : State) : Prop where
  marked : ∀ id flight, state.flights id = some flight → state.inFlight flight.key = true
  flying : ∀ key, state.inFlight key = true →
    ∃ id flight, state.flights id = some flight ∧ flight.key = key
  oneFlush : ∀ first second one other, state.flights first = some one →
    state.flights second = some other → one.key = other.key → first = second
  freshFlight : ∀ id, state.nextFlight ≤ id → state.flights id = none
  registered : ∀ timer key, state.armed timer = some key ↔ state.timers key = some timer
  freshTimer : ∀ timer, state.nextTimer ≤ timer → state.armed timer = none
  configured : ∀ key, state.configures key = false → state.ours key = []
  asks : ∀ id flight, state.flights id = some flight → ¬ owing flight.key →
    state.pending flight.key = false → ∀ event ∈ state.queues flight.key,
      event ∈ state.ours flight.key → event ∈ flight.batch
  waits : ∀ key, ¬ owing key → state.inFlight key = false → state.OwnQueued key →
    (state.timers key).isSome = true

variable {owing : EdgeKey → Prop} {state next : State} {key : EdgeKey} {endpoint : BlobEndpoint}
  {cap : Nat}

theorem Kept.weaken {more : EdgeKey → Prop} (kept : Kept owing state)
    (weaker : ∀ key, owing key → more key) : Kept more state :=
  { kept with
    asks := fun id flight found free => kept.asks id flight found fun owes => free (weaker _ owes)
    waits := fun key free => kept.waits key fun owes => free (weaker key owes) }

/-- An edge with no play of this tab's owes nothing. -/
theorem Kept.settle {fewer : EdgeKey → Prop} (kept : Kept owing state)
    (settled : ∀ key, owing key → ¬ fewer key → ¬ state.OwnQueued key) : Kept fewer state :=
  { kept with
    asks := fun id flight found free unasked event inside own => by
      by_cases owes : owing flight.key
      · exact absurd ⟨event, inside, own⟩ (settled _ owes free)
      · exact kept.asks id flight found owes unasked event inside own
    waits := fun key free idle queued => by
      by_cases owes : owing key
      · exact absurd queued (settled key owes free)
      · exact kept.waits key owes idle queued }

/-- A queue changes without a play of this tab's that was not there. -/
theorem Kept.requeue (kept : Kept owing state) {queue : List PlaybackEvent}
    (fewer : ∀ event ∈ queue, event ∈ state.ours key → event ∈ state.queues key) :
    Kept owing { state with queues := Function.update state.queues key queue } := by
  have fewer' (other : EdgeKey) (event : PlaybackEvent)
      (inside : event ∈ Function.update state.queues key queue other)
      (own : event ∈ state.ours other) : event ∈ state.queues other := by
    by_cases same : other = key
    · subst same
      rw [Function.update_self] at inside
      exact fewer event inside own
    · rwa [Function.update_of_ne same] at inside
  exact
    { kept with
      asks := fun id flight found free unasked event inside own =>
        kept.asks id flight found free unasked event (fewer' _ event inside own) own
      waits := fun other free idle queued =>
        let ⟨event, inside, own⟩ := queued
        kept.waits other free idle ⟨event, fewer' other event inside own, own⟩ }

/-- What `flushEndpoint` is asked for, it sees to. -/
theorem Kept.flushEndpoint (kept : Kept owing state) (endpoint : BlobEndpoint) :
    Kept (fun key => owing key ∧ key ≠ edgeKey endpoint) (flushEndpoint state endpoint) := by
  simp only [Hook.flushEndpoint]
  split
  · rename_i busy
    refine { kept with asks := ?_, waits := ?_ }
    · intro id flight found free unasked event inside own
      by_cases same : flight.key = edgeKey endpoint
      · simp [same] at unasked
      · have before : state.pending flight.key = false :=
          (Function.update_of_ne same ..).symm.trans unasked
        exact kept.asks id flight found (fun owes => free ⟨owes, same⟩) before event inside own
    · intro key free idle queued
      by_cases same : key = edgeKey endpoint
      · subst same
        rw [busy] at idle
        cases idle
      · exact kept.waits key (fun owes => free ⟨owes, same⟩) idle queued
  · rename_i idle
    have unmarked : state.inFlight (edgeKey endpoint) = false := by simpa using idle
    have elsewhere (id : FlightId) (flight : Flight) (found : state.flights id = some flight) :
        flight.key ≠ edgeKey endpoint := by
      intro same
      have mark := kept.marked id flight found
      rw [same, unmarked] at mark
      cases mark
    exact
      { registered := kept.registered
        freshTimer := kept.freshTimer
        configured := kept.configured
        marked := fun id flight found => by
          rcases Table.put_cases found with ⟨-, rfl⟩ | ⟨-, old⟩
          · exact Function.update_self ..
          · exact (Function.update_of_ne (elsewhere id flight old) ..).trans
              (kept.marked id flight old)
        flying := fun key flies => by
          by_cases same : key = edgeKey endpoint
          · subst same
            exact ⟨_, _, Table.put_self, rfl⟩
          · have flew : state.inFlight key = true := (Function.update_of_ne same ..).symm.trans flies
            obtain ⟨id, flight, found, is⟩ := kept.flying key flew
            refine ⟨id, flight, (Table.put_other ?_).trans found, is⟩
            rintro rfl
            rw [kept.freshFlight _ (Nat.le_refl _)] at found
            cases found
        oneFlush := fun first second one other foundOne foundOther same => by
          rcases Table.put_cases foundOne with ⟨rfl, rfl⟩ | ⟨-, oldOne⟩
          · rcases Table.put_cases foundOther with ⟨rfl, -⟩ | ⟨-, oldOther⟩
            · rfl
            · exact absurd same.symm (elsewhere second other oldOther)
          · rcases Table.put_cases foundOther with ⟨-, rfl⟩ | ⟨-, oldOther⟩
            · exact absurd same (elsewhere first one oldOne)
            · exact kept.oneFlush first second one other oldOne oldOther same
        freshFlight := fun id above => by
          have later : state.nextFlight < id := above
          exact (Table.put_other later.ne').trans (kept.freshFlight id later.le)
        asks := fun id flight found free unasked event inside own => by
          rcases Table.put_cases found with ⟨-, rfl⟩ | ⟨-, old⟩
          · exact inside
          · have different := elsewhere id flight old
            have before : state.pending flight.key = false :=
              (Function.update_of_ne different ..).symm.trans unasked
            exact kept.asks id flight old (fun owes => free ⟨owes, different⟩) before event inside
              own
        waits := fun key free idle queued => by
          by_cases same : key = edgeKey endpoint
          · subst same
            have busy := (Function.update_self ..).symm.trans idle
            cases busy
          · have before : state.inFlight key = false :=
              (Function.update_of_ne same ..).symm.trans idle
            exact kept.waits key (fun owes => free ⟨owes, same⟩) before queued }

theorem Kept.flushEach (kept : Kept owing state) (endpoints : List BlobEndpoint) :
    Kept (fun key => owing key ∧ ∀ endpoint ∈ endpoints, key ≠ edgeKey endpoint)
      (endpoints.foldl Hook.flushEndpoint state) := by
  induction endpoints generalizing owing state with
  | nil => exact kept.weaken fun key owes => ⟨owes, fun _ member => nomatch member⟩
  | cons endpoint rest induction =>
      refine (induction (kept.flushEndpoint endpoint)).weaken fun key owes => ?_
      obtain ⟨⟨owed, first⟩, others⟩ := owes
      exact ⟨owed, List.forall_mem_cons.mpr ⟨first, others⟩⟩

/-- Every configured edge is asked, so no edge owes anything after it. -/
theorem Kept.flushAll (kept : Kept owing state) : Kept (fun _ => False) (flushAll state) := by
  have found : Kept (fun key => state.configures key = true) state.findQueued :=
    { kept with
      configured := fun key unknown => by
        have before : state.configures key = false := unknown
        simp [State.findQueued, before, kept.configured key before]
      asks := fun id flight held free unasked event inside own => by
        have unknown : state.configures flight.key = false := by simpa using free
        simp only [State.findQueued, unknown] at own
        rw [kept.configured _ unknown] at own
        cases own
      waits := fun key free idle queued => by
        obtain ⟨event, inside, own⟩ := queued
        have unknown : state.configures key = false := by simpa using free
        simp only [State.findQueued, unknown] at own
        rw [kept.configured _ unknown] at own
        cases own }
  refine (found.flushEach state.endpoints).weaken fun key owes => ?_
  obtain ⟨configured, others⟩ := owes
  obtain ⟨endpoint, member, same⟩ := List.any_eq_true.mp configured
  exact others endpoint member (of_decide_eq_true same).symm

/-- An edge stays configured, or its plays are not the tab's to deliver any more. -/
theorem Kept.know (kept : Kept owing state) (endpoints : List BlobEndpoint) :
    Kept owing (state.know endpoints) := by
  have fewer (key : EdgeKey) (event : PlaybackEvent)
      (own : event ∈ (state.know endpoints).ours key) : event ∈ state.ours key := by
    simp only [State.know] at own
    split at own
    · exact own
    · cases own
  exact
    { kept with
      configured := fun key unknown => by
        have left : endpoints.any (edgeKey · = key) = false := unknown
        simp only [State.know, left, Bool.and_false, Bool.false_eq_true, if_false]
      asks := fun id flight found free unasked event inside own =>
        kept.asks id flight found free unasked event inside (fewer _ event own)
      waits := fun key free idle queued =>
        let ⟨event, inside, own⟩ := queued
        kept.waits key free idle ⟨event, inside, fewer key event own⟩ }

/-! ## What a flush leaves -/

variable {batch current : List PlaybackEvent} {reply : Reply} {outcome : FlushOutcome}

theorem settleFlush_subset (batch current : List PlaybackEvent) (reply : Reply) :
    (settleFlush batch current reply).queue ⊆ current := by
  intro event inside
  simp only [settleFlush] at inside
  repeat' split at inside
  all_goals first
    | exact inside
    | exact (List.mem_filter.mp inside).1
    | cases inside

/-- A flush after which nothing is retried leaves none of what it sent. -/
theorem settleFlush_done
    (resolved : (settleFlush batch current reply).outcome = some outcome)
    (done : outcome = .empty ∨ outcome = .flushed 0) {event : PlaybackEvent}
    (sent : event ∈ batch) : event ∉ (settleFlush batch current reply).queue := by
  intro inside
  simp only [settleFlush, List.ne_nil_of_mem sent, if_false] at resolved inside
  split at inside
  · cases inside
  · rename_i taken
    simp only [taken, Bool.false_eq_true, if_false] at resolved
    split at inside
    · cases resolved
      simp at done
    · rename_i status body
      by_cases ok : isOk status = true
      · simp only [ok, if_true] at resolved inside
        split at inside
        · cases resolved
          simp at done
        · rename_i answer
          cases applied : applyAnswer batch answer with
          | none => simp [applied] at resolved
          | some kept =>
              simp only [applied, Option.some.injEq] at resolved inside
              subst resolved
              have allDropped : kept = [] := by simpa using done
              have different := of_decide_eq_true (List.mem_filter.mp inside).2
              simp [allDropped, List.mem_map_of_mem sent] at different
      · simp only [ok, Bool.false_eq_true, if_false] at resolved
        cases resolved
        simp at done

/-- The flush is over, and nothing is armed yet. -/
theorem Kept.landed (kept : Kept owing state) {id : FlightId}
    (flying : state.flights id = some ⟨endpoint, batch⟩) {queue : List PlaybackEvent}
    (fewer : queue ⊆ state.queues (edgeKey endpoint)) :
    Kept (fun key => owing key ∨ key = edgeKey endpoint)
      (state.landed id (edgeKey endpoint) queue) := by
  have requeued := kept.requeue fun event inside _ => fewer inside
  have elsewhere (other : FlightId) (flight : Flight) (different : other ≠ id)
      (found : state.flights other = some flight) : flight.key ≠ edgeKey endpoint :=
    fun same => different (kept.oneFlush other id flight _ found flying same)
  have before (other : FlightId) (flight : Flight)
      (found : (state.landed id (edgeKey endpoint) queue).flights other = some flight) :
      other ≠ id ∧ state.flights other = some flight := by
    by_cases same : other = id
    · subst same
      cases Table.remove_self.symm.trans found
    · exact ⟨same, (Table.remove_other same).symm.trans found⟩
  exact
    { requeued with
      marked := fun other flight found => by
        obtain ⟨different, old⟩ := before other flight found
        exact (Function.update_of_ne (elsewhere other flight different old) ..).trans
          (kept.marked other flight old)
      flying := fun key flies => by
        by_cases same : key = edgeKey endpoint
        · subst same
          cases (Function.update_self ..).symm.trans flies
        · obtain ⟨other, flight, found, is⟩ :=
            kept.flying key ((Function.update_of_ne same ..).symm.trans flies)
          refine ⟨other, flight, (Table.remove_other ?_).trans found, is⟩
          rintro rfl
          rw [flying, Option.some.injEq] at found
          exact same (is.symm.trans (congrArg Flight.key found.symm))
      oneFlush := fun first second one other foundOne foundOther same =>
        kept.oneFlush first second one other (before first one foundOne).2
          (before second other foundOther).2 same
      freshFlight := fun other above => by
        by_cases same : other = id
        · subst same
          exact Table.remove_self
        · exact (Table.remove_other same).trans (kept.freshFlight other above)
      asks := fun other flight found free unasked =>
        requeued.asks other flight (before other flight found).2 (fun owes => free (.inl owes))
          unasked
      waits := fun key free idle => by
        have different : key ≠ edgeKey endpoint := fun same => free (.inr same)
        exact requeued.waits key (fun owes => free (.inl owes))
          ((Function.update_of_ne different ..).symm.trans idle) }

theorem Kept.clearTimer (kept : Kept owing state) (owes : owing key) :
    Kept owing (state.clearTimer key) := by
  unfold State.clearTimer
  split
  · exact kept
  · rename_i existing registered
    have armed := (kept.registered existing key).mpr registered
    refine { kept with registered := ?_, freshTimer := ?_, waits := ?_ }
    · intro timer other
      show state.armed.remove existing timer = some other ↔
        Function.update state.timers key none other = some timer
      by_cases same : timer = existing
      · subst same
        rw [Table.remove_self]
        by_cases here : other = key
        · simp [here]
        · rw [Function.update_of_ne here, ← kept.registered timer other, armed, Option.some.injEq]
          exact iff_of_false nofun fun equal => here equal.symm
      · rw [Table.remove_other same, kept.registered timer other]
        by_cases here : other = key
        · subst here
          rw [Function.update_self, registered, Option.some.injEq]
          exact iff_of_false (fun equal => same equal.symm) nofun
        · rw [Function.update_of_ne here]
    · intro timer above
      by_cases same : timer = existing
      · subst same
        exact Table.remove_self
      · exact (Table.remove_other same).trans (kept.freshTimer timer above)
    · intro other free idle queued
      have different : other ≠ key := fun same => free (same ▸ owes)
      exact (congrArg Option.isSome (Function.update_of_ne different ..)).trans
        (kept.waits other free idle queued)

theorem timers_clearTimer (state : State) (key : EdgeKey) :
    (state.clearTimer key).timers key = none := by
  unfold State.clearTimer
  split
  · assumption
  · exact Function.update_self ..

/-- An edge with no flush and a timer owes nothing. -/
theorem Kept.setTimer (kept : Kept owing state) (idle : state.inFlight key = false)
    (unarmed : state.timers key = none) :
    Kept (fun other => owing other ∧ other ≠ key) (state.setTimer key) := by
  refine { kept with registered := ?_, freshTimer := ?_, asks := ?_, waits := ?_ }
  · intro timer other
    show state.armed.put state.nextTimer key timer = some other ↔
      Function.update state.timers key (some state.nextTimer) other = some timer
    by_cases same : timer = state.nextTimer
    · subst same
      rw [Table.put_self, Option.some.injEq]
      by_cases here : other = key
      · simp [here]
      · rw [Function.update_of_ne here, ← kept.registered, kept.freshTimer _ (Nat.le_refl _)]
        exact iff_of_false (fun equal => here equal.symm) nofun
    · rw [Table.put_other same, kept.registered timer other]
      by_cases here : other = key
      · subst here
        rw [Function.update_self, unarmed, Option.some.injEq]
        exact iff_of_false nofun fun equal => same equal.symm
      · rw [Function.update_of_ne here]
  · intro timer above
    have later : state.nextTimer < timer := above
    exact (Table.put_other later.ne').trans (kept.freshTimer timer later.le)
  · intro id flight found free
    have different : flight.key ≠ key := by
      rintro rfl
      rw [kept.marked id flight found] at idle
      cases idle
    exact kept.asks id flight found fun owes => free ⟨owes, different⟩
  · intro other free quiet queued
    by_cases same : other = key
    · subst same
      show (Function.update state.timers other (some state.nextTimer) other).isSome = true
      rw [Function.update_self]
      rfl
    · exact (congrArg Option.isSome (Function.update_of_ne same ..)).trans
        (kept.waits other (fun owes => free ⟨owes, same⟩) quiet queued)

theorem clearTimer_eq (state : State) (key : EdgeKey) :
    ∃ armed timers, state.clearTimer key = { state with armed, timers } := by
  unfold State.clearTimer
  split <;> exact ⟨_, _, rfl⟩

/-- What `flushEndpoint` does once its flush is over leaves its edge a flush, a timer or nothing
to deliver. -/
theorem Kept.flushSettled (kept : Kept (fun key => key = edgeKey endpoint) state)
    (mounted : state.mounted = true) (idle : state.inFlight (edgeKey endpoint) = false)
    (nothing : outcome = .empty ∨ outcome = .flushed 0 →
      state.pending (edgeKey endpoint) = false → ¬ state.OwnQueued (edgeKey endpoint)) :
    Kept (fun _ => False) (flushSettled state endpoint outcome) := by
  have cleared : Kept (fun key => key = edgeKey endpoint)
      (state.clearTimer (edgeKey endpoint)) := kept.clearTimer rfl
  have unarmed := timers_clearTimer state (edgeKey endpoint)
  obtain ⟨armed, timers, same⟩ := clearTimer_eq state (edgeKey endpoint)
  simp only [Hook.flushSettled, mounted, Bool.true_eq_false, if_false]
  rw [same] at cleared unarmed ⊢
  have retry (failures : EdgeKey → Nat) :
      Kept (fun _ => False) (State.setTimer { state with armed, timers, failures }
        (edgeKey endpoint)) := by
    have failed : Kept (fun key => key = edgeKey endpoint)
        { state with armed, timers, failures } := { cleared with }
    exact (failed.setTimer idle unarmed).weaken fun key owes => owes.2 owes.1
  have done (nothingLeft : outcome = .empty ∨ outcome = .flushed 0) (failures : EdgeKey → Nat) :
      Kept (fun _ => False) (if state.pending (edgeKey endpoint) then
        Hook.flushEndpoint { state with armed, timers, failures } endpoint
          else { state with armed, timers, failures }) := by
    have settled : Kept (fun key => key = edgeKey endpoint)
        { state with armed, timers, failures } := { cleared with }
    split
    · exact (settled.flushEndpoint endpoint).weaken fun key owes => owes.2 owes.1
    · rename_i unasked
      refine settled.settle fun key owes _ => ?_
      subst owes
      exact nothing nothingLeft (by simpa using unasked)
  match outcome with
  | .empty => exact done (.inl rfl) _
  | .flushed 0 => exact done (.inr rfl) _
  | .flushed (more + 1) => exact retry _
  | .deferred => exact retry _

/-! ## Steps -/

/-- While the hook is unmounted nothing is retried. -/
def Sound (state : State) : Prop := Kept (fun _ => state.mounted = false) state

theorem Kept.sound (kept : Kept (fun _ => False) state) : Sound state :=
  kept.weaken fun _ owes => owes.elim

theorem Sound.mounted (sound : Sound state) (mounted : state.mounted = true) :
    Kept (fun _ => False) state :=
  sound.weaken fun _ owes => by simp [mounted] at owes

theorem Sound.resolve (sound : Sound state) {id : FlightId}
    (flying : state.flights id = some ⟨endpoint, batch⟩)
    (resolved : (settleFlush batch (state.queues (edgeKey endpoint)) reply).outcome = some outcome) :
    Sound (Hook.flushSettled (state.landed id (edgeKey endpoint)
      (settleFlush batch (state.queues (edgeKey endpoint)) reply).queue) endpoint outcome) := by
  have fewer := settleFlush_subset batch (state.queues (edgeKey endpoint)) reply
  cases mounted : state.mounted with
  | false =>
      have landed := Kept.landed sound flying fewer
      have settledNow : Hook.flushSettled (state.landed id (edgeKey endpoint) (settleFlush batch
          (state.queues (edgeKey endpoint)) reply).queue) endpoint outcome =
            state.landed id (edgeKey endpoint) (settleFlush batch
              (state.queues (edgeKey endpoint)) reply).queue := by
        simp only [Hook.flushSettled, State.landed, mounted, if_true]
      rw [settledNow]
      exact landed.weaken fun _ _ => mounted
  | true =>
      have kept := sound.mounted mounted
      have landed := (kept.landed flying fewer).weaken fun key owes => owes.resolve_left not_false
      refine (landed.flushSettled mounted (Function.update_self ..) fun done unasked queued => ?_).sound
      obtain ⟨event, inside, own⟩ := queued
      have left : event ∈ (settleFlush batch (state.queues (edgeKey endpoint)) reply).queue := by
        simpa [State.landed] using inside
      have sent := kept.asks id _ flying nofun unasked event (fewer left) own
      exact settleFlush_done resolved done sent left

theorem mounted_flushEndpoint (state : State) (endpoint : BlobEndpoint) :
    (Hook.flushEndpoint state endpoint).mounted = state.mounted := by
  simp only [Hook.flushEndpoint]
  split <;> rfl

/-- Asking for a flush pays what one edge owes. -/
theorem Kept.sound_flushEndpoint
    (kept : Kept (fun key => state.mounted = false ∨ key = edgeKey endpoint) state) :
    Sound (Hook.flushEndpoint state endpoint) := by
  refine (kept.flushEndpoint endpoint).weaken fun key owes => ?_
  rw [mounted_flushEndpoint]
  exact owes.1.resolve_right owes.2

theorem configures_target {recordingUrl : JsString} {target : BlobEndpoint}
    (resolved : EventQueue.resolveEventTarget recordingUrl state.endpoints = some target) :
    state.configures (edgeKey target) = true := by
  have member : target ∈ state.endpoints := by
    simp only [EventQueue.resolveEventTarget, Option.orElse_eq_some] at resolved
    rcases resolved with found | ⟨-, first⟩
    · exact List.mem_of_find?_eq_some found
    · exact List.mem_of_head? first
  exact List.any_eq_true.mpr ⟨target, member, by simp⟩

theorem Sound.recordPlaySession (sound : Sound state) (event : PlaybackEvent) :
    Sound (Hook.recordPlaySession cap state event) := by
  unfold Hook.recordPlaySession
  split
  · exact sound
  · rename_i target resolved
    apply Kept.sound_flushEndpoint
    exact
      { sound with
        configured := fun key unknown => by
          have different : key ≠ edgeKey target := by
            rintro rfl
            exact Bool.false_ne_true (unknown.symm.trans (configures_target resolved))
          exact (Function.update_of_ne different ..).trans (sound.configured key unknown)
        asks := fun id flight found free unasked event inside own => by
          have different : flight.key ≠ edgeKey target := fun same => free (.inr same)
          simp only [Function.update_of_ne different] at inside own
          exact sound.asks id flight found (fun owes => free (.inl owes)) unasked event inside own
        waits := fun key free idle queued => by
          have different : key ≠ edgeKey target := fun same => free (.inr same)
          obtain ⟨event, inside, own⟩ := queued
          simp only [Function.update_of_ne different] at inside own
          exact sound.waits key (fun owes => free (.inl owes)) idle ⟨event, inside, own⟩ }

theorem Sound.timerFires (sound : Sound state) {timer : TimerId}
    (armed : state.armed timer = some key) : Sound (Hook.timerFires state timer key) := by
  have owing : Kept (fun other => state.mounted = false ∨ other = key) state :=
    sound.weaken fun _ => .inl
  have fired := owing.clearTimer (.inr rfl)
  simp only [State.clearTimer, (sound.registered timer key).mp armed] at fired
  simp only [Hook.timerFires]
  split
  · rename_i unknown
    refine fired.settle fun other owes paid => ?_
    have same : other = key := owes.resolve_left paid
    have nothing : state.ours key = [] := by
      apply sound.configured key
      simpa [State.configures] using unknown
    rintro ⟨event, -, own⟩
    rw [same, show state.ours key = [] from nothing] at own
    cases own
  · rename_i current known
    have same : edgeKey current = key := by simpa using List.find?_some known
    subst same
    exact fired.sound_flushEndpoint

theorem Sound.unmount (sound : Sound state) : Sound (Hook.unmount state) := by
  refine { sound with registered := ?_, freshTimer := ?_, asks := ?_, waits := ?_ }
  · intro timer key
    refine iff_of_false (fun kept => ?_) nofun
    obtain ⟨armed, unregistered⟩ := Option.filter_eq_some_iff.mp kept
    exact of_decide_eq_true unregistered ((sound.registered timer key).mp armed)
  · intro timer above
    simp [Hook.unmount, sound.freshTimer timer above]
  · exact fun _ _ _ free => absurd rfl free
  · exact fun _ free => absurd rfl free

theorem Sound.step {action : Action} (sound : Sound state)
    (taken : step cap state action = some next) : Sound next := by
  cases action with
  | mount endpoints =>
      simp only [Hook.step] at taken
      split at taken
      · cases taken
      · cases taken
        have flushed := (Kept.know sound endpoints).flushAll
        have mounted : Kept (fun _ => False)
            { Hook.flushAll (state.know endpoints) with mounted := true } := { flushed with }
        exact mounted.sound
  | unmount =>
      simp only [Hook.step] at taken
      split at taken
      · cases taken
        exact sound.unmount
      · cases taken
  | changeEndpoints endpoints =>
      simp only [Hook.step] at taken
      split at taken
      · rename_i mounted
        cases taken
        have known := (sound.mounted mounted).know endpoints
        split
        · exact known.sound
        · exact known.flushAll.sound
      · cases taken
  | recordPlaySession event =>
      cases taken
      exact sound.recordPlaySession event
  | flushAll =>
      simp only [Hook.step] at taken
      split at taken
      · cases taken
        exact (Kept.flushAll sound).sound
      · cases taken
  | reply id reply =>
      simp only [Hook.step] at taken
      split at taken
      · cases taken
      · rename_i endpoint batch flying
        obtain ⟨outcome, resolved, rfl⟩ := Option.map_eq_some_iff.mp taken
        exact sound.resolve flying resolved
  | timerFires timer =>
      obtain ⟨key, armed, rfl⟩ := Option.map_eq_some_iff.mp taken
      exact sound.timerFires armed
  | otherTab key queue =>
      simp only [Hook.step] at taken
      split at taken
      · rename_i others
        cases taken
        refine Kept.requeue sound fun event inside own => ?_
        have other := List.all_eq_true.mp others event inside
        simpa [own] using other
      · cases taken

theorem sound_new (queues : EdgeKey → List PlaybackEvent) : Sound (.new queues) where
  marked := fun _ _ found => nomatch found
  flying := fun _ flies => nomatch flies
  oneFlush := fun _ _ _ _ found => nomatch found
  freshFlight := fun _ _ => rfl
  registered := fun _ _ => iff_of_false nofun nofun
  freshTimer := fun _ _ => rfl
  configured := fun _ _ => rfl
  asks := fun _ _ found => nomatch found
  waits := fun _ free => absurd rfl free

theorem no_play_is_stranded (cap : Nat) (queues : EdgeKey → List PlaybackEvent) (state : State)
    (reached : Reaches (step cap) anyAction (.new queues) state) : NoneStranded state := by
  have sound := reached.invariant Sound (sound_new queues) fun _ sound _ taken => sound.step taken
  constructor
  · exact sound.oneFlush
  · intro first second key one other
    have same := ((sound.registered first key).mp one).symm.trans
      ((sound.registered second key).mp other)
    exact Option.some.inj same
  · intro mounted endpoint _ unflushed queued
    have kept := sound.mounted mounted
    have idle : state.inFlight (edgeKey endpoint) = false := by
      by_contra busy
      obtain ⟨id, flight, flying, same⟩ := kept.flying _ (by simpa using busy)
      exact unflushed id flight flying same
    obtain ⟨timer, registered⟩ := Option.isSome_iff_exists.mp
      (kept.waits _ not_false idle queued)
    exact ⟨timer, (kept.registered timer _).mpr registered⟩

/-! A play finishes while the flush of another is open, and the host is away. -/

def studio : BlobEndpoint := ⟨js "http://studio.local:4321", some (js "token"), none⟩

def nothingQueued : State := .new fun _ => []

def hostAway : List Action :=
  [.mount [studio], .reply 0 .failed, .recordPlaySession (samplePlay "a"),
    .recordPlaySession (samplePlay "b"), .reply 1 .failed]

theorem plays_wait_on_a_timer : ∃ state,
    Reaches (step 500) anyAction nothingQueued state ∧ state.mounted = true ∧
      state.OwnQueued (edgeKey studio) ∧ state.flights 1 = none ∧ NoneStranded state := by
  have ran : run (step 500) nothingQueued hostAway =
      some ((run (step 500) nothingQueued hostAway).getD nothingQueued) := by rfl
  have reached := Reaches.of_run ran (meetsAlong_anyAction _ _)
  exact ⟨_, reached, by decide, ⟨samplePlay "b", by decide, by decide⟩, by rfl,
    no_play_is_stranded 500 (fun _ => []) _ reached⟩

end Tapes.Outbox.Hook
