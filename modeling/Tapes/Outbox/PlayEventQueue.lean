import Tapes.Machine.Run
import Tapes.Outbox.FlushQueue

namespace Tapes.Outbox

open Tapes.Js Tapes.Machine
open Tapes.Events (PlaybackEvent)

/-! `usePlayEventQueue` for one host, while it is mounted: the stored queue, the flush that is open,
and the timer of the next one. -/

/-- `inFlight` is the batch of the open flush. -/
structure Edge where
  queue : List PlaybackEvent
  inFlight : Option (List PlaybackEvent)
  pending : Bool
  timer : Bool
  failures : Nat

def Edge.mounted (queue : List PlaybackEvent) : Edge := ⟨queue, none, false, false, 0⟩

/-- `flushEndpoint` up to the flush it awaits. -/
def flushEndpoint (edge : Edge) : Edge :=
  match edge.inFlight with
  | some _ => { edge with pending := true }
  | none => { edge with pending := false, inFlight := some edge.queue }

/-- The rest of `flushEndpoint`. A flush that rejects ends it after its `finally`. -/
def flushSettled (edge : Edge) (batch : List PlaybackEvent) (reply : Reply) : Edge :=
  let settlement := settleFlush batch edge.queue reply
  let idle := { edge with queue := settlement.queue, inFlight := none }
  match settlement.outcome with
  | none => idle
  | some .empty | some (.flushed 0) =>
      let settled := { idle with timer := false, failures := 0 }
      if settled.pending then flushEndpoint settled else settled
  | some _ => { idle with timer := true, failures := idle.failures + 1 }

def recordPlaySession (cap : Nat) (edge : Edge) (event : PlaybackEvent) : Edge :=
  flushEndpoint { edge with queue := enqueueEvent edge.queue event cap }

inductive EdgeAction where
  | recordPlaySession (event : PlaybackEvent)
  /-- Something that asks for a flush: the device is back online, or the app in the foreground. -/
  | flushAll
  | reply (reply : Reply)
  /-- The timer is due. A host that is not known any more is not asked. -/
  | timerFires (known : Bool)

def edgeStep (cap : Nat) (edge : Edge) : EdgeAction → Option Edge
  | .recordPlaySession event => some (recordPlaySession cap edge event)
  | .flushAll => some (flushEndpoint edge)
  | .reply reply => edge.inFlight.map fun batch => flushSettled edge batch reply
  | .timerFires known =>
      if edge.timer then
        let fired := { edge with timer := false }
        some (if known then flushEndpoint fired else fired)
      else none

/-- The flush resolves; what no well-formed part of the answer settled is queued; the in-flight mark
is cleared, and while anything is queued a retry is armed or has begun. -/
structure SurvivesAnswer (edge : Edge) (batch : List PlaybackEvent) (answer : JsValue) : Prop where
  resolves : (settleFlush batch edge.queue (.answered 200 (some answer))).outcome.isSome = true
  stays : ∀ event ∈ edge.queue,
    (event.id ∈ batch.map PlaybackEvent.id → event.id ∉ saidBy batch answer) →
      event ∈ (settleFlush batch edge.queue (.answered 200 (some answer))).queue
  cleared : (flushSettled edge batch (.answered 200 (some answer))).inFlight = none ∨
    (flushSettled edge batch (.answered 200 (some answer))).inFlight =
      some (flushSettled edge batch (.answered 200 (some answer))).queue
  armed : (flushSettled edge batch (.answered 200 (some answer))).queue ≠ [] →
    (flushSettled edge batch (.answered 200 (some answer))).timer = true ∨
      (flushSettled edge batch (.answered 200 (some answer))).inFlight.isSome = true

/-! ## The invariant -/

/-- A play that came after the batch was read has asked for a flush. -/
def Edge.Asks (edge : Edge) : Prop :=
  ∀ batch, edge.inFlight = some batch → edge.pending = false → edge.queue ⊆ batch

variable {edge next : Edge} {batch : List PlaybackEvent} {answer : JsValue} {reply : Reply}
  {cap : Nat}

theorem asks_flushEndpoint (edge : Edge) : (flushEndpoint edge).Asks := by
  intro batch underWay unasked
  cases found : edge.inFlight with
  | some sent =>
      simp only [flushEndpoint, found] at unasked
      cases unasked
  | none =>
      simp only [flushEndpoint, found] at underWay ⊢
      cases underWay
      exact List.Subset.refl _

theorem asks_idle (idle : edge.inFlight = none) : edge.Asks := by
  intro batch underWay
  rw [idle] at underWay
  cases underWay

/-- What a flush leaves of the hook: nothing to do, a flush that begins anew, or a timer. -/
inductive Left (edge : Edge) (batch : List PlaybackEvent) (reply : Reply) : Prop where
  | rejected (outcome : (settleFlush batch edge.queue reply).outcome = none)
      (idle : (flushSettled edge batch reply).inFlight = none)
  | done (outcome : (settleFlush batch edge.queue reply).outcome = some .empty ∨
        (settleFlush batch edge.queue reply).outcome = some (.flushed 0))
      (unasked : edge.pending = false) (idle : (flushSettled edge batch reply).inFlight = none)
  | again (flushing : (flushSettled edge batch reply).inFlight =
      some (flushSettled edge batch reply).queue)
  | waits (idle : (flushSettled edge batch reply).inFlight = none)
      (armed : (flushSettled edge batch reply).timer = true)

theorem left_of_settled {outcome : FlushOutcome}
    (resolved : (settleFlush batch edge.queue reply).outcome = some outcome)
    (settled : outcome = .empty ∨ outcome = .flushed 0) : Left edge batch reply := by
  have rest : flushSettled edge batch reply =
      let idle : Edge := ⟨(settleFlush batch edge.queue reply).queue, none, edge.pending, false, 0⟩
      if idle.pending then flushEndpoint idle else idle := by
    obtain rfl | rfl := settled <;> simp only [flushSettled, resolved]
  cases asked : edge.pending with
  | true =>
      refine .again ?_
      rw [rest]
      simp [asked, flushEndpoint]
  | false =>
      refine .done ?_ asked ?_
      · rw [resolved]
        exact settled.imp (congrArg some) (congrArg some)
      · rw [rest]
        simp [asked]

theorem left_flushSettled (edge : Edge) (batch : List PlaybackEvent) (reply : Reply) :
    Left edge batch reply := by
  cases resolved : (settleFlush batch edge.queue reply).outcome with
  | none => exact .rejected resolved (by simp [flushSettled, resolved])
  | some outcome =>
      match outcome with
      | .empty => exact left_of_settled resolved (.inl rfl)
      | .flushed 0 => exact left_of_settled resolved (.inr rfl)
      | .flushed (more + 1) | .deferred =>
          exact .waits (by simp [flushSettled, resolved]) (by simp [flushSettled, resolved])

theorem flushSettled_queue (edge : Edge) (batch : List PlaybackEvent) (reply : Reply) :
    (flushSettled edge batch reply).queue = (settleFlush batch edge.queue reply).queue := by
  simp only [flushSettled]
  split
  · rfl
  · split <;> rfl
  · split <;> rfl
  · rfl

theorem asks_flushSettled (edge : Edge) (batch : List PlaybackEvent) (reply : Reply) :
    (flushSettled edge batch reply).Asks := by
  cases left_flushSettled edge batch reply with
  | rejected outcome idle => exact asks_idle idle
  | done outcome unasked idle => exact asks_idle idle
  | waits idle armed => exact asks_idle idle
  | again flushing =>
      intro sent underWay _
      rw [flushing, Option.some.injEq] at underWay
      rw [underWay]
      exact List.Subset.refl _

theorem Edge.Asks.step {action : EdgeAction} (asks : edge.Asks)
    (taken : edgeStep cap edge action = some next) : next.Asks := by
  cases action with
  | recordPlaySession event =>
      cases taken
      exact asks_flushEndpoint _
  | flushAll =>
      cases taken
      exact asks_flushEndpoint _
  | reply reply =>
      obtain ⟨batch, sent, rfl⟩ := Option.map_eq_some_iff.mp taken
      exact asks_flushSettled edge batch reply
  | timerFires known =>
      simp only [edgeStep] at taken
      split at taken
      · cases taken
        split
        · exact asks_flushEndpoint _
        · exact asks
      · cases taken

/-! ## One answer -/

/-- What the answer must be like, unless nothing was sent: it can be read, and its ill-typed parts
name no queued play of the batch that its well-formed parts do not settle. -/
def WellAnswered (edge : Edge) (batch : List PlaybackEvent) (answer : JsValue) : Prop :=
  batch = [] ∨ Readable answer ∧ ∀ event ∈ edge.queue, event.id ∈ batch.map PlaybackEvent.id →
    event.id ∈ misnamedBy batch answer → event.id ∈ saidBy batch answer

theorem cleared_flushSettled (edge : Edge) (batch : List PlaybackEvent) (reply : Reply) :
    (flushSettled edge batch reply).inFlight = none ∨
      (flushSettled edge batch reply).inFlight = some (flushSettled edge batch reply).queue := by
  cases left_flushSettled edge batch reply with
  | rejected outcome idle => exact .inl idle
  | done outcome unasked idle => exact .inl idle
  | waits idle armed => exact .inl idle
  | again flushing => exact .inr flushing

/-- A flush that resolved leaves a retry for what is queued. -/
theorem Edge.Asks.armed (asks : edge.Asks) (sent : edge.inFlight = some batch)
    (resolves : (settleFlush batch edge.queue reply).outcome.isSome = true)
    (found : batch = [] ∨ ∃ answer, reply.answer? = some answer ∧ Readable answer)
    (queued : (flushSettled edge batch reply).queue ≠ []) :
    (flushSettled edge batch reply).timer = true ∨
      (flushSettled edge batch reply).inFlight.isSome = true := by
  cases left_flushSettled edge batch reply with
  | rejected outcome idle =>
      rw [outcome] at resolves
      cases resolves
  | waits idle armed => exact .inl armed
  | again flushing => exact .inr (by simp [flushing])
  | done outcome unasked idle =>
      -- nobody asked for another flush, so what is queued was sent, and none of it is left
      have inBatch := asks batch sent unasked
      refine absurd ?_ queued
      rw [flushSettled_queue]
      obtain rfl | ⟨answer, given, readable⟩ := found
      · exact List.subset_nil.mp inBatch
      by_cases empty : batch = []
      · subst empty
        exact List.subset_nil.mp inBatch
      · rw [settleFlush_readable empty given readable] at outcome ⊢
        have allNamed : batch.filter (fun event =>
            event.id ∉ saidBy batch answer ∧ event.id ∉ misnamedBy batch answer) = [] := by
          obtain absurd' | remaining := outcome
          · cases absurd'
          · simpa using remaining
        refine List.filter_eq_nil_iff.mpr fun event inside kept => ?_
        obtain different | unnamed := of_decide_eq_true kept
        · exact different (List.mem_map_of_mem (inBatch inside))
        · exact List.filter_eq_nil_iff.mp allNamed event (inBatch inside) (decide_eq_true unnamed)

theorem answer?_ok (answer : JsValue) :
    (Reply.answered 200 (some answer)).answer? = some answer := rfl

/-- A flush that gets an answer resolves, settles what the answer says and has its retry exactly when
the answer can be read and names what it should. -/
theorem survivesAnswer_iff (cap : Nat) (queue : List PlaybackEvent) (edge : Edge)
    (batch : List PlaybackEvent) (answer : JsValue)
    (reached : Reaches (edgeStep cap) anyAction (.mounted queue) edge)
    (sent : edge.inFlight = some batch) :
    SurvivesAnswer edge batch answer ↔ WellAnswered edge batch answer := by
  have asks : edge.Asks := reached.invariant Edge.Asks (asks_idle rfl)
    fun _ asks _ taken => asks.step taken
  by_cases empty : batch = []
  · subst empty
    refine iff_of_true ⟨rfl, ?_, cleared_flushSettled _ _ _, ?_⟩ (.inl rfl)
    · intro event inside _
      exact inside
    · exact asks.armed sent rfl (.inl rfl)
  constructor
  · intro survives
    have readable : Readable answer := by
      by_contra unreadable
      have resolves := survives.resolves
      rw [settleFlush_unreadable empty (answer?_ok answer) unreadable] at resolves
      cases resolves
    refine .inr ⟨readable, fun event inside there misnamed => ?_⟩
    by_contra unsaid
    have stays := survives.stays event inside fun _ => unsaid
    rw [settleFlush_readable empty (answer?_ok answer) readable] at stays
    obtain ⟨-, kept⟩ := List.mem_filter.mp stays
    obtain different | unnamed := of_decide_eq_true kept
    · exact different there
    · exact unnamed.2 misnamed
  · intro well
    obtain ⟨readable, named⟩ := well.resolve_left empty
    have settled := @settleFlush_readable batch answer edge.queue _ empty (answer?_ok answer) readable
    have resolves : (settleFlush batch edge.queue
        (.answered 200 (some answer))).outcome.isSome = true := by
      rw [settled]
      rfl
    refine ⟨resolves, ?_, cleared_flushSettled _ _ _, asks.armed sent resolves
      (.inr ⟨answer, rfl, readable⟩)⟩
    intro event inside unsaid
    rw [settled]
    refine List.mem_filter.mpr ⟨inside, decide_eq_true ?_⟩
    by_cases there : event.id ∈ batch.map PlaybackEvent.id
    · exact .inr ⟨unsaid there, fun misnamed => unsaid there (named event inside there misnamed)⟩
    · exact .inl there

/-! ## A null answer -/

def flushingEdge : Edge := flushEndpoint (.mounted [samplePlay "a"])

theorem flushingEdge_reached :
    Reaches (edgeStep 500) anyAction (.mounted [samplePlay "a"]) flushingEdge :=
  Reaches.refl.tail trivial
    (rfl : edgeStep 500 (.mounted [samplePlay "a"]) .flushAll = some flushingEdge)

theorem accepted_answer_survives :
    SurvivesAnswer flushingEdge [samplePlay "a"] acceptedAnswer := by
  refine (survivesAnswer_iff 500 [samplePlay "a"] flushingEdge [samplePlay "a"] acceptedAnswer
    flushingEdge_reached rfl).mpr (.inr ⟨⟨rfl, rfl, rfl, rfl, ?_⟩, ?_⟩)
  · intro rejection absent
    cases absent
  · intro event _ _ misnamed
    have allNamed : misnamedBy [samplePlay "a"] acceptedAnswer = [] := by decide +kernel
    rw [allNamed] at misnamed
    cases misnamed

/-- The flush rejects, and no retry is armed for the play that is queued. -/
theorem null_answer_rejects_the_flush :
    ¬ SurvivesAnswer flushingEdge [samplePlay "a"] .null := by
  intro survives
  have armed := survives.armed
  revert armed
  decide +kernel

end Tapes.Outbox
