import Tapes.Outbox.Answer

namespace Tapes.Outbox

open Tapes.Js
open Tapes.Events (PlaybackEvent)

/-! Which plays a flush leaves in the queue, of those it sent and of those that came meanwhile. -/

/-- The queue after these plays, which came while `batch` was on its way. -/
def enqueueAll (batch during : List PlaybackEvent) (cap : Nat) : List PlaybackEvent :=
  during.foldl (fun queue event => enqueueEvent queue event cap) batch

/-- The ids that the host accepted, reported as duplicates or rejected for good. -/
def Reply.settles (batch : List PlaybackEvent) (reply : Reply) : List JsString :=
  (reply.answer?.map (saidBy batch)).getD []

/-- The plays that came meanwhile are in the queue, and, unless the batch was refused whole, those
that the host did not settle. -/
structure KeepsUnsent (batch during : List PlaybackEvent) (cap : Nat) (reply : Reply) : Prop where
  came : ∀ event ∈ during,
    event ∈ (settleFlush batch (enqueueAll batch during cap) reply).queue
  sent : reply.refusesBatch = false → ∀ event ∈ batch, event.id ∉ reply.settles batch →
    event ∈ (settleFlush batch (enqueueAll batch during cap) reply).queue

/-- The batch is not refused whole while plays come. An answer that can be read settles no id that
a play which came meanwhile shares with a sent one, and its ill-typed parts name no sent play that
the others do not settle. -/
structure Harmless (batch during : List PlaybackEvent) (reply : Reply) : Prop where
  refused : reply.refusesBatch = true → batch = [] ∨ during = []
  came : ∀ answer, reply.answer? = some answer → Readable answer →
    ∀ event ∈ during, event.id ∈ batch.map PlaybackEvent.id →
      event.id ∉ saidBy batch answer ∧ event.id ∉ misnamedBy batch answer
  named : ∀ answer, reply.answer? = some answer → Readable answer →
    ∀ event ∈ batch, event.id ∈ misnamedBy batch answer → event.id ∈ saidBy batch answer

variable {batch during : List PlaybackEvent} {cap : Nat} {reply : Reply} {answer : JsValue}

theorem enqueueAll_below (below : (batch ++ during).length ≤ cap) :
    enqueueAll batch during cap = batch ++ during := by
  induction during generalizing batch with
  | nil => simp [enqueueAll]
  | cons event rest induction =>
      have room : overflow (batch ++ [event]) cap = 0 := by
        simp only [List.length_append, List.length_cons] at below
        simp only [overflow, List.length_append, List.length_cons, List.length_nil]
        omega
      have rest' := @induction (batch ++ [event]) (by simpa using below)
      rw [List.append_assoc, List.singleton_append] at rest'
      rw [enqueueAll, List.foldl_cons, enqueueEvent, room, List.drop_zero]
      exact rest'

theorem keepsUnsent_of_queue (below : (batch ++ during).length ≤ cap)
    (kept : (settleFlush batch (batch ++ during) reply).queue = batch ++ during) :
    KeepsUnsent batch during cap reply := by
  rw [← enqueueAll_below below] at kept
  constructor
  · intro event inside
    rw [kept, enqueueAll_below below]
    exact List.mem_append_right _ inside
  · intro _ event inside _
    rw [kept, enqueueAll_below below]
    exact List.mem_append_left _ inside

/-- The reply brings no answer that can be read. -/
theorem harmless_of_unread (refused : reply.refusesBatch = true → batch = [] ∨ during = [])
    (unread : ∀ answer, reply.answer? = some answer → ¬ Readable answer) :
    Harmless batch during reply :=
  ⟨refused, fun answer found readable => absurd readable (unread answer found),
    fun answer found readable => absurd readable (unread answer found)⟩

theorem keepsUnsent_refused (sent : batch ≠ []) (refuses : reply.refusesBatch = true) :
    KeepsUnsent batch during cap reply ↔ during = [] := by
  have dropped : (settleFlush batch (enqueueAll batch during cap) reply).queue = [] := by
    rw [settleFlush_refused sent refuses]
  constructor
  · intro keeps
    refine List.eq_nil_iff_forall_not_mem.mpr fun event inside => ?_
    have kept := keeps.came event inside
    rw [dropped] at kept
    cases kept
  · rintro rfl
    constructor
    · intro event absent
      cases absent
    · intro taken
      rw [refuses] at taken
      cases taken

/-- An answer that is read leaves what it should exactly when its parts name what they should. -/
theorem keepsUnsent_answer (below : (batch ++ during).length ≤ cap) (sent : batch ≠ [])
    (found : reply.answer? = some answer) (readable : Readable answer) :
    KeepsUnsent batch during cap reply ↔
      (∀ event ∈ during, event.id ∈ batch.map PlaybackEvent.id →
        event.id ∉ saidBy batch answer ∧ event.id ∉ misnamedBy batch answer) ∧
      ∀ event ∈ batch, event.id ∈ misnamedBy batch answer → event.id ∈ saidBy batch answer := by
  have settles : reply.settles batch = saidBy batch answer := by
    rw [Reply.settles, found]
    rfl
  have stays (event : PlaybackEvent) (inside : event ∈ batch ++ during) :
      event ∈ (settleFlush batch (enqueueAll batch during cap) reply).queue ↔
        event.id ∉ batch.map PlaybackEvent.id ∨
          event.id ∉ saidBy batch answer ∧ event.id ∉ misnamedBy batch answer := by
    rw [enqueueAll_below below, settleFlush_readable sent found readable, List.mem_filter,
      decide_eq_true_iff]
    exact and_iff_right inside
  constructor
  · intro keeps
    constructor
    · intro event inside shared
      obtain different | unnamed := (stays event (List.mem_append_right _ inside)).mp
        (keeps.came event inside)
      · exact absurd shared different
      · exact unnamed
    · intro event inside misnamed
      by_contra unsaid
      have kept := keeps.sent (Reply.answer_taken found) event inside (by rwa [settles])
      obtain different | unnamed := (stays event (List.mem_append_left _ inside)).mp kept
      · exact different (List.mem_map_of_mem inside)
      · exact unnamed.2 misnamed
  · rintro ⟨others, named⟩
    constructor
    · intro event inside
      refine (stays event (List.mem_append_right _ inside)).mpr ?_
      by_cases shared : event.id ∈ batch.map PlaybackEvent.id
      · exact .inr (others event inside shared)
      · exact .inl shared
    · intro _ event inside unsettled
      rw [settles] at unsettled
      refine (stays event (List.mem_append_left _ inside)).mpr (.inr ⟨unsettled, ?_⟩)
      exact fun misnamed => unsettled (named event inside misnamed)

/-- A flush keeps what it did not send, and what was not settled, exactly when the batch is not
refused while plays come and an answer's parts name what they should. -/
theorem keepsUnsent_iff (batch during : List PlaybackEvent) (cap : Nat) (reply : Reply)
    (below : (batch ++ during).length ≤ cap) :
    KeepsUnsent batch during cap reply ↔ Harmless batch during reply := by
  by_cases sent : batch = []
  · subst sent
    refine iff_of_true (keepsUnsent_of_queue below rfl) ⟨fun _ => .inl rfl, ?_, ?_⟩
    · intro answer _ _ event _ absent
      cases absent
    · intro answer _ _ event absent
      cases absent
  by_cases refuses : reply.refusesBatch = true
  · rw [keepsUnsent_refused sent refuses]
    constructor
    · rintro rfl
      refine harmless_of_unread (fun _ => .inr rfl) fun answer found => ?_
      rw [Reply.answer_taken found] at refuses
      cases refuses
    · exact fun harmless => (harmless.refused refuses).resolve_left sent
  · cases found : reply.answer? with
    | none =>
        refine iff_of_true (keepsUnsent_of_queue below ?_)
          (harmless_of_unread (fun isRefused => absurd isRefused refuses) (by simp [found]))
        rw [settleFlush_none sent (by simpa using refuses) found]
    | some answer =>
        by_cases readable : Readable answer
        · rw [keepsUnsent_answer below sent found readable]
          constructor
          · rintro ⟨others, named⟩
            refine ⟨fun isRefused => absurd isRefused refuses, ?_, ?_⟩
            · intro other same _
              rw [found, Option.some.injEq] at same
              rwa [← same]
            · intro other same _
              rw [found, Option.some.injEq] at same
              rwa [← same]
          · exact fun harmless => ⟨harmless.came answer found readable,
              harmless.named answer found readable⟩
        · refine iff_of_true (keepsUnsent_of_queue below ?_)
            (harmless_of_unread (fun isRefused => absurd isRefused refuses) ?_)
          · rw [settleFlush_unreadable sent found readable]
          · intro other same
            rw [found, Option.some.injEq] at same
            rwa [← same]

/-! ## A batch refused while a play comes -/

def samplePlay (id : String) : PlaybackEvent where
  id := js id
  recordingUrl := js "automerge:1111111111111111"
  completion := .finite false .one
  occurredAt := js "2026-01-01T00:00:00.000Z"
  deviceId := some (js "phone")

def acceptedAnswer : JsValue := .object [(js "accepted", .array [.string (js "a")]),
  (js "duplicates", .array []), (js "rejected", .array [])]

theorem play_that_came_is_kept :
    KeepsUnsent [samplePlay "a"] [samplePlay "b"] 500 (.answered 200 (some acceptedAnswer)) := by
  refine (keepsUnsent_iff [samplePlay "a"] [samplePlay "b"] 500 (.answered 200 (some acceptedAnswer))
    (by decide)).mpr ⟨fun refuses => absurd refuses (by decide), ?_, ?_⟩
  · intro answer _ _ event inside shared
    rw [List.mem_singleton.mp inside] at shared
    exact absurd shared (by decide)
  · intro answer found _ event _ misnamed
    cases found
    have allNamed : misnamedBy [samplePlay "a"] acceptedAnswer = [] := by decide +kernel
    rw [allNamed] at misnamed
    cases misnamed

/-- A play that finished while a batch was on its way is dropped with it. -/
theorem refused_batch_drops_the_play_that_came :
    ¬ KeepsUnsent [samplePlay "a"] [samplePlay "b"] 500 (.answered 400 none) := by
  intro keeps
  have kept := keeps.came (samplePlay "b") (by simp)
  revert kept
  decide +kernel

end Tapes.Outbox
