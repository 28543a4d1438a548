import Tapes.Worker.CallWorker

namespace Tapes.Worker

open Tapes.Js Tapes.Machine

/-! A reply is heard by the call that it is for, and by no other; each call keeps how it was settled;
and once nothing is on its way, none waits. -/

variable {office next : Office} {call : Call} {number other : Nat} {posted : Posted}
  {response : WorkerResponse} {random id : JsString} {calls calls' : Table Nat Call}
  {heard : List WorkerResponse}

/-! ## Ids -/

theorem requestId_inj {random' : JsString} (same : requestId number random = requestId other random') :
    number = other := by
  have stops (random : JsString) : NoDigit (0x2D :: random) := by
    intro unit first
    cases first
    rfl
  have left := takeDigits_digitText (isDigits_decimalDigits number) (stops random)
  have right := takeDigits_digitText (isDigits_decimalDigits other) (stops random')
  have texts : digitText (decimalDigits number) ++ 0x2D :: random =
      digitText (decimalDigits other) ++ 0x2D :: random' := same
  rw [texts] at left
  have both := (Prod.mk.inj (left.symm.trans right)).1
  rw [← digitsValue_decimalDigits number, both, digitsValue_decimalDigits]

theorem requestId_ne_nil : requestId number random ≠ [] := by
  simp [requestId]

/-! ## Whose a message is -/

/-- The same calls are there, settled or not, and maybe more. -/
def Grows (calls calls' : Table Nat Call) : Prop :=
  ∀ number call, calls number = some call →
    ∃ call', calls' number = some call' ∧ call'.type = call.type ∧ call'.random = call.random

def Posted.Own (calls : Table Nat Call) (posted : Posted) : Prop :=
  ∀ id, posted.requestId = some id → ∃ number call, calls number = some call ∧
    id = call.id number ∧ posted.type = call.type

def WorkerResponse.Own (calls : Table Nat Call) (response : WorkerResponse) : Prop :=
  ∀ id, response.requestId = some id → ∃ number call, calls number = some call ∧
    id = call.id number ∧ response.type = call.type ++ js ":response"

theorem Posted.Own.grow (own : posted.Own calls) (grows : Grows calls calls') : posted.Own calls' := by
  intro id named
  obtain ⟨number, call, there, same, type⟩ := own id named
  obtain ⟨call', there', type', random⟩ := grows number call there
  exact ⟨number, call', there', by rw [same, Call.id, Call.id, random], type.trans type'.symm⟩

theorem WorkerResponse.Own.grow (own : response.Own calls) (grows : Grows calls calls') :
    response.Own calls' := by
  intro id named
  obtain ⟨number, call, there, same, type⟩ := own id named
  obtain ⟨call', there', type', random⟩ := grows number call there
  exact ⟨number, call', there', by rw [same, Call.id, Call.id, random], by rw [type, type']⟩

theorem Posted.Own.respond {success : Bool} {payload : JsValue} {error : Option JsString}
    (own : posted.Own calls) : (Worker.respond posted success payload error).Own calls := by
  intro id named
  obtain ⟨number, call, there, same, type⟩ := own id named
  exact ⟨number, call, there, same, by rw [← type]; rfl⟩

theorem Posted.Own.failure {error : JsString} (own : posted.Own calls) :
    ∀ response ∈ Worker.failure posted error, response.Own calls := by
  intro response inside
  unfold Worker.failure at inside
  split at inside
  · cases inside
  · cases inside
  · rw [List.mem_singleton.mp inside]
    exact own.respond

theorem mem_failure {error : JsString} (named : posted.requestId = some id) (hasId : id ≠ []) :
    ∃ response ∈ failure posted error, response.requestId = some id := by
  cases id with
  | nil => exact absurd rfl hasId
  | cons first rest =>
      rw [failure, named]
      exact ⟨_, List.mem_singleton_self _, named⟩

/-! ## The invariant -/

/-- The first response that was heard under the id. -/
def firstReply (heard : List WorkerResponse) (id : JsString) : Option WorkerResponse :=
  heard.find? (·.requestId = some id)

/-- How a call stands, by what was heard. -/
def Call.Fits (heard : List WorkerResponse) (number : Nat) (call : Call) : Prop :=
  match call.outcome with
  | none => firstReply heard (call.id number) = none
  | some (.resolved payload) => ∃ response, firstReply heard (call.id number) = some response ∧
      response.type = call.type ++ js ":response" ∧ response.success = true ∧
      payload = response.payload
  | some (.failed message) => ∃ response, firstReply heard (call.id number) = some response ∧
      response.type = call.type ++ js ":response" ∧ response.success = false ∧
      message = response.error.getD (js "Worker error")
  | some .aborted | some .timedOut => True

/-- The request, its handler or a response to it is on its way. -/
def Waits (office : Office) (id : JsString) : Prop :=
  (∃ posted ∈ office.inbox, posted.requestId = some id ∧ posted.type ≠ recorderWrite) ∨
  (∃ handler posted, office.handling handler = some ⟨posted, false⟩ ∧
    posted.requestId = some id ∧ posted.type ≠ recorderWrite) ∨
  ∃ response ∈ office.outbox, response.requestId = some id

structure Answers (office : Office) : Prop where
  numbered : ∀ number call, office.calls number = some call → number ≤ office.counter
  received : ∀ handler handling, office.handling handler = some handling → handler < office.received
  inbox : ∀ posted ∈ office.inbox, posted.Own office.calls
  handling : ∀ handler handling, office.handling handler = some handling →
    handling.posted.Own office.calls
  outbox : ∀ response ∈ office.outbox, response.Own office.calls
  heard : ∀ response ∈ office.heard, response.Own office.calls
  fits : ∀ number call, office.calls number = some call → call.Fits office.heard number
  waits : ∀ number call, office.calls number = some call → call.outcome = none →
    call.type ≠ recorderWrite → Waits office (call.id number)

/-! ## Hearing -/

/-- An id names one call. -/
theorem number_of_own (own : response.Own calls) (there : calls number = some call)
    (named : response.requestId = some (call.id number)) :
    response.type = call.type ++ js ":response" := by
  obtain ⟨other, call', there', same, type⟩ := own _ named
  have numbers : number = other := requestId_inj same
  subst numbers
  rw [there] at there'
  cases there'
  exact type

theorem firstReply_append (response : WorkerResponse) :
    firstReply (heard ++ [response]) id = (firstReply heard id).or
      (if response.requestId = some id then some response else none) := by
  rw [firstReply, List.find?_append, firstReply]
  congr 1
  by_cases named : response.requestId = some id <;> simp [named]

theorem Call.Fits.hear (fits : call.Fits heard number) (there : calls number = some call)
    (own : response.Own calls) :
    (call.hear number response).Fits (heard ++ [response]) number := by
  have id : (call.hear number response).id number = call.id number := by
    unfold Call.hear
    split <;> rfl
  have later {first : WorkerResponse} (before : firstReply heard (call.id number) = some first) :
      firstReply (heard ++ [response]) (call.id number) = some first := by
    rw [firstReply_append, before]
    rfl
  by_cases hears : call.outcome.isNone ∧ response.requestId = some (call.id number)
  · have type := number_of_own own there hears.2
    have silent : call.outcome = none := Option.isNone_iff_eq_none.mp hears.1
    simp only [Call.Fits, silent] at fits
    have first : firstReply (heard ++ [response]) (call.id number) = some response := by
      rw [firstReply_append, fits, if_pos hears.2, Option.none_or]
    have same : call.hear number response = { call with outcome := some (settledBy response) } :=
      if_pos hears
    rw [same]
    unfold Call.Fits settledBy
    cases success : response.success with
    | true => exact ⟨response, first, type, success, rfl⟩
    | false => exact ⟨response, first, type, success, rfl⟩
  · have same : call.hear number response = call := if_neg hears
    rw [same]
    unfold Call.Fits at fits ⊢
    split at fits
    · rename_i silent
      have unnamed : response.requestId ≠ some (call.id number) :=
        fun named => hears ⟨by rw [silent]; rfl, named⟩
      rw [firstReply_append, fits, if_neg unnamed, Option.none_or]
    · obtain ⟨first, before, rest⟩ := fits
      exact ⟨first, later before, rest⟩
    · obtain ⟨first, before, rest⟩ := fits
      exact ⟨first, later before, rest⟩
    · trivial
    · trivial

/-! ## Steps of the page -/

theorem grows_put_new (new : calls number = none) (call : Call) : Grows calls (calls.put number call) := by
  intro other before there
  have different : other ≠ number := by
    rintro rfl
    rw [new] at there
    cases there
  exact ⟨before, (Table.put_other different).trans there, rfl, rfl⟩

/-- Nobody has heard of a number that is to come. -/
theorem Answers.unheard (answers : Answers office) (random : JsString) :
    firstReply office.heard (requestId (office.counter + 1) random) = none := by
  rw [firstReply, List.find?_eq_none]
  intro response inside named
  obtain ⟨number, call, there, same, -⟩ := answers.heard response inside _ (by simpa using named)
  have low := answers.numbered number call there
  have numbers : office.counter + 1 = number := requestId_inj same
  omega

theorem Answers.ask {type : JsString} {armed aborted : Bool} (answers : Answers office) :
    Answers (office.call type random armed aborted) := by
  have new : office.calls (office.counter + 1) = none := by
    cases found : office.calls (office.counter + 1) with
    | none => rfl
    | some call =>
        have low := answers.numbered _ call found
        omega
  -- What is true of any new call at the next number.
  have added (call : Call) (more : List Posted) (own : ∀ posted ∈ more,
        posted.Own (office.calls.put (office.counter + 1) call))
      (fits : call.Fits office.heard (office.counter + 1))
      (waits : call.outcome = none → call.type ≠ recorderWrite → ∃ posted ∈ more,
        posted.requestId = some (call.id (office.counter + 1)) ∧ posted.type ≠ recorderWrite) :
      Answers { office with
        counter := office.counter + 1
        calls := office.calls.put (office.counter + 1) call
        inbox := office.inbox ++ more } := by
    have grows := grows_put_new new call
    refine ⟨?_, answers.received, ?_, fun handler handling there =>
      (answers.handling handler handling there).grow grows, fun response inside =>
      (answers.outbox response inside).grow grows, fun response inside =>
      (answers.heard response inside).grow grows, ?_, ?_⟩
    · intro number held there
      rcases Table.put_cases there with ⟨rfl, -⟩ | ⟨-, before⟩
      · exact Nat.le_refl _
      · exact Nat.le_succ_of_le (answers.numbered number held before)
    · intro posted inside
      rcases List.mem_append.mp inside with before | late
      · exact (answers.inbox posted before).grow grows
      · exact own posted late
    · intro number held there
      rcases Table.put_cases there with ⟨rfl, rfl⟩ | ⟨-, before⟩
      · exact fits
      · exact answers.fits number held before
    · intro number held there silent plain
      rcases Table.put_cases there with ⟨rfl, rfl⟩ | ⟨-, before⟩
      · obtain ⟨posted, inside, named⟩ := waits silent plain
        exact .inl ⟨posted, List.mem_append_right _ inside, named⟩
      · rcases answers.waits number held before silent plain with
          ⟨posted, inside, named⟩ | handled | replied
        · exact .inl ⟨posted, List.mem_append_left _ inside, named⟩
        · exact .inr (.inl handled)
        · exact .inr (.inr replied)
  unfold Office.call
  dsimp only
  split
  · have whole := added ⟨type, random, false, some .aborted⟩ [] (by simp) trivial (by simp)
    rw [List.append_nil] at whole
    exact whole
  · have unheard := answers.unheard random
    refine added ⟨type, random, armed, none⟩ [⟨type, some (requestId (office.counter + 1) random)⟩] ?_
      unheard ?_
    · intro posted inside id named
      rw [List.mem_singleton.mp inside] at named ⊢
      cases named
      exact ⟨_, _, Table.put_self, rfl, rfl⟩
    · intro _ plain
      exact ⟨_, List.mem_singleton_self _, rfl, plain⟩

theorem Answers.settle {outcome : Settled} (answers : Answers office)
    (there : office.calls number = some call)
    (quiet : outcome = .aborted ∨ outcome = .timedOut) :
    Answers { office with calls := office.calls.put number (call.settle outcome) } := by
  have kept : (call.settle outcome).type = call.type ∧ (call.settle outcome).random = call.random := by
    unfold Call.settle
    split <;> exact ⟨rfl, rfl⟩
  have ended : (call.settle outcome).outcome ≠ none := by
    unfold Call.settle
    split
    · simp
    · rename_i settled
      exact fun silent => settled (by rw [silent]; rfl)
  have grows : Grows office.calls (office.calls.put number (call.settle outcome)) := by
    intro other before held
    by_cases same : other = number
    · subst same
      rw [there] at held
      cases held
      exact ⟨_, Table.put_self, kept.1, kept.2⟩
    · exact ⟨before, (Table.put_other same).trans held, rfl, rfl⟩
  refine ⟨?_, answers.received, fun posted inside => (answers.inbox posted inside).grow grows,
    fun handler handling held => (answers.handling handler handling held).grow grows,
    fun response inside => (answers.outbox response inside).grow grows,
    fun response inside => (answers.heard response inside).grow grows, ?_, ?_⟩
  · intro other held found
    rcases Table.put_cases found with ⟨rfl, -⟩ | ⟨-, before⟩
    · exact answers.numbered other call there
    · exact answers.numbered other held before
  · intro other held found
    rcases Table.put_cases found with ⟨rfl, rfl⟩ | ⟨-, before⟩
    · unfold Call.settle
      split
      · rcases quiet with rfl | rfl <;> trivial
      · exact answers.fits other call there
    · exact answers.fits other held before
  · intro other held found silent plain
    rcases Table.put_cases found with ⟨rfl, rfl⟩ | ⟨-, before⟩
    · exact absurd silent ended
    · exact answers.waits other held before silent plain

theorem Answers.deliver {rest : List WorkerResponse} (answers : Answers office)
    (first : office.outbox = response :: rest) :
    Answers { office with
      calls := fun number => (office.calls number).map (·.hear number response)
      outbox := rest
      heard := office.heard ++ [response] } := by
  have own := answers.outbox response (by rw [first]; exact List.mem_cons_self)
  have kept (number : Nat) (call : Call) : (call.hear number response).type = call.type ∧
      (call.hear number response).random = call.random := by
    unfold Call.hear
    split <;> exact ⟨rfl, rfl⟩
  have grows : Grows office.calls fun number => (office.calls number).map (·.hear number response) := by
    intro number call there
    refine ⟨call.hear number response, ?_, (kept number call).1, (kept number call).2⟩
    simp only [there, Option.map_some]
  refine ⟨?_, answers.received, fun posted inside => (answers.inbox posted inside).grow grows,
    fun handler handling held => (answers.handling handler handling held).grow grows, ?_, ?_, ?_, ?_⟩
  · intro number call there
    obtain ⟨before, held, -⟩ := Option.map_eq_some_iff.mp there
    exact answers.numbered number before held
  · intro other inside
    have before : other ∈ office.outbox := by
      rw [first]
      exact List.mem_cons_of_mem _ inside
    exact (answers.outbox other before).grow grows
  · intro other inside
    rcases List.mem_append.mp inside with before | last
    · exact (answers.heard other before).grow grows
    · rw [List.mem_singleton.mp last]
      exact own.grow grows
  · intro number call there
    obtain ⟨before, held, rfl⟩ := Option.map_eq_some_iff.mp there
    exact (answers.fits number before held).hear held own
  · intro number call there silent plain
    obtain ⟨before, held, rfl⟩ := Option.map_eq_some_iff.mp there
    have unnamed : before.outcome = none ∧ response.requestId ≠ some (before.id number) := by
      unfold Call.hear at silent
      split at silent
      · cases silent
      · rename_i passed
        exact ⟨silent, fun named => passed ⟨by rw [silent]; rfl, named⟩⟩
    have id : (before.hear number response).id number = before.id number := by
      rw [Call.id, Call.id, (kept number before).2]
    rw [(kept number before).1] at plain
    rw [id]
    rcases answers.waits number before held unnamed.1 plain with asked | handled | ⟨other, inside, named⟩
    · exact .inl asked
    · exact .inr (.inl handled)
    · rw [first] at inside
      rcases List.mem_cons.mp inside with rfl | later
      · exact absurd named unnamed.2
      · exact .inr (.inr ⟨other, later, named⟩)

/-! ## Steps of the worker -/

/-- The worker touches no call. -/
theorem Answers.work {inbox : List Posted} {received : Nat} {handling : Table Nat Handling}
    {outbox : List WorkerResponse} (answers : Answers office)
    (numbers : ∀ handler held, handling handler = some held → handler < received)
    (asked : ∀ posted ∈ inbox, posted.Own office.calls)
    (handled : ∀ handler held, handling handler = some held → held.posted.Own office.calls)
    (replied : ∀ response ∈ outbox, response.Own office.calls)
    (waits : ∀ id, id ≠ [] → Waits office id → Waits { office with inbox, received, handling, outbox } id) :
    Answers { office with inbox, received, handling, outbox } := by
  refine ⟨answers.numbered, numbers, asked, handled, replied, answers.heard, answers.fits, ?_⟩
  intro number call there silent plain
  exact waits _ requestId_ne_nil (answers.waits number call there silent plain)

theorem Answers.receive {rest : List Posted} (answers : Answers office)
    (first : office.inbox = posted :: rest) : Answers (office.receive posted rest) := by
  have own := answers.inbox posted (by rw [first]; exact List.mem_cons_self)
  have asked : ∀ posted ∈ rest, posted.Own office.calls := by
    intro other inside
    exact answers.inbox other (by rw [first]; exact List.mem_cons_of_mem _ inside)
  unfold Office.receive
  split
  · apply answers.work
    · intro handler held there
      rcases Table.put_cases there with ⟨rfl, -⟩ | ⟨-, before⟩
      · exact Nat.lt_succ_self _
      · exact Nat.lt_succ_of_lt (answers.received handler held before)
    · exact asked
    · intro handler held there
      rcases Table.put_cases there with ⟨-, rfl⟩ | ⟨-, before⟩
      · exact own
      · exact answers.handling handler held before
    · exact answers.outbox
    · intro id _ waits
      rcases waits with ⟨other, inside, named, plain⟩ | ⟨handler, held, there, named⟩ | replied
      · rw [first] at inside
        rcases List.mem_cons.mp inside with rfl | later
        · exact .inr (.inl ⟨office.received, other, Table.put_self, named, plain⟩)
        · exact .inl ⟨other, later, named, plain⟩
      · have low := answers.received handler _ there
        have different : handler ≠ office.received := by omega
        exact .inr (.inl ⟨handler, held, (Table.put_other different).trans there, named⟩)
      · exact .inr (.inr replied)
  · apply answers.work answers.received asked answers.handling
    · intro response inside
      rcases List.mem_append.mp inside with before | late
      · exact answers.outbox response before
      · exact own.failure response late
    · intro id hasId waits
      rcases waits with ⟨other, inside, named, plain⟩ | handled | ⟨response, inside, named⟩
      · rw [first] at inside
        rcases List.mem_cons.mp inside with rfl | later
        · obtain ⟨response, failed, told⟩ := @mem_failure _ _
            (js "unknown message type: " ++ other.type) named hasId
          exact .inr (.inr ⟨response, List.mem_append_right _ failed, told⟩)
        · exact .inl ⟨other, later, named, plain⟩
      · exact .inr (.inl handled)
      · exact .inr (.inr ⟨response, List.mem_append_left _ inside, named⟩)

theorem Answers.respond {handler : Nat} {answered success : Bool} {payload : JsValue}
    {error : Option JsString} (answers : Answers office)
    (there : office.handling handler = some ⟨posted, answered⟩) :
    Answers { office with
      handling := office.handling.put handler ⟨posted, true⟩
      outbox := office.outbox ++ [Worker.respond posted success payload error] } := by
  have own : posted.Own office.calls := answers.handling handler _ there
  have number := answers.received handler _ there
  refine answers.work ?_ answers.inbox ?_ ?_ ?_
  · intro other held found
    rcases Table.put_cases found with ⟨rfl, -⟩ | ⟨-, before⟩
    · exact number
    · exact answers.received other held before
  · intro other held found
    rcases Table.put_cases found with ⟨-, rfl⟩ | ⟨-, before⟩
    · exact own
    · exact answers.handling other held before
  · intro response inside
    rcases List.mem_append.mp inside with before | late
    · exact answers.outbox response before
    · rw [List.mem_singleton.mp late]
      exact own.respond
  · intro id _ waits
    rcases waits with asked | ⟨other, held, found, named, plain⟩ | ⟨response, inside, named⟩
    · exact .inl asked
    · by_cases same : other = handler
      · subst same
        rw [there] at found
        cases found
        exact .inr (.inr ⟨_, List.mem_append_right _ (List.mem_singleton_self _), named⟩)
      · exact .inr (.inl ⟨other, held, (Table.put_other same).trans found, named, plain⟩)
    · exact .inr (.inr ⟨response, List.mem_append_left _ inside, named⟩)

/-- A handler that ends has responded, or there was nobody to respond to. -/
theorem Answers.finish {handler : Nat} {answered : Bool} (answers : Answers office)
    (there : office.handling handler = some ⟨posted, answered⟩)
    (done : answered = true ∨ posted.type = recorderWrite) :
    Answers { office with handling := office.handling.remove handler } := by
  have low : (office.handling.remove handler).All fun other _ => other < office.received :=
    Table.All.remove answers.received
  have own : (office.handling.remove handler).All fun _ held => held.posted.Own office.calls :=
    Table.All.remove answers.handling
  refine answers.work low answers.inbox own answers.outbox ?_
  · intro id _ waits
    rcases waits with asked | ⟨other, held, found, named, plain⟩ | replied
    · exact .inl asked
    · have different : other ≠ handler := by
        rintro rfl
        rw [there] at found
        cases found
        rcases done with answered | written
        · cases answered
        · exact plain written
      exact .inr (.inl ⟨other, held, (Table.remove_other different).trans found, named, plain⟩)
    · exact .inr (.inr replied)

theorem Answers.throw {handler : Nat} {answered : Bool} {error : JsString} (answers : Answers office)
    (there : office.handling handler = some ⟨posted, answered⟩) :
    Answers { office with
      handling := office.handling.remove handler
      outbox := office.outbox ++ failure posted error } := by
  have own : posted.Own office.calls := answers.handling handler _ there
  have low : (office.handling.remove handler).All fun other _ => other < office.received :=
    Table.All.remove answers.received
  have others : (office.handling.remove handler).All fun _ held => held.posted.Own office.calls :=
    Table.All.remove answers.handling
  refine answers.work low answers.inbox others ?_ ?_
  · intro response inside
    rcases List.mem_append.mp inside with old | late
    · exact answers.outbox response old
    · exact own.failure response late
  · intro id hasId waits
    rcases waits with asked | ⟨other, held, found, named, plain⟩ | ⟨response, inside, named⟩
    · exact .inl asked
    · by_cases same : other = handler
      · subst same
        rw [there] at found
        cases found
        obtain ⟨response, failed, told⟩ := @mem_failure _ _ error named hasId
        exact .inr (.inr ⟨response, List.mem_append_right _ failed, told⟩)
      · exact .inr (.inl ⟨other, held, (Table.remove_other same).trans found, named, plain⟩)
    · exact .inr (.inr ⟨response, List.mem_append_left _ inside, named⟩)

theorem Answers.step {action : OfficeAction} (answers : Answers office)
    (taken : officeStep office action = some next) : Answers next := by
  cases action with
  | call type random armed aborted =>
      cases taken
      exact answers.ask
  | write =>
      cases taken
      refine answers.work answers.received ?_ answers.handling answers.outbox ?_
      · intro posted inside
        rcases List.mem_append.mp inside with before | late
        · exact answers.inbox posted before
        · rw [List.mem_singleton.mp late]
          intro id named
          cases named
      · intro id _ waits
        rcases waits with ⟨posted, inside, named⟩ | rest
        · exact .inl ⟨posted, List.mem_append_left _ inside, named⟩
        · exact .inr rest
  | receive =>
      simp only [officeStep] at taken
      split at taken
      · cases taken
      · rename_i posted rest first
        split at taken <;> cases taken
        exact answers.receive first
  | respond handler success payload error =>
      simp only [officeStep] at taken
      split at taken
      · rename_i posted answered there
        split at taken <;> cases taken
        exact answers.respond there
      · cases taken
  | finish handler =>
      simp only [officeStep] at taken
      split at taken
      · rename_i posted answered there
        split at taken
        · rename_i done
          cases taken
          exact answers.finish there done.2
        · cases taken
      · cases taken
  | throw handler error =>
      simp only [officeStep] at taken
      split at taken
      · rename_i posted answered there
        split at taken <;> cases taken
        exact answers.throw there
      · cases taken
  | deliver =>
      simp only [officeStep] at taken
      split at taken
      · cases taken
      · rename_i response rest first
        cases taken
        exact answers.deliver first
  | abort number =>
      obtain ⟨call, there, rfl⟩ := Option.map_eq_some_iff.mp taken
      exact answers.settle there (.inl rfl)
  | timeout number =>
      obtain ⟨call, there, armed⟩ := Option.bind_eq_some_iff.mp taken
      split at armed <;> cases armed
      exact answers.settle there (.inr rfl)
  | die =>
      cases taken
      exact ⟨answers.numbered, answers.received, answers.inbox, answers.handling, answers.outbox,
        answers.heard, answers.fits, answers.waits⟩

theorem answers_opened : Answers .opened where
  numbered := by
    intro _ _ nothing
    cases nothing
  received := by
    intro _ _ nothing
    cases nothing
  inbox := by simp [Office.opened]
  handling := by
    intro _ _ nothing
    cases nothing
  outbox := by simp [Office.opened]
  heard := by simp [Office.opened]
  fits := by
    intro _ _ nothing
    cases nothing
  waits := by
    intro _ _ nothing
    cases nothing

/-! ## A settled call -/

theorem Call.settle_settled {outcome : Settled} (settled : call.outcome.isSome = true) :
    call.settle outcome = call := by
  cases found : call.outcome with
  | none => simp [found] at settled
  | some before => simp [Call.settle, found]

theorem Call.hear_settled (settled : call.outcome.isSome = true) :
    call.hear number response = call := by
  cases found : call.outcome with
  | none => simp [found] at settled
  | some before => simp [Call.hear, found]

theorem put_settle {outcome : Settled} {before : Call} (there : calls number = some call)
    (settled : call.outcome.isSome = true) (held : calls other = some before) :
    calls.put other (before.settle outcome) number = some call := by
  by_cases same : number = other
  · subst same
    rw [there, Option.some.injEq] at held
    rw [Table.put_self, ← held, Call.settle_settled settled]
  · rwa [Table.put_other same]

/-- A step leaves a settled call as it is. -/
theorem settled_step {action : OfficeAction} (answers : Answers office)
    (taken : officeStep office action = some next) (there : office.calls number = some call)
    (settled : call.outcome.isSome = true) : next.calls number = some call := by
  cases action with
  | call type random armed aborted =>
      cases taken
      have low := answers.numbered number call there
      have different : number ≠ office.counter + 1 := by omega
      unfold Office.call
      dsimp only
      split <;> exact (Table.put_other different).trans there
  | write | die =>
      cases taken
      exact there
  | receive =>
      simp only [officeStep] at taken
      split at taken
      · cases taken
      · split at taken <;> cases taken
        unfold Office.receive
        split <;> exact there
  | respond handler success payload error | finish handler | throw handler error =>
      simp only [officeStep] at taken
      split at taken
      · split at taken <;> cases taken
        exact there
      · cases taken
  | deliver =>
      simp only [officeStep] at taken
      split at taken
      · cases taken
      · cases taken
        simp only [there, Option.map_some, Call.hear_settled settled]
  | abort other =>
      obtain ⟨before, held, rfl⟩ := Option.map_eq_some_iff.mp taken
      exact put_settle there settled held
  | timeout other =>
      obtain ⟨before, held, armed⟩ := Option.bind_eq_some_iff.mp taken
      split at armed <;> cases armed
      exact put_settle there settled held

/-! ## Runs -/

/-- A call that heard its reply was settled by the first one; once nothing is on its way none waits;
and a settled call is never settled again. -/
structure SettlesOnce (office : Office) : Prop where
  fits : ∀ number call, office.calls number = some call → call.Fits office.heard number
  settled : office.inbox = [] → office.handling = .empty → office.outbox = [] →
    ∀ number call, office.calls number = some call → call.type ≠ recorderWrite →
      call.outcome.isSome = true
  kept : ∀ later, Reaches officeStep anyAction office later → ∀ number call,
    office.calls number = some call → call.outcome.isSome = true → later.calls number = some call

theorem reaches_answers (reached : Reaches officeStep anyAction .opened office) : Answers office :=
  reached.invariant Answers answers_opened fun _ answers _ taken => answers.step taken

theorem each_call_settles_once (reached : Reaches officeStep anyAction .opened office) :
    SettlesOnce office where
  fits := (reaches_answers reached).fits
  settled := by
    intro inbox handling outbox number call there plain
    by_contra unsettled
    have silent : call.outcome = none := by simpa using unsettled
    rcases (reaches_answers reached).waits number call there silent plain with
      ⟨posted, inside, -⟩ | ⟨handler, posted, held, -⟩ | ⟨response, inside, -⟩
    · rw [inbox] at inside
      cases inside
    · rw [handling] at held
      cases held
    · rw [outbox] at inside
      cases inside
  kept := by
    intro later onwards number call there settled
    have both : Answers later ∧ later.calls number = some call := by
      refine onwards.invariant (fun office => Answers office ∧ office.calls number = some call)
        ⟨reaches_answers reached, there⟩ ?_
      intro _ _ _ _ held _ taken
      exact ⟨held.1.step taken, settled_step held.1 taken held.2 settled⟩
    exact both.2

/-- One call is answered, and one is aborted and then answered. -/
def twoCalls : List OfficeAction :=
  [.call (js "storage:get") (js "a") true false, .call (js "blob:has") (js "b") true false, .receive,
    .receive, .abort 2, .respond 0 true (.string (js "tape")) none, .finish 0,
    .respond 1 true (.boolean true) none, .finish 1, .deliver, .deliver]

def Settled.shown : Settled → JsString
  | .resolved (.string text) => text
  | .resolved _ => js "resolved"
  | .failed message => message
  | .aborted => js "aborted"
  | .timedOut => js "timed out"

theorem twoCalls_shows :
    (run officeStep .opened twoCalls).map (fun office =>
      (((office.calls 1).bind Call.outcome).map Settled.shown,
        ((office.calls 2).bind Call.outcome).map Settled.shown,
        office.heard.map (·.requestId))) =
      some (some (js "tape"), some (js "aborted"), [some (js "1-a"), some (js "2-b")]) := by
  decide +kernel

/-- The reply to the aborted call comes too late to settle it. -/
theorem late_reply_settles_nothing :
    ∃ office, Reaches officeStep anyAction .opened office ∧ SettlesOnce office ∧
      ((office.calls 1).bind Call.outcome).map Settled.shown = some (js "tape") ∧
      ((office.calls 2).bind Call.outcome).map Settled.shown = some (js "aborted") ∧
      office.heard.map (·.requestId) = [some (js "1-a"), some (js "2-b")] := by
  obtain ⟨office, ran, shows⟩ := Option.map_eq_some_iff.mp twoCalls_shows
  obtain ⟨first, second, heard⟩ : _ ∧ _ ∧ _ := by simpa only [Prod.mk.injEq] using shows
  have reached : Reaches officeStep anyAction .opened office :=
    .of_run ran (meetsAlong_anyAction _ _)
  exact ⟨office, reached, each_call_settles_once reached, first, second, heard⟩

end Tapes.Worker
