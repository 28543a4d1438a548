import Tapes.Outbox.EventQueue

namespace Tapes.Outbox

open Tapes.Js
open Tapes.Events (PlaybackEvent)

/-! What a device does with an answer of any JSON shape: `applyIngestResponse` and `flushQueue` as
they read a value that nobody checked. `none` stands for a `TypeError`. -/

/-! ## Conversions -/

def toBoolean : JsValue → Bool
  | .undefined | .null => false
  | .boolean value => value
  | .number .nan => false
  | .number (.infinite _) => true
  | .number (.finite _ magnitude) => magnitude.units ≠ 0
  | .string text => text ≠ []
  | .array _ | .object _ => true

mutual

/-- The property key a value is turned into. An object with a `toString` of its own has one that
cannot be called. -/
def propertyKey : JsValue → Option JsString
  | .undefined => some (js "undefined")
  | .null => some (js "null")
  | .boolean value => some (js (if value then "true" else "false"))
  | .number value => some (numberText value)
  | .string text => some text
  | .array items => (itemTexts items).map joinComma
  | .object members =>
      if (JsValue.object members).hasKey (js "toString") then none else some (js "[object Object]")

def itemTexts : List JsValue → Option (List JsString)
  | [] => some []
  | .undefined :: rest => (itemTexts rest).map ([] :: ·)
  | .null :: rest => (itemTexts rest).map ([] :: ·)
  | item :: rest => (propertyKey item).bind fun text => (itemTexts rest).map (text :: ·)

end

/-- What iterating over a string gives. -/
def codePoints : JsString → List JsString
  | [] => []
  | [unit] => [[unit]]
  | high :: low :: rest =>
      if isHighSurrogate high && isLowSurrogate low then [high, low] :: codePoints rest
      else [high] :: codePoints (low :: rest)

/-- The items of `value ?? []`. -/
def iterate : JsValue → Option (List JsValue)
  | .undefined | .null => some []
  | .array items => some items
  | .string text => some ((codePoints text).map .string)
  | .boolean _ | .number _ | .object _ => none

/-! ## applyIngestResponse -/

/-- `batch[key]`. -/
def eventAt (batch : List PlaybackEvent) (key : JsString) : Option PlaybackEvent :=
  (batch.zipIdx.find? fun entry => key = js (toString entry.2)).map Prod.fst

/-- The id that a rejection which is not retryable settles, if it is one an event can have. -/
def rejectedId (batch : List PlaybackEvent) (rejection : JsValue) : Option (Option JsString) :=
  match rejection.get (js "id") with
  | .undefined | .null =>
      (propertyKey (rejection.get (js "index"))).map fun key => (eventAt batch key).map (·.id)
  | id => some id.string?

def settleRejection (batch : List PlaybackEvent) : JsValue → Option (Option JsString)
  | .undefined | .null => none
  | rejection =>
      if toBoolean (rejection.get (js "retryable")) then some none else rejectedId batch rejection

def settledBy (batch : List PlaybackEvent) : JsValue → Option (List JsString)
  | .undefined | .null => none
  | answer => do
      let accepted ← iterate (answer.get (js "accepted"))
      let duplicates ← iterate (answer.get (js "duplicates"))
      let rejected ← iterate (answer.get (js "rejected"))
      let settled ← rejected.mapM (settleRejection batch)
      some ((accepted ++ duplicates).filterMap JsValue.string? ++ settled.reduceOption)

def applyAnswer (batch : List PlaybackEvent) (answer : JsValue) : Option (List PlaybackEvent) :=
  (settledBy batch answer).map fun settled => batch.filter fun event => event.id ∉ settled

/-! ## flushQueue -/

/-- What became of the request. A body that is no JSON is `none`. -/
inductive Reply where
  | failed
  | answered (status : Nat) (body : Option JsValue)

inductive FlushOutcome where
  | flushed (remaining : Nat)
  | empty
  | deferred
deriving DecidableEq

/-- The stored queue and the outcome, which is `none` if `flushQueue` rejects. -/
structure Settlement where
  queue : List PlaybackEvent
  outcome : Option FlushOutcome
deriving DecidableEq

def Reply.refusesBatch : Reply → Bool
  | .answered status _ => status = 400 || status = 413 || status = 415
  | .failed => false

def isOk (status : Nat) : Bool := 200 ≤ status && status ≤ 299

/-- The body of a `200`, if it is JSON. -/
def Reply.answer? : Reply → Option JsValue
  | .answered status body => if isOk status then body else none
  | .failed => none

/-- `flushQueue` from the reply on: `batch` is what was sent, and `current` the queue by then. -/
def settleFlush (batch current : List PlaybackEvent) (reply : Reply) : Settlement :=
  if batch = [] then ⟨current, some .empty⟩
  else if reply.refusesBatch then ⟨[], some (.flushed 0)⟩
  else
    match reply with
    | .failed => ⟨current, some .deferred⟩
    | .answered status body =>
        if isOk status then
          match body with
          | none => ⟨current, some .deferred⟩
          | some answer =>
              match applyAnswer batch answer with
              | none => ⟨current, none⟩
              | some kept =>
                  ⟨current.filter fun event =>
                      event.id ∉ batch.map PlaybackEvent.id ∨ event.id ∈ kept.map PlaybackEvent.id,
                    some (.flushed kept.length)⟩
        else ⟨current, some .deferred⟩

/-! ## What an answer says -/

/-- The ids a list holds. -/
def listedIds (list : JsValue) : List JsString := (list.array?.getD []).filterMap JsValue.string?

/-- A rejection whose `retryable` is `false`, with an id or else a number as its index. -/
def isRejection (rejection : JsValue) : Bool :=
  (match rejection.get (js "retryable") with | .boolean false => true | _ => false) &&
    match rejection.get (js "id") with
    | .string _ => true
    | .undefined => (rejection.get (js "index")).number?.isSome
    | _ => false

def rejectedIds (batch : List PlaybackEvent) (rejections : List JsValue) : List JsString :=
  rejections.filterMap fun rejection => (settleRejection batch rejection).join

/-- The ids that the well-formed parts of an answer settle. -/
def saidBy (batch : List PlaybackEvent) (answer : JsValue) : List JsString :=
  listedIds (answer.get (js "accepted")) ++ listedIds (answer.get (js "duplicates")) ++
    rejectedIds batch (((answer.get (js "rejected")).array?.getD []).filter isRejection)

/-- A string that is given for a list. -/
def spelledIds : JsValue → List JsString
  | .string text => codePoints text
  | _ => []

/-- The ids that its ill-typed parts happen to name. -/
def misnamedBy (batch : List PlaybackEvent) (answer : JsValue) : List JsString :=
  spelledIds (answer.get (js "accepted")) ++ spelledIds (answer.get (js "duplicates")) ++
    rejectedIds batch (((answer.get (js "rejected")).array?.getD []).filter (!isRejection ·))

def isNullish : JsValue → Bool
  | .undefined | .null => true
  | _ => false

/-- A rejection that is not null, and whose index is a key if the event is looked up by it. -/
def ReadableRejection (rejection : JsValue) : Prop :=
  isNullish rejection = false ∧
    (toBoolean (rejection.get (js "retryable")) = true ∨
      isNullish (rejection.get (js "id")) = false ∨
      (propertyKey (rejection.get (js "index"))).isSome = true)

/-- An answer that is not null, whose lists are lists, strings or missing. -/
structure Readable (answer : JsValue) : Prop where
  given : isNullish answer = false
  accepted : (iterate (answer.get (js "accepted"))).isSome = true
  duplicates : (iterate (answer.get (js "duplicates"))).isSome = true
  rejected : (iterate (answer.get (js "rejected"))).isSome = true
  rejections : ∀ rejection ∈ (answer.get (js "rejected")).array?.getD [], ReadableRejection rejection

variable {batch : List PlaybackEvent} {answer rejection : JsValue} {settled : List JsString}
  {id : JsString}

theorem mapM_eq_some_iff {α β : Type} {read : α → Option β} {items : List α} {values : List β} :
    items.mapM read = some values ↔
      (∀ item ∈ items, (read item).isSome = true) ∧ values = items.filterMap read := by
  induction items generalizing values with
  | nil =>
      constructor
      · intro none
        cases none
        exact ⟨List.forall_mem_nil _, rfl⟩
      · rintro ⟨-, rfl⟩
        rfl
  | cons item items induction =>
      rw [List.mapM_cons, List.forall_mem_cons]
      cases found : read item with
      | none => simp
      | some value =>
          simp only [Option.bind_eq_bind, Option.bind_some, Option.bind_eq_some_iff, induction,
            List.filterMap_cons, found, Option.isSome_some, true_and, Option.pure_def,
            Option.some.injEq]
          constructor
          · rintro ⟨rest, ⟨all, rfl⟩, rfl⟩
            exact ⟨all, rfl⟩
          · rintro ⟨all, rfl⟩
            exact ⟨_, ⟨all, rfl⟩, rfl⟩

theorem settleRejection_isSome : (settleRejection batch rejection).isSome = true ↔
    ReadableRejection rejection := by
  have settle (given : isNullish rejection = false) : settleRejection batch rejection =
      if toBoolean (rejection.get (js "retryable")) then some none
      else rejectedId batch rejection := by
    cases rejection with
    | undefined | null => cases given
    | boolean | number | string | array | object => rfl
  cases given : isNullish rejection with
  | true =>
      have throws : settleRejection batch rejection = none := by
        cases rejection with
        | undefined | null => rfl
        | boolean | number | string | array | object => cases given
      simp [throws, ReadableRejection, given]
  | false =>
      rw [settle given, ReadableRejection, given]
      by_cases retryable : toBoolean (rejection.get (js "retryable")) = true
      · simp [retryable]
      · rw [if_neg retryable, rejectedId]
        cases rejection.get (js "id") <;> simp [retryable, isNullish]

/-- The string items that are iterated over for one of the lists. -/
theorem strings_of_iterate {list : JsValue} {items : List JsValue} (read : iterate list = some items) :
    items.filterMap JsValue.string? = listedIds list ++ spelledIds list := by
  cases list <;> cases read
  · rfl
  · rfl
  · simp [listedIds, spelledIds, JsValue.array?, List.filterMap_map, Function.comp_def,
      JsValue.string?]
  · simp [listedIds, spelledIds, JsValue.array?]

/-! ## Reading an answer -/

theorem digit_of_mem_index {index : Nat} {unit : UInt16} (member : unit ∈ js (toString index)) :
    unit ≤ 0x39 := by
  obtain ⟨char, inside, units⟩ := List.mem_flatMap.mp member
  have digit : char.isDigit = true := Nat.isDigit_of_mem_toDigits (b := 10) (by decide) (by decide) (by
    simpa [toString, Nat.repr] using inside)
  simp only [Char.isDigit, Bool.and_eq_true, decide_eq_true_eq] at digit
  have small : char.toNat ≤ 57 := UInt32.le_iff_toNat_le.mp digit.2
  rw [utf16Units, if_pos (by omega), List.mem_singleton] at units
  rw [units, UInt16.le_iff_toNat_le]
  have value : char.toNat.toUInt16.toNat = char.toNat := by
    simp only [Nat.toUInt16, UInt16.toNat_ofNat']
    omega
  rw [value]
  exact small

theorem eventAt_undefined : eventAt batch (js "undefined") = none := by
  rw [eventAt, Option.map_eq_none_iff, List.find?_eq_none]
  intro entry _ same
  have letter : (0x75 : UInt16) ∈ js (toString entry.2) := by
    rw [← of_decide_eq_true same]
    decide
  exact absurd (digit_of_mem_index letter) (by decide)

theorem settleRejection_string (text : JsString) :
    settleRejection batch (.string text) = some none := by
  simp [settleRejection, JsValue.get, toBoolean, rejectedId, propertyKey, eventAt_undefined]

/-- The rejections that are gone through settle these events. -/
theorem rejections_of_iterate {list : JsValue} {items : List JsValue}
    (read : iterate list = some items) :
    ((∀ item ∈ items, (settleRejection batch item).isSome = true) ↔
      ∀ rejection ∈ list.array?.getD [], ReadableRejection rejection) ∧
    (items.filterMap fun item => (settleRejection batch item).join) =
      rejectedIds batch (list.array?.getD []) := by
  cases list with
  | undefined | null =>
      cases read
      simp [JsValue.array?, rejectedIds]
  | array entries =>
      cases read
      simp [JsValue.array?, rejectedIds, settleRejection_isSome]
  | string text =>
      cases read
      simp [JsValue.array?, rejectedIds, settleRejection_string]
  | boolean | number | object => cases read

theorem settledBy_eq (given : isNullish answer = false) : settledBy batch answer = (do
    let accepted ← iterate (answer.get (js "accepted"))
    let duplicates ← iterate (answer.get (js "duplicates"))
    let rejected ← iterate (answer.get (js "rejected"))
    let settled ← rejected.mapM (settleRejection batch)
    some ((accepted ++ duplicates).filterMap JsValue.string? ++ settled.reduceOption)) := by
  cases answer with
  | undefined | null => cases given
  | boolean | number | string | array | object => rfl

/-- An answer that can be read settles what its parts name, by their type or not. -/
theorem mem_settledBy (read : settledBy batch answer = some settled) :
    Readable answer ∧ ∀ id, id ∈ settled ↔ id ∈ saidBy batch answer ∨ id ∈ misnamedBy batch answer := by
  have given : isNullish answer = false := by
    cases answer with
    | undefined | null => cases read
    | boolean | number | string | array | object => rfl
  rw [settledBy_eq given] at read
  simp only [Option.bind_eq_bind, Option.bind_eq_some_iff, Option.some.injEq] at read
  obtain ⟨accepted, isAccepted, duplicates, isDuplicates, rejected, isRejected, rejections, all, rfl⟩ :=
    read
  obtain ⟨every, rfl⟩ := mapM_eq_some_iff.mp all
  obtain ⟨readable, names⟩ := @rejections_of_iterate batch _ _ isRejected
  refine ⟨⟨given, by simp [isAccepted], by simp [isDuplicates], by simp [isRejected],
    readable.mp every⟩, ?_⟩
  intro id
  have settled : (rejected.filterMap (settleRejection batch)).reduceOption =
      rejectedIds batch ((answer.get (js "rejected")).array?.getD []) := by
    rw [← names]
    exact List.filterMap_filterMap
  have split : id ∈ rejectedIds batch ((answer.get (js "rejected")).array?.getD []) ↔
      id ∈ rejectedIds batch (((answer.get (js "rejected")).array?.getD []).filter isRejection) ∨
        id ∈ rejectedIds batch
          (((answer.get (js "rejected")).array?.getD []).filter (!isRejection ·)) := by
    simp only [rejectedIds, List.mem_filterMap, List.mem_filter, Bool.not_eq_true',
      ← Bool.not_eq_true]
    grind
  rw [List.mem_append, List.filterMap_append, List.mem_append, settled, split,
    strings_of_iterate isAccepted, strings_of_iterate isDuplicates]
  simp only [saidBy, misnamedBy, List.mem_append]
  tauto

theorem settledBy_isSome : (settledBy batch answer).isSome = true ↔ Readable answer := by
  constructor
  · intro read
    obtain ⟨settled, found⟩ := Option.isSome_iff_exists.mp read
    exact (mem_settledBy found).1
  · intro readable
    obtain ⟨accepted, isAccepted⟩ := Option.isSome_iff_exists.mp readable.accepted
    obtain ⟨duplicates, isDuplicates⟩ := Option.isSome_iff_exists.mp readable.duplicates
    obtain ⟨rejected, isRejected⟩ := Option.isSome_iff_exists.mp readable.rejected
    have every := (@rejections_of_iterate batch _ _ isRejected).1.mpr readable.rejections
    have all := mapM_eq_some_iff.mpr ⟨every, rfl⟩
    rw [settledBy_eq readable.given]
    simp [isAccepted, isDuplicates, isRejected, all]

/-! ## What is left of the stored queue -/

variable {current : List PlaybackEvent} {reply : Reply}

theorem settleFlush_refused (sent : batch ≠ []) (refuses : reply.refusesBatch = true) :
    settleFlush batch current reply = ⟨[], some (.flushed 0)⟩ := by
  rw [settleFlush.eq_def, if_neg sent, if_pos refuses]

theorem Reply.answer_taken (found : reply.answer? = some answer) : reply.refusesBatch = false := by
  cases reply with
  | failed => rfl
  | answered status body =>
      simp only [answer?, Option.ite_none_right_eq_some, isOk, Bool.and_eq_true,
        decide_eq_true_eq] at found
      simp only [refusesBatch, Bool.or_eq_false_iff, decide_eq_false_iff_not]
      omega

/-- Without an answer nothing is dropped. -/
theorem settleFlush_none (sent : batch ≠ []) (taken : reply.refusesBatch = false)
    (noAnswer : reply.answer? = none) :
    settleFlush batch current reply = ⟨current, some .deferred⟩ := by
  rw [settleFlush.eq_def, if_neg sent, taken, if_neg Bool.false_ne_true]
  cases reply with
  | failed => rfl
  | answered status body =>
      dsimp only
      split
      · rename_i ok
        rw [Reply.answer?, if_pos ok] at noAnswer
        rw [noAnswer]
      · rfl

theorem settleFlush_some (sent : batch ≠ []) (found : reply.answer? = some answer) :
    settleFlush batch current reply =
      match applyAnswer batch answer with
      | none => ⟨current, none⟩
      | some kept =>
          ⟨current.filter fun event =>
              event.id ∉ batch.map PlaybackEvent.id ∨ event.id ∈ kept.map PlaybackEvent.id,
            some (.flushed kept.length)⟩ := by
  rw [settleFlush.eq_def, if_neg sent, Reply.answer_taken found, if_neg Bool.false_ne_true]
  cases reply with
  | failed => cases found
  | answered status body =>
      simp only [Reply.answer?, Option.ite_none_right_eq_some] at found
      obtain ⟨ok, rfl⟩ := found
      simp only [if_pos ok]

/-- An answer that cannot be read makes the flush reject, with the queue as it was. -/
theorem settleFlush_unreadable (sent : batch ≠ []) (found : reply.answer? = some answer)
    (unreadable : ¬ Readable answer) : settleFlush batch current reply = ⟨current, none⟩ := by
  have unread : settledBy batch answer = none := by
    rw [← @settledBy_isSome batch] at unreadable
    simpa using unreadable
  rw [settleFlush_some sent found, applyAnswer, unread]
  rfl

/-- An answer that can be read leaves of the sent plays those that it does not name. -/
theorem settleFlush_readable (sent : batch ≠ []) (found : reply.answer? = some answer)
    (readable : Readable answer) : settleFlush batch current reply =
      ⟨current.filter fun event => event.id ∉ batch.map PlaybackEvent.id ∨
          event.id ∉ saidBy batch answer ∧ event.id ∉ misnamedBy batch answer,
        some (.flushed (batch.filter fun event =>
          event.id ∉ saidBy batch answer ∧ event.id ∉ misnamedBy batch answer).length)⟩ := by
  obtain ⟨settled, read⟩ := Option.isSome_iff_exists.mp ((@settledBy_isSome batch _).mpr readable)
  have names := (mem_settledBy read).2
  have unnamed (id : JsString) :
      id ∉ settled ↔ id ∉ saidBy batch answer ∧ id ∉ misnamedBy batch answer := by
    rw [names, not_or]
  rw [settleFlush_some sent found, applyAnswer, read]
  simp only [Option.map_some, unnamed]
  congr 1
  apply List.filter_congr
  intro event _
  rw [decide_eq_decide]
  simp only [List.mem_map, List.mem_filter, decide_eq_true_eq]
  grind

end Tapes.Outbox
