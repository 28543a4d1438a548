import Tapes.Blobs.BlobHttp

namespace Tapes.Blobs

open Tapes.Js
open Tapes.Provenance (trim)

/-! Which bytes a `Range` header asks for, and when the download route answers with exactly those. -/

/-! ## What is asked for -/

/-- `nothing` is `bytes=-`, which names neither end. -/
inductive ByteRange where
  | nothing
  | final (count : Nat)
  | since (first : Nat)
  | between (first last : Nat)

/-- The single range of the header, its numbers being what their digits say. -/
def requested (header : Option JsString) : Option ByteRange :=
  (matchRange (trim (header.getD []))).map fun
    | ([], []) => .nothing
    | ([], rawEnd) => .final (digitsValue rawEnd)
    | (rawStart, []) => .since (digitsValue rawStart)
    | (rawStart, rawEnd) => .between (digitsValue rawStart) (digitsValue rawEnd)

/-- The positions that the range and a blob of that size have in common. -/
def ByteRange.Selects (size position : Nat) : ByteRange → Prop
  | .nothing => False
  | .final count => position < size ∧ size ≤ position + count
  | .since first => position < size ∧ first ≤ position
  | .between first last => position < size ∧ first ≤ position ∧ position ≤ last

/-! ## The property -/

/-- The ends are whole numbers within the blob, and what is between them is what was asked for. -/
structure Intersects (range : ByteRange) (size : Nat) (start last : JsNumber) : Prop where
  ends : ∃ low high, start.Is low ∧ last.Is high ∧ low ≤ high ∧ high < size ∧
    ∀ position, range.Selects size position ↔ low ≤ position ∧ position ≤ high

structure ExactRanges (header : Option JsString) (blob : StoredBlob) : Prop where
  ok : ∀ start last, parseRange header blob.size = .ok start last →
    ∃ range, requested header = some range ∧ Intersects range blob.bytes.length start last
  unsatisfiable : parseRange header blob.size = .unsatisfiable ↔
    ∃ range, requested header = some range ∧ ∀ position, ¬ range.Selects blob.bytes.length position
  announced : ∀ text, (handleDownload (some blob) header .get).announced = some text →
    text = numberText (toNumber (handleDownload (some blob) header .get).sent.length)
  /-- A HEAD is announced what the GET is. -/
  head : (handleDownload (some blob) header .head).headers =
    (handleDownload (some blob) header .get).headers

/-- What goes wrong is the end of an empty blob, and, past the integers that a Number counts, an end
that the rounding moves or that no read stream takes. -/
def ByteRange.Counted (size : Nat) : ByteRange → Prop
  | .nothing => True
  | .final count => count = 0 ∨ 0 < size ∧ size ≤ 2 ^ 53
  | .since first => size ≤ first ∨ size ≤ 2 ^ 53
  | .between first last => size ≤ first ∨ size ≤ 2 ^ 53 ∨ (first ≤ last ∧ last < 2 ^ 53) ∨
      (last < first ∧ ((toNumber last).lessThan (toNumber first) = true ∨
        (toNumber first).lessThan (toNumber size) = false))

variable {header : Option JsString} {blob : StoredBlob} {range : ByteRange} {start last : JsNumber}
  {size count first past low high : Nat}

/-! ## The answer in terms of the range -/

theorem parseRange_not_requested (none : requested header = none) (size : JsNumber) :
    parseRange header size = .none := by
  rw [requested, Option.map_eq_none_iff] at none
  rw [parseRange, none]

theorem parseRange_nothing (found : requested header = some .nothing) (size : JsNumber) :
    parseRange header size = .unsatisfiable := by
  obtain ⟨⟨rawStart, rawEnd⟩, matched, same⟩ := Option.map_eq_some_iff.mp found
  cases rawStart <;> cases rawEnd <;> cases same
  rw [parseRange, matched]

theorem parseRange_final (found : requested header = some (.final count)) (size : JsNumber) :
    parseRange header size = if (toNumber count).strictEquals (toNumber 0) then .unsatisfiable
      else .ok ((toNumber 0).max (size.minus (toNumber count))) (size.minus (toNumber 1)) := by
  obtain ⟨⟨rawStart, rawEnd⟩, matched, same⟩ := Option.map_eq_some_iff.mp found
  cases rawStart <;> cases rawEnd <;> cases same
  rw [parseRange, matched]
  simp only [parseSuffix]

theorem parseRange_since (found : requested header = some (.since first)) (size : JsNumber) :
    parseRange header size = if (toNumber first).lessThan size then
        if (size.minus (toNumber 1)).lessThan (toNumber first) then .unsatisfiable
        else .ok (toNumber first) (size.minus (toNumber 1))
      else .unsatisfiable := by
  obtain ⟨⟨rawStart, rawEnd⟩, matched, same⟩ := Option.map_eq_some_iff.mp found
  cases rawStart <;> cases rawEnd <;> cases same
  rw [parseRange, matched]
  simp only [if_true]

theorem parseRange_between (found : requested header = some (.between first past))
    (size : JsNumber) :
    parseRange header size = if (toNumber first).lessThan size then
        if ((toNumber past).min (size.minus (toNumber 1))).lessThan (toNumber first) then
          .unsatisfiable
        else .ok (toNumber first) ((toNumber past).min (size.minus (toNumber 1)))
      else .unsatisfiable := by
  obtain ⟨⟨rawStart, rawEnd⟩, matched, same⟩ := Option.map_eq_some_iff.mp found
  cases rawStart <;> cases rawEnd <;> cases same
  rw [parseRange, matched]
  simp only [reduceCtorEq, if_false]

theorem parseRange_ne_none (found : requested header = some range) (size : JsNumber) :
    parseRange header size ≠ .none := by
  cases range with
  | nothing => simp [parseRange_nothing found]
  | final count =>
      rw [parseRange_final found]
      split <;> simp
  | since first =>
      rw [parseRange_since found]
      split
      · split <;> simp
      · simp
  | between first past =>
      rw [parseRange_between found]
      split
      · split <;> simp
      · simp

theorem announced_ok (parsed : parseRange header blob.size = .ok start last) (method : Method) :
    (handleDownload (some blob) header method).announced =
      some (numberText ((last.minus start).plus (toNumber 1))) := by
  simp only [handleDownload, parsed]
  cases method with
  | head => rfl
  | get => cases readBlob blob.bytes start last <;> rfl

theorem sent_ok (parsed : parseRange header blob.size = .ok start last) :
    (handleDownload (some blob) header .get).sent = (readBlob blob.bytes start last).getD [] := by
  simp only [handleDownload, parsed]
  cases readBlob blob.bytes start last <;> rfl

theorem headers_head (blob : Option StoredBlob) (header : Option JsString) :
    (handleDownload blob header .head).headers = (handleDownload blob header .get).headers := by
  cases blob with
  | none => rfl
  | some blob =>
      simp only [handleDownload]
      cases parseRange header blob.size with
      | unsatisfiable | none => rfl
      | ok start last =>
          dsimp only
          cases readBlob blob.bytes start last <;> rfl

/-- What is left to show of one range. -/
def Served (blob : StoredBlob) (range : ByteRange) : ParsedRange → Prop
  | .ok start last => Intersects range blob.bytes.length start last ∧
      numberText ((last.minus start).plus (toNumber 1)) =
        numberText (toNumber ((readBlob blob.bytes start last).getD []).length)
  | .unsatisfiable => ∀ position, ¬ range.Selects blob.bytes.length position
  | .none => False

theorem exactRanges_iff_served (found : requested header = some range) :
    ExactRanges header blob ↔ Served blob range (parseRange header blob.size) := by
  constructor
  · intro exactly
    cases answer : parseRange header blob.size with
    | none => exact absurd answer (parseRange_ne_none found _)
    | unsatisfiable =>
        obtain ⟨_, same, none⟩ := exactly.unsatisfiable.mp answer
        rw [found, Option.some.injEq] at same
        subst same
        exact none
    | ok start last =>
        obtain ⟨_, same, intersects⟩ := exactly.ok start last answer
        rw [found, Option.some.injEq] at same
        subst same
        refine ⟨intersects, ?_⟩
        have announced := exactly.announced _ (announced_ok answer .get)
        rwa [sent_ok answer] at announced
  · intro served
    cases answer : parseRange header blob.size with
    | none => exact absurd answer (parseRange_ne_none found _)
    | unsatisfiable =>
        rw [answer] at served
        refine ⟨?_, ?_, ?_, headers_head _ _⟩
        · intro start last ok
          rw [answer] at ok
          cases ok
        · exact iff_of_true answer ⟨range, found, served⟩
        · intro text announced
          simp only [handleDownload, answer] at announced
          cases announced
    | ok start last =>
        rw [answer] at served
        obtain ⟨intersects, length⟩ := served
        refine ⟨?_, ?_, ?_, headers_head _ _⟩
        · intro start' last' ok
          rw [answer] at ok
          cases ok
          exact ⟨range, found, intersects⟩
        · refine iff_of_false ?_ ?_
          · rw [answer]
            simp
          · rintro ⟨_, same, none⟩
            rw [found, Option.some.injEq] at same
            subst same
            obtain ⟨low, high, -, -, ordered, -, selects⟩ := intersects.ends
            exact none low ((selects low).mpr ⟨le_refl low, ordered⟩)
        · intro text announced
          rw [announced_ok answer, Option.some.injEq] at announced
          rw [← announced, sent_ok answer]
          exact length

/-! ## The bytes that are sent -/

theorem offset?_of_lt (exactly : start.Is low) (small : low < 2 ^ 53) : offset? start = some low := by
  obtain ⟨magnitude, rfl, units⟩ := exactly
  have unit : 0 < 2 ^ 1074 := by positivity
  have whole : magnitude.units % 2 ^ 1074 = 0 := by rw [units, Nat.mul_mod_left]
  have value : magnitude.units / 2 ^ 1074 = low := by rw [units, Nat.mul_div_cancel _ unit]
  rw [offset?, whole, value, if_pos ⟨rfl, small, by simp⟩]

theorem offset?_of_ge (exactly : start.Is low) (large : 2 ^ 53 ≤ low) : offset? start = none := by
  obtain ⟨magnitude, rfl, units⟩ := exactly
  have unit : 0 < 2 ^ 1074 := by positivity
  have value : magnitude.units / 2 ^ 1074 = low := by rw [units, Nat.mul_div_cancel _ unit]
  rw [offset?, value, if_neg (fun met => absurd met.2.1 (not_lt.mpr large))]

theorem length_readBlob {bytes : Bytes} (first : start.Is low) (past : last.Is high)
    (ordered : low ≤ high) (inside : high < bytes.length) (small : high < 2 ^ 53) :
    ((readBlob bytes start last).getD []).length = high - low + 1 := by
  rw [readBlob, offset?_of_lt first (lt_of_le_of_lt ordered small), offset?_of_lt past small]
  simp only [if_pos ordered, Option.getD_some, List.length_take, List.length_drop]
  omega

theorem readBlob_of_large {bytes : Bytes} (past : last.Is high) (large : 2 ^ 53 ≤ high) :
    readBlob bytes start last = none := by
  rw [readBlob, offset?_of_ge past large]
  cases offset? start <;> rfl

theorem announced_length (first : start.Is low) (past : last.Is high) (ordered : low ≤ high)
    (small : high < 2 ^ 53) :
    (last.minus start).plus (toNumber 1) = toNumber (high - low + 1) := by
  rw [past.minus first ordered]
  exact (toNumber_is (by omega)).plus_one

/-- What is announced is at least one byte. -/
theorem announced_ne_zero (first : start.Is low) (past : last.Is high) (ordered : low ≤ high) :
    numberText ((last.minus start).plus (toNumber 1)) ≠ numberText (toNumber 0) := by
  rw [past.minus first ordered]
  obtain infinite | ⟨magnitude, found, positive⟩ := plus_one_cases (high - low)
  · rw [infinite, numberText_zero]
    decide
  · rw [found]
    exact numberText_ne_zero positive

theorem served_of_small (first : start.Is low) (past : last.Is high) (ordered : low ≤ high)
    (inside : high < blob.bytes.length) (small : high < 2 ^ 53)
    (selects : ∀ position, range.Selects blob.bytes.length position ↔
      low ≤ position ∧ position ≤ high) : Served blob range (.ok start last) := by
  refine ⟨⟨low, high, first, past, ordered, inside, selects⟩, ?_⟩
  rw [announced_length first past ordered small, length_readBlob first past ordered inside small]

/-- The highest position that the range selects is one that a read stream takes. -/
theorem small_of_served (served : Served blob range (.ok start last)) :
    ∃ low high, start.Is low ∧ last.Is high ∧ low ≤ high ∧ high < blob.bytes.length ∧ high < 2 ^ 53 ∧
      ∀ position, range.Selects blob.bytes.length position ↔ low ≤ position ∧ position ≤ high := by
  obtain ⟨⟨low, high, first, past, ordered, inside, selects⟩, length⟩ := served
  refine ⟨low, high, first, past, ordered, inside, ?_, selects⟩
  by_contra large
  rw [readBlob_of_large past (not_lt.mp large)] at length
  exact announced_ne_zero first past ordered length

/-! ## One range at a time -/

theorem lessThan_size (exactly : blob.size.Is size) (inside : first < size) (small : first < 2 ^ 53) :
    (toNumber first).lessThan blob.size = true := by
  have below := toNumber_lessThan inside small
  rwa [exactly.toNumber_eq] at below

theorem not_lessThan_size (exactly : blob.size.Is size) (beyond : size ≤ first) :
    (toNumber first).lessThan blob.size = false := by
  have below := lessThan_toNumber beyond
  rwa [exactly.toNumber_eq] at below

theorem served_final_iff (found : requested header = some (.final count)) :
    Served blob (.final count) (parseRange header blob.size) ↔
      (ByteRange.final count).Counted blob.bytes.length := by
  have exactly := blob.counted
  rw [parseRange_final found, strictEquals_zero]
  by_cases zero : count = 0
  · rw [if_pos (decide_eq_true zero)]
    refine iff_of_true (fun position selected => ?_) (.inl zero)
    obtain ⟨inside, reached⟩ := selected
    omega
  rw [if_neg (by simp [zero])]
  constructor
  · intro served
    obtain ⟨low, high, -, -, ordered, inside, small, selects⟩ := small_of_served served
    have selected := (selects (blob.bytes.length - 1)).mp ⟨by omega, by omega⟩
    exact .inr ⟨by omega, by omega⟩
  · intro counted
    obtain ⟨positive, small⟩ := counted.resolve_left zero
    have last := exactly.minus (toNumber_is (show 1 ≤ 2 ^ 53 by decide)) positive
    rw [exactly.max_minus small, last]
    refine served_of_small (toNumber_is (by omega)) (toNumber_is (by omega)) ?_ ?_ ?_ ?_
    · omega
    · omega
    · omega
    · intro position
      simp only [ByteRange.Selects]
      omega

theorem served_since_iff (found : requested header = some (.since first)) :
    Served blob (.since first) (parseRange header blob.size) ↔
      (ByteRange.since first).Counted blob.bytes.length := by
  have exactly := blob.counted
  rw [parseRange_since found]
  by_cases beyond : blob.bytes.length ≤ first
  · rw [not_lessThan_size exactly beyond, if_neg (by simp)]
    refine iff_of_true (fun position selected => ?_) (.inl beyond)
    obtain ⟨inside, reached⟩ := selected
    omega
  have inside := not_le.mp beyond
  have selected : (ByteRange.since first).Selects blob.bytes.length (blob.bytes.length - 1) := by
    refine ⟨?_, ?_⟩
    · omega
    · omega
  constructor
  · intro served
    split at served
    · split at served
      · exact absurd selected (served _)
      · obtain ⟨low, high, -, -, ordered, within, small, selects⟩ := small_of_served served
        have reached := (selects _).mp selected
        exact .inr (by omega)
    · exact absurd selected (served _)
  · intro counted
    have small := counted.resolve_left beyond
    have last := exactly.minus (toNumber_is (show 1 ≤ 2 ^ 53 by decide)) (by omega)
    have start := toNumber_is (show first ≤ 2 ^ 53 by omega)
    have past := toNumber_is (show blob.bytes.length - 1 ≤ 2 ^ 53 by omega)
    rw [last, if_pos (lessThan_size exactly inside (by omega)), past.lessThan start,
      if_neg (by simp; omega)]
    refine served_of_small start past ?_ ?_ ?_ ?_
    · omega
    · omega
    · omega
    · intro position
      simp only [ByteRange.Selects]
      omega

/-- The lower end of two, whatever the rounding makes of the larger one. -/
theorem min_of_le (exactly : blob.size.Is size) (positive : 0 < size) (below : past < size) :
    (toNumber past).min (blob.size.minus (toNumber 1)) = toNumber past := by
  have last := exactly.minus (toNumber_is (show 1 ≤ 2 ^ 53 by decide)) positive
  have least := lessThan_toNumber (show past ≤ size - 1 by omega)
  rw [last, JsNumber.min, if_neg (by simp [toNumber_ne_nan]), least, if_neg (by simp)]

theorem served_between_iff (found : requested header = some (.between first past)) :
    Served blob (.between first past) (parseRange header blob.size) ↔
      (ByteRange.between first past).Counted blob.bytes.length := by
  have exactly := blob.counted
  rw [parseRange_between found]
  by_cases beyond : blob.bytes.length ≤ first
  · rw [not_lessThan_size exactly beyond, if_neg (by simp)]
    refine iff_of_true (fun position selected => ?_) (.inl beyond)
    obtain ⟨inside, reached, -⟩ := selected
    omega
  have inside := not_le.mp beyond
  by_cases reversed : past < first
  · -- nothing is selected, so the one thing to see is that the range is refused
    have least := min_of_le exactly (by omega) (by omega : past < blob.bytes.length)
    have none (position : Nat) : ¬ (ByteRange.between first past).Selects blob.bytes.length position := by
      rintro ⟨-, reached, within⟩
      omega
    have refused : Served blob (.between first past) .unsatisfiable := none
    have never (start last : JsNumber) : ¬ Served blob (.between first past) (.ok start last) := by
      intro served
      obtain ⟨low, high, -, -, ordered, -, -, selects⟩ := small_of_served served
      exact none low ((selects low).mpr ⟨le_refl low, ordered⟩)
    rw [least, ByteRange.Counted, exactly.toNumber_eq]
    cases sized : (toNumber first).lessThan blob.size with
    | false =>
        rw [if_neg (by simp)]
        exact iff_of_true refused (.inr (.inr (.inr ⟨reversed, .inr rfl⟩)))
    | true =>
        rw [if_pos rfl]
        cases ordered : (toNumber past).lessThan (toNumber first) with
        | true =>
            rw [if_pos rfl]
            exact iff_of_true refused (.inr (.inr (.inr ⟨reversed, .inl rfl⟩)))
        | false =>
            have large : ¬ first < 2 ^ 53 := by
              intro small
              rw [toNumber_lessThan reversed (by omega)] at ordered
              cases ordered
            rw [if_neg (by simp)]
            refine iff_of_false (never _ _) ?_
            simp only [Bool.false_eq_true, Bool.true_eq_false, or_self, and_false, or_false]
            omega
  have ordered := not_lt.mp reversed
  have selected : (ByteRange.between first past).Selects blob.bytes.length
      (min past (blob.bytes.length - 1)) := by
    refine ⟨?_, ?_, ?_⟩
    · omega
    · omega
    · omega
  constructor
  · intro served
    split at served
    · split at served
      · exact absurd selected (served _)
      · obtain ⟨low, high, -, -, -, within, small, selects⟩ := small_of_served served
        have reached := (selects _).mp selected
        by_cases inner : past < blob.bytes.length
        · exact .inr (.inr (.inl ⟨ordered, by omega⟩))
        · exact .inr (.inl (by omega))
    · exact absurd selected (served _)
  · intro counted
    have small : min past (blob.bytes.length - 1) < 2 ^ 53 := by
      obtain out | sized | ⟨-, within⟩ | ⟨back, -⟩ := counted <;> omega
    have start := toNumber_is (show first ≤ 2 ^ 53 by omega)
    have last := toNumber_is (Nat.le_of_lt small)
    have least : (toNumber past).min (blob.size.minus (toNumber 1)) =
        toNumber (min past (blob.bytes.length - 1)) := by
      by_cases inner : past < blob.bytes.length
      · rw [min_of_le exactly (by omega) inner]
        congr 1
        omega
      · have edge : min past (blob.bytes.length - 1) = blob.bytes.length - 1 := by omega
        rw [edge] at small ⊢
        have below := toNumber_lessThan (show blob.bytes.length - 1 < past by omega) small
        have size := exactly.minus (toNumber_is (show 1 ≤ 2 ^ 53 by decide)) (by omega)
        rw [size, JsNumber.min, if_neg (by simp [toNumber_ne_nan]), below, if_pos rfl]
    have upward := lessThan_toNumber (show first ≤ min past (blob.bytes.length - 1) by omega)
    rw [least, lessThan_size exactly inside (by omega), if_pos rfl, upward, if_neg (by simp)]
    refine served_of_small start last ?_ ?_ small ?_
    · omega
    · omega
    · intro position
      simp only [ByteRange.Selects]
      omega

/-- A range is read, and its bytes announced, exactly where the range counts within the blob. -/
theorem ranges_exact_iff (header : Option JsString) (blob : StoredBlob) :
    ExactRanges header blob ↔
      ∀ range, requested header = some range → range.Counted blob.bytes.length := by
  cases found : requested header with
  | none =>
      have parsed := parseRange_not_requested found blob.size
      refine iff_of_true ⟨?_, ?_, ?_, headers_head _ _⟩ (by simp)
      · intro start last ok
        rw [parsed] at ok
        cases ok
      · rw [parsed, found]
        simp
      · intro text announced
        simp only [handleDownload, parsed] at announced ⊢
        cases announced
        show numberText blob.size = numberText (toNumber blob.bytes.length)
        rw [blob.counted.toNumber_eq]
  | some range =>
      rw [exactRanges_iff_served found]
      simp only [Option.some.injEq, forall_eq']
      cases range with
      | nothing =>
          rw [parseRange_nothing found]
          exact iff_of_true (fun _ absent => absent) trivial
      | final count => exact served_final_iff found
      | since first => exact served_since_iff found
      | between first past => exact served_between_iff found

/-! ## An empty blob -/

def emptyBlob : StoredBlob where
  hash := js "e3b0c44298fc1c149afbf4c8996fb92427ae41e4649b934ca495991b7852b855"
  mimeType := js "audio/wav"
  ext := js ".wav"
  bytes := []
  size := .finite false .zero
  counted := zero_is

/-- The last five bytes of an empty blob end one byte before it. -/
theorem suffix_of_empty_blob_is_served : ¬ ExactRanges (some (js "bytes=-5")) emptyBlob := by
  intro exactly
  have five : parseRange (some (js "bytes=-5")) emptyBlob.size =
      .ok (toNumber 0) (.finite true .one) := by
    decide +kernel
  obtain ⟨_, _, _, high, -, ⟨_, same, _⟩, -⟩ := exactly.ok _ _ five
  cases same

end Tapes.Blobs
