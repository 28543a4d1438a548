import Mathlib.Tactic.IntervalCases
import Tapes.Js.Number

namespace Tapes.Js

/-! What Number::toString writes, the JSON grammar reads back. -/

/-! ## Digits -/

def IsDigits (digits : List Nat) : Prop := ∀ digit ∈ digits, digit < 10

theorem decimalDigits_go_value {fuel value : Nat} (digits : List Nat) (enough : value < fuel) :
    digitsValue (decimalDigits.go fuel value digits) =
      digits.foldl (fun value digit => value * 10 + digit) value := by
  induction fuel generalizing value digits with
  | zero => omega
  | succ fuel induction =>
      simp only [decimalDigits.go]
      split
      · simp [digitsValue]
      · rw [induction _ (by omega), List.foldl_cons]
        congr 1
        omega

theorem digitsValue_decimalDigits (value : Nat) : digitsValue (decimalDigits value) = value :=
  decimalDigits_go_value [] (Nat.lt_succ_self value)

theorem isDigits_decimalDigits_go {fuel value : Nat} {digits : List Nat} (enough : value < fuel)
    (small : IsDigits digits) : IsDigits (decimalDigits.go fuel value digits) := by
  induction fuel generalizing value digits with
  | zero => omega
  | succ fuel induction =>
      simp only [decimalDigits.go]
      split
      · rename_i low
        exact List.forall_mem_cons.mpr ⟨low, small⟩
      · exact induction (by omega) (List.forall_mem_cons.mpr ⟨Nat.mod_lt _ (by omega), small⟩)

theorem isDigits_decimalDigits (value : Nat) : IsDigits (decimalDigits value) :=
  isDigits_decimalDigits_go (Nat.lt_succ_self value) (by simp [IsDigits])

theorem decimalDigits_go_head {fuel value : Nat} (digits : List Nat) (enough : value < fuel)
    (nonzero : value ≠ 0) : ∃ first rest,
      decimalDigits.go fuel value digits = first :: rest ∧ first ≠ 0 := by
  induction fuel generalizing value digits with
  | zero => omega
  | succ fuel induction =>
      simp only [decimalDigits.go]
      split
      · exact ⟨value, digits, rfl, nonzero⟩
      · exact induction _ (by omega) (by omega)

/-- The digits of a number other than zero do not start with a zero. -/
theorem decimalDigits_head {value : Nat} (nonzero : value ≠ 0) :
    ∃ first rest, decimalDigits value = first :: rest ∧ first ≠ 0 :=
  decimalDigits_go_head [] (Nat.lt_succ_self value) nonzero

theorem decimalDigits_ne_nil (value : Nat) : decimalDigits value ≠ [] := by
  by_cases zero : value = 0
  · subst value
    decide
  · obtain ⟨first, rest, split, -⟩ := decimalDigits_head zero
    simp [split]

theorem foldl_digits (start : Nat) (digits : List Nat) :
    digits.foldl (fun value digit => value * 10 + digit) start =
      start * 10 ^ digits.length + digitsValue digits := by
  induction digits generalizing start with
  | nil => simp [digitsValue]
  | cons digit digits induction =>
      rw [digitsValue, List.foldl_cons, List.foldl_cons, induction, induction, List.length_cons]
      ring

theorem digitsValue_append (left right : List Nat) :
    digitsValue (left ++ right) = digitsValue left * 10 ^ right.length + digitsValue right := by
  rw [digitsValue, List.foldl_append, foldl_digits, ← digitsValue]

theorem digitsValue_zeros (count : Nat) : digitsValue (List.replicate count 0) = 0 := by
  induction count with
  | zero => rfl
  | succ count induction =>
      rw [List.replicate_succ', digitsValue_append, induction]
      simp [digitsValue]

/-! ## Reading digits -/

def NoDigit (rest : JsString) : Prop := ∀ unit ∈ rest.head?, isDigit unit = false

theorem isDigit_digitUnit {digit : Nat} (small : digit < 10) : isDigit (digitUnit digit) = true := by
  interval_cases digit <;> decide

theorem digitValue_digitUnit {digit : Nat} (small : digit < 10) :
    digitValue (digitUnit digit) = digit := by
  interval_cases digit <;> decide

theorem takeDigits_digitText {digits : List Nat} {rest : JsString} (small : IsDigits digits)
    (ends : NoDigit rest) : takeDigits (digitText digits ++ rest) = (digits, rest) := by
  induction digits with
  | nil =>
      cases rest with
      | nil => rfl
      | cons unit rest =>
          have other : isDigit unit = false := ends unit (by simp)
          simp [digitText, takeDigits, other]
  | cons digit digits induction =>
      obtain ⟨here, others⟩ := List.forall_mem_cons.mp small
      have tail := induction others
      simp only [digitText, List.map_cons, List.cons_append, takeDigits,
        isDigit_digitUnit here, if_true] at tail ⊢
      rw [tail, digitValue_digitUnit here]

theorem parseWhole_digitText {digits : List Nat} {first : Nat} {others : List Nat}
    {rest : JsString} (shape : digits = first :: others) (nonzero : first ≠ 0)
    (small : IsDigits digits) (ends : NoDigit rest) :
    parseWhole (digitText digits ++ rest) = some (digits, rest) := by
  rw [parseWhole, takeDigits_digitText small ends, shape]
  cases first with
  | zero => exact absurd rfl nonzero
  | succ first => rfl

theorem parseWhole_zero {rest : JsString} (ends : NoDigit rest) :
    parseWhole (0x30 :: rest) = some ([0], rest) := by
  have taken : takeDigits (digitText [0] ++ rest) = ([0], rest) :=
    takeDigits_digitText (by simp [IsDigits]) ends
  have text : digitText [0] ++ rest = 0x30 :: rest := rfl
  rw [text] at taken
  simp [parseWhole, taken, digitText]

theorem parseFraction_digitText {digits : List Nat} {rest : JsString} (nonempty : digits ≠ [])
    (small : IsDigits digits) (ends : NoDigit rest) :
    parseFraction (0x2E :: (digitText digits ++ rest)) = some (digits, rest) := by
  simp [parseFraction, takeDigits_digitText small ends, nonempty]

theorem parseFraction_none {rest : JsString} (ends : ∀ unit ∈ rest.head?, unit ≠ 0x2E) :
    parseFraction rest = some ([], rest) := by
  cases rest with
  | nil => rfl
  | cons unit rest =>
      have other : unit ≠ 0x2E := ends unit (by simp)
      simp [parseFraction, other]

theorem parseExponent_none {rest : JsString}
    (ends : ∀ unit ∈ rest.head?, unit ≠ 0x65 ∧ unit ≠ 0x45) :
    parseExponent rest = some (0, rest) := by
  cases rest with
  | nil => rfl
  | cons unit rest =>
      obtain ⟨small, capital⟩ := ends unit (by simp)
      simp [parseExponent, small, capital]

theorem parseExponentDigits_digitText {digits : List Nat} {rest : JsString} (negative : Bool)
    (nonempty : digits ≠ []) (small : IsDigits digits) (ends : NoDigit rest) :
    parseExponentDigits negative (digitText digits ++ rest) =
      some (if negative then -(digitsValue digits : Int) else digitsValue digits, rest) := by
  simp [parseExponentDigits, takeDigits_digitText small ends, nonempty]

/-- An exponent as Number::toString writes it. -/
theorem parseExponent_text {rest : JsString} (exponent : Int) (ends : NoDigit rest) :
    parseExponent (0x65 :: (if 0 ≤ exponent then 0x2B else 0x2D) ::
      (digitText (decimalDigits exponent.natAbs) ++ rest)) = some (exponent, rest) := by
  have digits : ∀ negative, parseExponentDigits negative
      (digitText (decimalDigits exponent.natAbs) ++ rest) = some
        (if negative then -(exponent.natAbs : Int) else exponent.natAbs, rest) := by
    intro negative
    rw [parseExponentDigits_digitText negative (decimalDigits_ne_nil _) (isDigits_decimalDigits _)
      ends, digitsValue_decimalDigits]
  by_cases positive : 0 ≤ exponent
  · have value : (exponent.natAbs : Int) = exponent := Int.natAbs_of_nonneg positive
    simp [parseExponent, positive, digits, value]
  · have value : -(exponent.natAbs : Int) = exponent := by omega
    simp only [parseExponent, positive, digits true, value, decide_true, Bool.true_or, if_true,
      if_false]

/-! ## Reading a number -/

/-- What follows does not go on with the number. -/
def NumberEnds (rest : JsString) : Prop :=
  ∀ unit ∈ rest.head?, isDigit unit = false ∧ unit ≠ 0x2E ∧ unit ≠ 0x65 ∧ unit ≠ 0x45

theorem NumberEnds.noDigit {rest : JsString} (ends : NumberEnds rest) : NoDigit rest :=
  fun unit head => (ends unit head).1

theorem NumberEnds.noPoint {rest : JsString} (ends : NumberEnds rest) :
    ∀ unit ∈ rest.head?, unit ≠ 0x2E :=
  fun unit head => (ends unit head).2.1

theorem NumberEnds.noExponent {rest : JsString} (ends : NumberEnds rest) :
    ∀ unit ∈ rest.head?, unit ≠ 0x65 ∧ unit ≠ 0x45 :=
  fun unit head => (ends unit head).2.2

theorem ofDecimal_shift (digits zeros : Nat) :
    ofDecimal (digits * 10 ^ zeros) 0 = ofDecimal digits zeros := by
  rw [ofDecimal, ofDecimal, if_pos (le_refl _), if_pos (Int.natCast_nonneg _), Int.toNat_natCast,
    Int.toNat_zero, pow_zero, mul_one]

theorem parseUnsigned_of_parts {negative : Bool} {text middle last rest : JsString}
    {whole fraction : List Nat} {exponent : Int} {magnitude : Magnitude}
    (wholeRead : parseWhole text = some (whole, middle))
    (fractionRead : parseFraction middle = some (fraction, last))
    (exponentRead : parseExponent last = some (exponent, rest))
    (value : ofDecimal (digitsValue (whole ++ fraction)) (exponent - fraction.length) =
      some magnitude) :
    parseUnsigned negative text = some (.finite negative magnitude, rest) := by
  simp only [parseUnsigned, wholeRead, fractionRead, exponentRead, value, Option.bind_eq_bind,
    Option.bind_some, Option.pure_def]

theorem IsDigits.append {left right : List Nat} (left' : IsDigits left) (right' : IsDigits right) :
    IsDigits (left ++ right) := by
  intro digit member
  rcases List.mem_append.mp member with member | member
  · exact left' digit member
  · exact right' digit member

theorem isDigits_zeros (count : Nat) : IsDigits (List.replicate count 0) := by
  intro digit member
  simp [List.eq_of_mem_replicate member]

theorem IsDigits.take {digits : List Nat} (small : IsDigits digits) (count : Nat) :
    IsDigits (digits.take count) :=
  fun digit member => small digit (List.mem_of_mem_take member)

theorem IsDigits.drop {digits : List Nat} (small : IsDigits digits) (count : Nat) :
    IsDigits (digits.drop count) :=
  fun digit member => small digit (List.mem_of_mem_drop member)

theorem noDigit_point (rest : JsString) : NoDigit (0x2E :: rest) := by
  intro unit head
  cases head
  decide

theorem noDigit_exponent (rest : JsString) : NoDigit (0x65 :: rest) := by
  intro unit head
  cases head
  decide

theorem parseUnsigned_layout {digits others : List Nat} {exponent : Int} {magnitude : Magnitude}
    {first : Nat} {rest : JsString} (negative : Bool)
    (shape : digits = first :: others) (nonzero : first ≠ 0) (small : IsDigits digits)
    (value : ofDecimal (digitsValue digits) exponent = some magnitude) (ends : NumberEnds rest) :
    parseUnsigned negative (layout digits exponent ++ rest) =
      some (.finite negative magnitude, rest) := by
  have noDigit := ends.noDigit
  have long : 0 < digits.length := by simp [shape]
  simp only [layout]
  split
  · -- All digits before the point, zeros filled in.
    rename_i fits
    refine parseUnsigned_of_parts
      (parseWhole_digitText (by rw [shape, List.cons_append]) nonzero
        (small.append (isDigits_zeros _)) noDigit)
      (parseFraction_none ends.noPoint) (parseExponent_none ends.noExponent) ?_
    rw [List.append_nil, digitsValue_append, digitsValue_zeros, List.length_replicate, add_zero,
      List.length_nil, Nat.cast_zero, sub_zero, ofDecimal_shift, Int.toNat_of_nonneg fits.1, value]
  · rename_i notWhole
    split
    · -- The point between the digits.
      rename_i inside
      obtain ⟨count, same⟩ : ∃ count : Nat, exponent + digits.length = count + 1 :=
        ⟨(exponent + digits.length - 1).toNat, by omega⟩
      have places : (exponent + digits.length).toNat = count + 1 := by omega
      have short : count + 1 < digits.length := by omega
      rw [places, List.append_assoc, List.append_assoc]
      have front : digits.take (count + 1) = first :: others.take count := by
        rw [shape, List.take_succ_cons]
      have back : digits.drop (count + 1) ≠ [] := by
        rw [ne_eq, List.drop_eq_nil_iff]
        omega
      refine parseUnsigned_of_parts
        (parseWhole_digitText front nonzero (small.take _) (noDigit_point _))
        (parseFraction_digitText back (small.drop _) noDigit)
        (parseExponent_none ends.noExponent) ?_
      have dropped : (0 : Int) - (digits.drop (count + 1)).length = exponent := by
        rw [List.length_drop]
        omega
      rw [List.take_append_drop, dropped, value]
    · rename_i notInside
      split
      · -- A zero before the point, zeros after it.
        rename_i below
        have places : List.replicate (-(exponent + digits.length)).toNat 0 ++ digits ≠ [] := by
          simp [shape]
        refine parseUnsigned_of_parts (parseWhole_zero (noDigit_point _))
          (parseFraction_digitText places ((isDigits_zeros _).append small) noDigit)
          (parseExponent_none ends.noExponent) ?_
        have read : digitsValue ([0] ++ (List.replicate (-(exponent + digits.length)).toNat 0 ++
            digits)) = digitsValue digits := by
          rw [digitsValue_append, digitsValue_append, digitsValue_zeros]
          simp [digitsValue]
        have shifted : (0 : Int) - (List.replicate (-(exponent + digits.length)).toNat 0 ++
            digits).length = exponent := by
          rw [List.length_append, List.length_replicate]
          omega
        rw [read, shifted, value]
      · -- One digit before the point, and an exponent.
        rename_i exponential
        have whole : ∀ {after : JsString}, NoDigit after →
            parseWhole (digitText (digits.take 1) ++ after) = some ([first], after) := by
          intro after noDigit
          have front : digits.take 1 = [first] := by rw [shape]; rfl
          rw [front]
          exact parseWhole_digitText rfl nonzero (front ▸ small.take 1) noDigit
        have written := parseExponent_text (exponent + digits.length - 1) noDigit
        by_cases single : digits.length = 1
        · have none : others = [] := by
            have length : others.length + 1 = 1 := by rw [← List.length_cons, ← shape, single]
            exact List.length_eq_zero_iff.mp (by omega)
          rw [if_pos single, List.append_nil, List.append_assoc, List.append_assoc]
          refine parseUnsigned_of_parts (whole (noDigit_exponent _))
            (parseFraction_none (by simp)) written ?_
          rw [List.append_nil, List.length_nil, single]
          simpa [shape, none] using value
        · have back : digits.drop 1 ≠ [] := by
            rw [ne_eq, List.drop_eq_nil_iff]
            omega
          rw [if_neg single]
          simp only [List.append_assoc, List.cons_append, List.nil_append]
          refine parseUnsigned_of_parts (whole (noDigit_point _))
            (parseFraction_digitText back (small.drop 1) (noDigit_exponent _)) written ?_
          have joined : [first] ++ digits.drop 1 = digits := by rw [shape]; rfl
          have shifted : exponent + digits.length - 1 - (digits.drop 1).length = exponent := by
            rw [List.length_drop]
            omega
          rw [joined, shifted, value]

/-! ## The shortest digits -/

theorem ofDecimal_of_decimalAt {magnitude : Magnitude} {exponent : Int} {digits : Nat}
    (found : decimalAt magnitude exponent = some digits) :
    ofDecimal digits exponent = some magnitude := by
  simp only [decimalAt] at found
  generalize (if 0 ≤ exponent then magnitude.units
    else magnitude.units * 10 ^ (-exponent).toNat) = numerator at found
  generalize (if 0 ≤ exponent then 2 ^ 1074 * 10 ^ exponent.toNat else 2 ^ 1074) =
    denominator at found
  split at found
  · rename_i reads
    cases found
    exact reads
  · split at found
    · rename_i reads
      cases found
      exact reads
    · split at found
      · rename_i reads
        cases found
        exact reads
      · cases found

theorem ten_pow (places : Nat) : 10 ^ places = 5 ^ places * 2 ^ places :=
  Nat.mul_pow 5 2 places

theorem roundQuotient_finest (units places : Nat) :
    roundQuotient (units * 10 ^ places) (2 ^ places) = units * 5 ^ places := by
  rw [ten_pow, ← Nat.mul_assoc, roundQuotient_exact _ (Nat.two_pow_pos _)]

theorem ofUnits_finest (magnitude : Magnitude) (places : Nat) :
    ofUnits (magnitude.units * 5 ^ places * 2 ^ places) (10 ^ places) = some magnitude := by
  rw [Nat.mul_assoc, ← ten_pow]
  exact ofUnits_exact magnitude (Nat.pow_pos (by omega))

/-- Every magnitude is a whole number of units of `10 ^ -1074`. -/
theorem decimalAt_finest (magnitude : Magnitude) : decimalAt magnitude (-1074) ≠ none := by
  have below : ¬ (0 : Int) ≤ -1074 := by omega
  have places : (-(-1074 : Int)).toNat = 1074 := by omega
  have reads : ofDecimal (magnitude.units * 5 ^ 1074) (-1074) = some magnitude := by
    rw [ofDecimal, if_neg below, places]
    exact ofUnits_finest magnitude 1074
  simp only [decimalAt, if_neg below, places, roundQuotient_finest magnitude.units 1074, reads,
    if_true]
  exact Option.some_ne_none _

theorem ofDecimal_shortestFrom {magnitude : Magnitude} {fuel : Nat} {exponent : Int}
    (reaches : ∃ below < fuel, decimalAt magnitude (exponent - below) ≠ none) :
    ofDecimal (shortestFrom magnitude fuel exponent).1 (shortestFrom magnitude fuel exponent).2 =
      some magnitude := by
  induction fuel generalizing exponent with
  | zero =>
      obtain ⟨below, short, -⟩ := reaches
      omega
  | succ fuel induction =>
      simp only [shortestFrom]
      split
      · rename_i digits found
        exact ofDecimal_of_decimalAt found
      · rename_i missing
        refine induction ?_
        obtain ⟨below, short, found⟩ := reaches
        cases below with
        | zero => exact absurd (by simpa using missing) found
        | succ below =>
            refine ⟨below, by omega, ?_⟩
            have same : exponent - 1 - (below : Int) = exponent - ((below + 1 : Nat) : Int) := by
              omega
            rwa [same]

theorem ofDecimal_shortest (magnitude : Magnitude) :
    ofDecimal (shortest magnitude).1 (shortest magnitude).2 = some magnitude := by
  refine ofDecimal_shortestFrom
    ⟨(decimalDigits (magnitude.units / 2 ^ 1074)).length + 1074, by omega, ?_⟩
  have finest : (((decimalDigits (magnitude.units / 2 ^ 1074)).length : Nat) : Int) -
      ((decimalDigits (magnitude.units / 2 ^ 1074)).length + 1074 : Nat) = -1074 := by omega
  rw [finest]
  exact decimalAt_finest magnitude

theorem ofDecimal_zero (exponent : Int) : ofDecimal 0 exponent = some .zero := by
  have none : Magnitude.zero.units = 0 := by simp [Magnitude.units, Magnitude.zero]
  have zero : ∀ {denominator : Nat}, 0 < denominator →
      ofUnits 0 denominator = some .zero := by
    intro denominator positive
    have exact := ofUnits_exact .zero positive
    rwa [none, Nat.zero_mul] at exact
  rw [ofDecimal, Nat.zero_mul, Nat.zero_mul]
  split
  · exact zero Nat.one_pos
  · exact zero (Nat.pow_pos (by omega))

theorem layout_pair (pair : Nat × Int) :
    (let (digits, exponent) := pair; layout (decimalDigits digits) exponent) =
      layout (decimalDigits pair.1) pair.2 := by
  cases pair
  rfl

theorem magnitudeText_eq {magnitude : Magnitude} (nonzero : magnitude.units ≠ 0) :
    magnitudeText magnitude =
      layout (decimalDigits (shortest magnitude).1) (shortest magnitude).2 := by
  exact (if_neg nonzero).trans (layout_pair (shortest magnitude))

theorem parseUnsigned_magnitudeText (negative : Bool) {magnitude : Magnitude} {rest : JsString}
    (nonzero : magnitude.units ≠ 0) (ends : NumberEnds rest) :
    parseUnsigned negative (magnitudeText magnitude ++ rest) =
      some (.finite negative magnitude, rest) := by
  have reads := ofDecimal_shortest magnitude
  have digits : (shortest magnitude).1 ≠ 0 := by
    intro zero
    rw [zero, ofDecimal_zero, Option.some.injEq] at reads
    exact nonzero (by rw [← reads]; simp [Magnitude.units, Magnitude.zero])
  obtain ⟨first, others, shape, head⟩ := decimalDigits_head digits
  have value : ofDecimal (digitsValue (decimalDigits (shortest magnitude).1))
      (shortest magnitude).2 = some magnitude := by
    rw [digitsValue_decimalDigits, reads]
  rw [magnitudeText_eq nonzero]
  exact parseUnsigned_layout negative shape head (isDigits_decimalDigits _) value ends

/-- The value a number has once written and read: the two zeros become one. -/
def JsNumber.written (negative : Bool) (magnitude : Magnitude) : JsNumber :=
  .finite (negative && magnitude.units ≠ 0) magnitude

theorem magnitude_zero {magnitude : Magnitude} (none : magnitude.units = 0) : magnitude = .zero := by
  obtain ⟨mantissa, scale, small, fits, normal⟩ := magnitude
  have mantissaZero : mantissa = 0 := by
    rcases Nat.mul_eq_zero.mp none with zero | power
    · exact zero
    · exact absurd power (Nat.two_pow_pos scale).ne'
  subst mantissa
  rcases normal with rfl | large
  · rfl
  · omega

theorem parseNumber_of_parseUnsigned {text rest : JsString} {number : JsNumber}
    (read : parseUnsigned false text = some (number, rest)) :
    parseNumber text = some (number, rest) := by
  cases text with
  | nil => exact read
  | cons unit text =>
      by_cases minus : unit = 0x2D
      · subst unit
        have none : parseWhole (0x2D :: text) = none := rfl
        simp [parseUnsigned, none] at read
      · simpa [parseNumber, minus] using read

theorem parseNumber_numberText (negative : Bool) (magnitude : Magnitude) {rest : JsString}
    (ends : NumberEnds rest) :
    parseNumber (numberText (.finite negative magnitude) ++ rest) =
      some (JsNumber.written negative magnitude, rest) := by
  by_cases none : magnitude.units = 0
  · have text : numberText (.finite negative magnitude) = [0x30] := by
      simp [numberText, magnitudeText, none]
    have reads : parseUnsigned false (0x30 :: rest) = some (.finite false .zero, rest) := by
      refine parseUnsigned_of_parts (parseWhole_zero ends.noDigit)
        (parseFraction_none ends.noPoint) (parseExponent_none ends.noExponent) ?_
      have zero : digitsValue ([0] ++ []) = 0 := rfl
      rw [zero]
      exact ofDecimal_zero _
    rw [text, List.singleton_append, parseNumber_of_parseUnsigned reads, JsNumber.written,
      ← magnitude_zero none]
    simp [none]
  · cases negative with
    | true =>
        have text : numberText (.finite true magnitude) = 0x2D :: magnitudeText magnitude := by
          simp [numberText, none]
        rw [text, List.cons_append]
        simp only [parseNumber, parseUnsigned_magnitudeText true none ends, JsNumber.written]
        simp [none]
    | false =>
        have text : numberText (.finite false magnitude) = magnitudeText magnitude := by
          simp [numberText]
        rw [text, parseNumber_of_parseUnsigned (parseUnsigned_magnitudeText false none ends)]
        rfl

/-- A number starts with a minus sign or a digit. -/
theorem parseNumber_head {text : JsString} {result : JsNumber × JsString}
    (read : parseNumber text = some result) :
    ∃ unit after, text = unit :: after ∧ (unit = 0x2D ∨ isDigit unit = true) := by
  cases text with
  | nil => cases read
  | cons unit after =>
      refine ⟨unit, after, rfl, ?_⟩
      by_contra neither
      obtain ⟨minus, digit⟩ := not_or.mp neither
      have none : parseWhole (unit :: after) = none := by simp [parseWhole, takeDigits, digit]
      simp [parseNumber, minus, parseUnsigned, none] at read

theorem numberText_head (negative : Bool) (magnitude : Magnitude) :
    ∃ unit after, numberText (.finite negative magnitude) = unit :: after ∧
      (unit = 0x2D ∨ isDigit unit = true) := by
  have ends : NumberEnds [] := by simp [NumberEnds]
  have read := parseNumber_numberText negative magnitude ends
  rw [List.append_nil] at read
  exact parseNumber_head read

end Tapes.Js
