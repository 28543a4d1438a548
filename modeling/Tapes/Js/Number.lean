import Mathlib.Data.Nat.Log
import Mathlib.Data.Nat.Digits.Defs
import Mathlib.Tactic.Ring
import Tapes.Js.Text

namespace Tapes.Js

/-! IEEE 754 binary64 values, and the text ECMAScript reads and writes for them.

A finite magnitude is a whole number of units of `2 ^ -1074`, kept in the one
normalized form `mantissa * 2 ^ scale`.  Rounding, parsing and printing then
need natural numbers only.
-/

/-- The magnitude of a finite binary64 value, in units of `2 ^ -1074`. -/
structure Magnitude where
  mantissa : Nat
  scale : Nat
  mantissa_lt : mantissa < 2 ^ 53
  scale_le : scale ≤ 2045
  normal : scale = 0 ∨ 2 ^ 52 ≤ mantissa
deriving DecidableEq

namespace Magnitude

def units (magnitude : Magnitude) : Nat := magnitude.mantissa * 2 ^ magnitude.scale

def zero : Magnitude := ⟨0, 0, by decide, by decide, .inl rfl⟩

def one : Magnitude := ⟨2 ^ 52, 1022, by decide, by decide, .inr (le_refl _)⟩

end Magnitude

/-- A Number value. -/
inductive JsNumber where
  | nan
  | infinite (negative : Bool)
  | finite (negative : Bool) (magnitude : Magnitude)
deriving DecidableEq

/-- The `===` operator: NaN equals nothing and the two zeros are equal. -/
def JsNumber.strictEquals : JsNumber → JsNumber → Bool
  | .finite negative magnitude, .finite negative' magnitude' =>
      magnitude = magnitude' && (negative = negative' || magnitude.units = 0)
  | .infinite negative, .infinite negative' => negative = negative'
  | _, _ => false

/-- The quotient rounded to nearest, ties to even. -/
def roundQuotient (numerator denominator : Nat) : Nat :=
  let quotient := numerator / denominator
  let twice := 2 * (numerator % denominator)
  if twice < denominator then quotient
  else if denominator < twice then quotient + 1
  else if quotient % 2 = 0 then quotient
  else quotient + 1

theorem le_roundQuotient (numerator denominator : Nat) :
    numerator / denominator ≤ roundQuotient numerator denominator := by
  unfold roundQuotient
  dsimp only
  split_ifs <;> omega

theorem roundQuotient_exact (quotient : Nat) {denominator : Nat} (positive : 0 < denominator) :
    roundQuotient (quotient * denominator) denominator = quotient := by
  simp [roundQuotient, Nat.mul_div_cancel _ positive, positive]

/-- The scale that leaves at most 53 bits of `units`. -/
def scaleFor (units : Nat) : Nat := Nat.log2 units - 52

theorem scaleFor_normal {numerator denominator : Nat}
    (positive : scaleFor (numerator / denominator) ≠ 0) :
    2 ^ 52 ≤ roundQuotient numerator
      (denominator * 2 ^ scaleFor (numerator / denominator)) := by
  refine le_trans ?_ (le_roundQuotient _ _)
  rw [← Nat.div_div_eq_div_mul]
  generalize numerator / denominator = units at *
  have large : 52 < Nat.log2 units := by unfold scaleFor at positive; omega
  have nonzero : units ≠ 0 := by rintro rfl; simp at large
  rw [Nat.le_div_iff_mul_le (Nat.two_pow_pos _), ← pow_add]
  have split : 52 + scaleFor units = Nat.log2 units := by unfold scaleFor; omega
  rw [split]
  exact Nat.log2_self_le nonzero

/-- The nearest magnitude to `numerator / denominator` units, or none when it
rounds past the largest finite one. -/
def ofUnits (numerator denominator : Nat) : Option Magnitude :=
  let scale := scaleFor (numerator / denominator)
  let mantissa := roundQuotient numerator (denominator * 2 ^ scale)
  if small : mantissa < 2 ^ 53 then
    if fits : scale ≤ 2045 then
      some ⟨mantissa, scale, small, fits, by
        by_cases none : scale = 0
        · exact .inl none
        · exact .inr (scaleFor_normal none)⟩
    else none
  else if fits : scale + 1 ≤ 2045 then
    some ⟨2 ^ 52, scale + 1, by decide, fits, .inr (le_refl _)⟩
  else none

theorem scaleFor_units (magnitude : Magnitude) :
    scaleFor magnitude.units = magnitude.scale := by
  obtain ⟨mantissa, scale, small, fits, normal⟩ := magnitude
  simp only [Magnitude.units, scaleFor]
  rcases normal with rfl | large
  · by_cases zero : mantissa = 0
    · simp [zero]
    · have := (Nat.log2_lt zero).mpr small
      simp only [pow_zero, mul_one]
      omega
  · have nonzero : mantissa * 2 ^ scale ≠ 0 :=
      Nat.mul_ne_zero (by omega) (Nat.two_pow_pos scale).ne'
    have lower : 52 + scale ≤ Nat.log2 (mantissa * 2 ^ scale) := by
      rw [Nat.le_log2 nonzero, pow_add]
      exact Nat.mul_le_mul_right _ large
    have upper : Nat.log2 (mantissa * 2 ^ scale) < 53 + scale := by
      rw [Nat.log2_lt nonzero, pow_add]
      exact Nat.mul_lt_mul_of_pos_right small (Nat.two_pow_pos scale)
    omega

/-- A magnitude is the nearest one to itself, however its ratio is written. -/
theorem ofUnits_exact (magnitude : Magnitude) {denominator : Nat} (positive : 0 < denominator) :
    ofUnits (magnitude.units * denominator) denominator = some magnitude := by
  have scale : scaleFor (magnitude.units * denominator / denominator) = magnitude.scale := by
    rw [Nat.mul_div_cancel _ positive, scaleFor_units]
  have mantissa : roundQuotient (magnitude.units * denominator)
      (denominator * 2 ^ magnitude.scale) = magnitude.mantissa := by
    have regroup : magnitude.units * denominator =
        magnitude.mantissa * (denominator * 2 ^ magnitude.scale) := by
      unfold Magnitude.units; ring
    rw [regroup, roundQuotient_exact _ (by positivity)]
  simp only [ofUnits, scale, mantissa, magnitude.mantissa_lt, magnitude.scale_le, dite_true]

/-- The Number nearest to `digits * 10 ^ exponent`. -/
def ofDecimal (digits : Nat) (exponent : Int) : Option Magnitude :=
  if 0 ≤ exponent then ofUnits (digits * 10 ^ exponent.toNat * 2 ^ 1074) 1
  else ofUnits (digits * 2 ^ 1074) (10 ^ (-exponent).toNat)

/-! ## Number::toString -/

/-- The multiple of `10 ^ exponent` that reads back as the magnitude, the
closest where two do. -/
def decimalAt (magnitude : Magnitude) (exponent : Int) : Option Nat :=
  let numerator :=
    if 0 ≤ exponent then magnitude.units else magnitude.units * 10 ^ (-exponent).toNat
  let denominator :=
    if 0 ≤ exponent then 2 ^ 1074 * 10 ^ exponent.toNat else 2 ^ 1074
  let closest := roundQuotient numerator denominator
  let low := numerator / denominator
  if ofDecimal closest exponent = some magnitude then some closest
  else if ofDecimal low exponent = some magnitude then some low
  else if ofDecimal (low + 1) exponent = some magnitude then some (low + 1)
  else none

/-- Number::toString asks for as few digits as possible, that is for the
largest power of ten of which a multiple still reads back as the value. -/
def shortestFrom (magnitude : Magnitude) : Nat → Int → Nat × Int
  | 0, exponent => (0, exponent)
  | fuel + 1, exponent =>
      match decimalAt magnitude exponent with
      | some digits => (digits, exponent)
      | none => shortestFrom magnitude fuel (exponent - 1)

/-- The decimal digits of a natural number, most significant first. -/
def decimalDigits (value : Nat) : List Nat := go (value + 1) value []
where
  go : Nat → Nat → List Nat → List Nat
    | 0, _, digits => digits
    | fuel + 1, value, digits =>
        if value < 10 then value :: digits
        else go fuel (value / 10) (value % 10 :: digits)

def shortest (magnitude : Magnitude) : Nat × Int :=
  let start := (decimalDigits (magnitude.units / 2 ^ 1074)).length
  shortestFrom magnitude (start + 1075) start

def digitUnit (digit : Nat) : UInt16 := (0x30 + digit).toUInt16

def digitText (digits : List Nat) : JsString := digits.map digitUnit

/-- The layout Number::toString gives the digits of `digits * 10 ^ exponent`. -/
def layout (digits : List Nat) (exponent : Int) : JsString :=
  let n : Int := exponent + digits.length
  if 0 ≤ exponent ∧ n ≤ 21 then
    digitText (digits ++ List.replicate exponent.toNat 0)
  else if 0 < n ∧ n ≤ 21 then
    digitText (digits.take n.toNat) ++ [0x2E] ++ digitText (digits.drop n.toNat)
  else if -6 < n ∧ n ≤ 0 then
    [0x30, 0x2E] ++ digitText (List.replicate (-n).toNat 0 ++ digits)
  else
    let sign : UInt16 := if 0 ≤ n - 1 then 0x2B else 0x2D
    digitText (digits.take 1) ++
      (if digits.length = 1 then [] else [0x2E] ++ digitText (digits.drop 1)) ++
      [0x65, sign] ++ digitText (decimalDigits (n - 1).natAbs)

def magnitudeText (magnitude : Magnitude) : JsString :=
  if magnitude.units = 0 then [0x30]
  else
    let (digits, exponent) := shortest magnitude
    layout (decimalDigits digits) exponent

/-- Number::toString.  Both zeros print as `0`. -/
def numberText : JsNumber → JsString
  | .nan => js "NaN"
  | .infinite negative => (if negative then [0x2D] else []) ++ js "Infinity"
  | .finite negative magnitude =>
      (if negative && magnitude.units ≠ 0 then [0x2D] else []) ++ magnitudeText magnitude

/-! ## The JSON number grammar -/

def isDigit (unit : UInt16) : Bool := decide (0x30 ≤ unit) && decide (unit ≤ 0x39)

def digitValue (unit : UInt16) : Nat := unit.toNat - 0x30

def digitsValue (digits : List Nat) : Nat :=
  digits.foldl (fun value digit => value * 10 + digit) 0

/-- The longest run of digits at the front. -/
def takeDigits : JsString → List Nat × JsString
  | [] => ([], [])
  | unit :: rest =>
      if isDigit unit then
        let (digits, rest) := takeDigits rest
        (digitValue unit :: digits, rest)
      else ([], unit :: rest)

/-- An optional fraction: the digits after the point. -/
def parseFraction : JsString → Option (List Nat × JsString)
  | 0x2E :: rest =>
      let (digits, rest) := takeDigits rest
      if digits = [] then none else some (digits, rest)
  | text => some ([], text)

def parseExponentDigits (negative : Bool) (text : JsString) : Option (Int × JsString) :=
  let (digits, rest) := takeDigits text
  if digits = [] then none
  else some (if negative then -(digitsValue digits : Int) else digitsValue digits, rest)

/-- An optional exponent. -/
def parseExponent : JsString → Option (Int × JsString)
  | [] => some (0, [])
  | unit :: rest =>
      if unit = 0x65 || unit = 0x45 then
        match rest with
        | 0x2B :: rest => parseExponentDigits false rest
        | 0x2D :: rest => parseExponentDigits true rest
        | rest => parseExponentDigits false rest
      else some (0, unit :: rest)

/-- The whole part: one zero, or digits that do not start with one. -/
def parseWhole (text : JsString) : Option (List Nat × JsString) :=
  match takeDigits text with
  | ([], _) => none
  | (0 :: digits, rest) => some ([0], digitText digits ++ rest)
  | (digits, rest) => some (digits, rest)

/-- A number from the front of a JSON text.  Its value is rounded to nearest. -/
def parseUnsigned (negative : Bool) (text : JsString) : Option (JsNumber × JsString) := do
  let (whole, text) ← parseWhole text
  let (fraction, text) ← parseFraction text
  let (exponent, text) ← parseExponent text
  let number :=
    match ofDecimal (digitsValue (whole ++ fraction)) (exponent - fraction.length) with
    | some magnitude => .finite negative magnitude
    | none => .infinite negative
  return (number, text)

def parseNumber : JsString → Option (JsNumber × JsString)
  | 0x2D :: rest => parseUnsigned true rest
  | text => parseUnsigned false text

end Tapes.Js
