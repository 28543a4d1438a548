import Tapes.Js.NumberText

namespace Tapes.Js

/-! Whole Numbers: which natural numbers a Number holds, and what reading, comparing and subtracting
them gives where the exact result is none. -/

/-! ## Rounding -/

theorem roundQuotient_mono {denominator : Nat} {less more : Nat} (below : less ≤ more) :
    roundQuotient less denominator ≤ roundQuotient more denominator := by
  obtain rfl | positive := Nat.eq_zero_or_pos denominator
  · simp only [roundQuotient, Nat.div_zero, Nat.mod_zero]
    split_ifs <;> omega
  have quotients : less / denominator ≤ more / denominator := Nat.div_le_div_right below
  have first := Nat.div_add_mod less denominator
  have second := Nat.div_add_mod more denominator
  have small := Nat.mod_lt more positive
  by_cases same : less / denominator = more / denominator
  · have remainders : less % denominator ≤ more % denominator := by
      rw [same] at first
      omega
    simp only [roundQuotient, same]
    split_ifs <;> omega
  · have upper : roundQuotient less denominator ≤ less / denominator + 1 := by
      simp only [roundQuotient]
      split_ifs <;> omega
    have lower := le_roundQuotient more denominator
    omega

/-- The units of the nearest magnitude, the largest one being no limit. -/
def roundUnits (units : Nat) : Nat :=
  roundQuotient units (2 ^ scaleFor units) * 2 ^ scaleFor units

theorem roundUnits_small {units : Nat} (small : scaleFor units = 0) : roundUnits units = units := by
  have exactly := roundQuotient_exact units Nat.one_pos
  rw [Nat.mul_one] at exactly
  rw [roundUnits, small, Nat.pow_zero, exactly, Nat.mul_one]

theorem log2_of_scaleFor {units : Nat} (large : scaleFor units ≠ 0) :
    Nat.log2 units = 52 + scaleFor units := by
  unfold scaleFor at large ⊢
  omega

theorem roundUnits_bounds {units : Nat} (large : scaleFor units ≠ 0) :
    2 ^ (52 + scaleFor units) ≤ roundUnits units ∧ roundUnits units ≤ 2 ^ (53 + scaleFor units) := by
  have log := log2_of_scaleFor large
  have positive := Nat.two_pow_pos (scaleFor units)
  have nonzero : units ≠ 0 := by
    intro zero
    rw [zero] at large
    exact large rfl
  constructor
  · rw [roundUnits, pow_add]
    refine Nat.mul_le_mul_right _ ((Nat.le_div_iff_mul_le positive).mpr ?_ |>.trans
      (le_roundQuotient _ _))
    rw [← pow_add, ← log]
    exact Nat.log2_self_le nonzero
  · rw [roundUnits, pow_add]
    refine Nat.mul_le_mul_right _ ?_
    have below : units < 2 ^ 53 * 2 ^ scaleFor units := by
      have above := (Nat.log2_lt nonzero).mp (Nat.lt_succ_self units.log2)
      have exponent : units.log2.succ = 53 + scaleFor units := by omega
      rwa [exponent, pow_add] at above
    have rounded := @roundQuotient_mono (2 ^ scaleFor units) _ _ (Nat.le_of_lt below)
    rwa [roundQuotient_exact _ positive] at rounded

theorem roundUnits_mono {less more : Nat} (below : less ≤ more) :
    roundUnits less ≤ roundUnits more := by
  obtain rfl | positive := Nat.eq_zero_or_pos less
  · rw [roundUnits_small rfl]
    exact Nat.zero_le _
  have logs : Nat.log2 less ≤ Nat.log2 more :=
    (Nat.le_log2 (by omega)).mpr ((Nat.log2_self_le (by omega)).trans below)
  by_cases same : scaleFor less = scaleFor more
  · rw [roundUnits, roundUnits, same]
    exact Nat.mul_le_mul_right _ (roundQuotient_mono below)
  have larger : scaleFor less < scaleFor more := by
    unfold scaleFor at same ⊢
    omega
  have lower := (@roundUnits_bounds more (by omega)).1
  by_cases small : scaleFor less = 0
  · rw [roundUnits_small small]
    have short : less < 2 ^ 53 := (Nat.log2_lt (by omega)).mp (by unfold scaleFor at small; omega)
    have power : 2 ^ 53 ≤ 2 ^ (52 + scaleFor more) := Nat.pow_le_pow_right Nat.two_pos (by omega)
    omega
  · have upper := (roundUnits_bounds small).2
    have power : 2 ^ (53 + scaleFor less) ≤ 2 ^ (52 + scaleFor more) :=
      Nat.pow_le_pow_right Nat.two_pos (by omega)
    omega

theorem roundUnits_multiple {units scale : Nat} (enough : scaleFor units ≤ scale)
    (multiple : 2 ^ scale ∣ units) : roundUnits units = units := by
  have divides : 2 ^ scaleFor units ∣ units := (Nat.pow_dvd_pow 2 enough).trans multiple
  have exactly := roundQuotient_exact (units / 2 ^ scaleFor units) (Nat.two_pow_pos (scaleFor units))
  rw [Nat.div_mul_cancel divides] at exactly
  rw [roundUnits, exactly, Nat.div_mul_cancel divides]

theorem Magnitude.units_lt (magnitude : Magnitude) {largest : Nat} (top : 2045 ≤ largest) :
    magnitude.units < 2 ^ (53 + largest) := by
  have scale := magnitude.scale_le.trans top
  rw [Magnitude.units, pow_add]
  exact Nat.mul_lt_mul_of_lt_of_le magnitude.mantissa_lt (Nat.pow_le_pow_right Nat.two_pos scale)
    (Nat.two_pow_pos _)

/-- The nearest magnitude is the rounded one, while there is a magnitude so large. -/
theorem ofUnits_one (units : Nat) :
    (ofUnits units 1 = none ∧ ∀ magnitude : Magnitude, magnitude.units < roundUnits units) ∨
      ∃ magnitude, ofUnits units 1 = some magnitude ∧ magnitude.units = roundUnits units := by
  have bounds := @roundUnits_bounds units
  have beyond {largest : Nat} (top : 2045 ≤ largest) (large : 2 ^ (53 + largest) ≤ roundUnits units)
      (magnitude : Magnitude) : magnitude.units < roundUnits units :=
    lt_of_lt_of_le (magnitude.units_lt top) large
  simp only [ofUnits, Nat.div_one, Nat.one_mul]
  by_cases small : roundQuotient units (2 ^ scaleFor units) < 2 ^ 53
  · rw [dif_pos small]
    by_cases fits : scaleFor units ≤ 2045
    · rw [dif_pos fits]
      exact .inr ⟨_, rfl, rfl⟩
    · rw [dif_neg fits]
      have large := (bounds (by omega)).1
      have above : 52 + scaleFor units = 53 + (scaleFor units - 1) := by omega
      rw [above] at large
      exact .inl ⟨rfl, beyond (by omega) large⟩
  · have full : roundQuotient units (2 ^ scaleFor units) = 2 ^ 53 := by
      by_cases zero : scaleFor units = 0
      · have exactly := roundUnits_small zero
        rw [roundUnits, zero, Nat.pow_zero, Nat.mul_one] at exactly
        have short : units < 2 ^ 53 := by
          obtain rfl | positive := Nat.eq_zero_or_pos units
          · decide
          · exact (Nat.log2_lt (by omega)).mp (by unfold scaleFor at zero; omega)
        rw [zero, Nat.pow_zero, exactly] at small
        omega
      · have upper := (bounds zero).2
        rw [roundUnits, pow_add] at upper
        exact le_antisymm (Nat.le_of_mul_le_mul_right upper (Nat.two_pow_pos _)) (not_lt.mp small)
    rw [dif_neg small]
    by_cases fits : scaleFor units + 1 ≤ 2045
    · rw [dif_pos fits]
      refine .inr ⟨_, rfl, ?_⟩
      rw [Magnitude.units, roundUnits, full, pow_succ' 2 (scaleFor units), ← mul_assoc, ← pow_succ]
    · rw [dif_neg fits]
      refine .inl ⟨rfl, beyond (Nat.le_of_lt_succ (not_le.mp fits)) ?_⟩
      rw [roundUnits, full, ← pow_add]

/-! ## Reading and comparing -/

/-- `Number` of the decimal digits of a natural number. -/
def toNumber (value : Nat) : JsNumber := (ofDecimal value 0).elim (.infinite false) (.finite false)

/-- The number is exactly the natural one. -/
def JsNumber.Is (number : JsNumber) (value : Nat) : Prop :=
  ∃ magnitude, number = .finite false magnitude ∧ magnitude.units = value * 2 ^ 1074

/-- A finite value in units, with its sign. -/
def signed (negative : Bool) (magnitude : Magnitude) : Int :=
  if negative then -magnitude.units else magnitude.units

/-- The operator `<`. -/
def JsNumber.lessThan : JsNumber → JsNumber → Bool
  | .finite negative magnitude, .finite negative' magnitude' =>
      signed negative magnitude < signed negative' magnitude'
  | .finite _ _, .infinite negative => !negative
  | .infinite negative, .finite _ _ => negative
  | .infinite negative, .infinite negative' => negative && !negative'
  | _, _ => false

def JsNumber.neg : JsNumber → JsNumber
  | .nan => .nan
  | .infinite negative => .infinite !negative
  | .finite negative magnitude => .finite (!negative) magnitude

/-- The operator `-`. A difference of no units is a negative zero only for `-0 - 0`. -/
def JsNumber.minus : JsNumber → JsNumber → JsNumber
  | .finite negative magnitude, .finite negative' magnitude' =>
      let units := signed negative magnitude - signed negative' magnitude'
      if units = 0 then .finite (negative && !negative') .zero
      else (ofUnits units.natAbs 1).elim (.infinite (units < 0)) (.finite (units < 0))
  | .finite _ _, .infinite negative => .infinite !negative
  | .infinite negative, .finite _ _ => .infinite negative
  | .infinite negative, .infinite negative' =>
      if negative = negative' then .nan else .infinite negative
  | _, _ => .nan

/-- The operator `+`. -/
def JsNumber.plus (left right : JsNumber) : JsNumber := left.minus right.neg

/-- `Math.max`, neither argument being a negative zero. -/
def JsNumber.max (left right : JsNumber) : JsNumber :=
  if left = .nan ∨ right = .nan then .nan else if left.lessThan right then right else left

/-- `Math.min`, neither argument being a negative zero. -/
def JsNumber.min (left right : JsNumber) : JsNumber :=
  if left = .nan ∨ right = .nan then .nan else if right.lessThan left then right else left

section

variable {number other : JsNumber} {value less more : Nat}

theorem toNumber_eq (value : Nat) :
    toNumber value = (ofUnits (value * 2 ^ 1074) 1).elim (.infinite false) (.finite false) := by
  have none : value * 10 ^ (0 : Int).toNat = value := by
    rw [Int.toNat_zero, Nat.pow_zero, Nat.mul_one]
  rw [toNumber, ofDecimal, if_pos (le_refl _), none]

theorem roundUnits_of_le (exponent : Nat) (small : value ≤ 2 ^ 53) :
    roundUnits (value * 2 ^ exponent) = value * 2 ^ exponent := by
  obtain rfl | positive := Nat.eq_zero_or_pos value
  · rw [Nat.zero_mul]
    exact roundUnits_small rfl
  have nonzero : value * 2 ^ exponent ≠ 0 :=
    Nat.mul_ne_zero (by omega) (Nat.two_pow_pos exponent).ne'
  obtain below | rfl := Nat.lt_or_eq_of_le small
  · have short : value * 2 ^ exponent < 2 ^ (53 + exponent) := by
      rw [pow_add]
      exact Nat.mul_lt_mul_of_pos_right below (Nat.two_pow_pos exponent)
    have log := (Nat.log2_lt nonzero).mpr short
    have enough : scaleFor (value * 2 ^ exponent) ≤ exponent := by
      unfold scaleFor
      omega
    exact roundUnits_multiple enough (Nat.dvd_mul_left _ _)
  · have power : 2 ^ 53 * 2 ^ exponent = 2 ^ 52 * 2 ^ (exponent + 1) := by
      rw [← pow_add, ← pow_add]
      congr 1
      omega
    have short : 2 ^ 53 * 2 ^ exponent < 2 ^ (54 + exponent) := by
      rw [← pow_add]
      exact Nat.pow_lt_pow_right Nat.one_lt_two (by omega)
    have log := (Nat.log2_lt nonzero).mpr short
    rw [power] at log ⊢
    have enough : scaleFor (2 ^ 52 * 2 ^ (exponent + 1)) ≤ exponent + 1 := by
      unfold scaleFor
      omega
    exact roundUnits_multiple enough (Nat.dvd_mul_left _ _)

/-- A finite Number's units are those of the natural number, rounded. -/
theorem toNumber_cases (value : Nat) :
    (toNumber value = .infinite false ∧
        ∀ magnitude : Magnitude, magnitude.units < roundUnits (value * 2 ^ 1074)) ∨
      ∃ magnitude, toNumber value = .finite false magnitude ∧
        magnitude.units = roundUnits (value * 2 ^ 1074) := by
  rw [toNumber_eq]
  obtain ⟨none, large⟩ | ⟨magnitude, found, units⟩ := ofUnits_one (value * 2 ^ 1074)
  · rw [none]
    exact .inl ⟨rfl, large⟩
  · rw [found]
    exact .inr ⟨magnitude, rfl, units⟩

theorem toNumber_ne_nan (value : Nat) : toNumber value ≠ .nan := by
  obtain ⟨infinite, -⟩ | ⟨magnitude, found, -⟩ := toNumber_cases value
  · simp [infinite]
  · simp [found]

theorem JsNumber.Is.toNumber_eq (exactly : number.Is value) : toNumber value = number := by
  obtain ⟨magnitude, rfl, units⟩ := exactly
  have found := ofUnits_exact magnitude Nat.one_pos
  rw [Nat.mul_one, units] at found
  rw [Js.toNumber_eq, found]
  rfl

theorem JsNumber.Is.unique (first : number.Is less) (second : number.Is more) : less = more := by
  obtain ⟨magnitude, rfl, units⟩ := first
  obtain ⟨_, same, also⟩ := second
  cases same
  rw [units] at also
  exact Nat.eq_of_mul_eq_mul_right (by positivity) also

theorem Magnitude.exists_ge {scale : Nat} (below : scale < 2045) :
    ∃ magnitude : Magnitude, 2 ^ 53 * 2 ^ scale ≤ magnitude.units := by
  refine ⟨⟨2 ^ 52, scale + 1, by decide, below, .inr (le_refl _)⟩, ?_⟩
  have twice := pow_succ 2 scale
  show 2 ^ 53 * 2 ^ scale ≤ 2 ^ 52 * 2 ^ (scale + 1)
  omega

theorem toNumber_is (small : value ≤ 2 ^ 53) : (toNumber value).Is value := by
  have exactly := @roundUnits_of_le value 1074 small
  obtain ⟨-, beyond⟩ | ⟨magnitude, found, units⟩ := toNumber_cases value
  · obtain ⟨large, enough⟩ := Magnitude.exists_ge (show 1074 < 2045 by decide)
    have less : value * 2 ^ 1074 ≤ 2 ^ 53 * 2 ^ 1074 := Nat.mul_le_mul_right _ small
    have largest := beyond large
    rw [exactly] at largest
    exact absurd (less.trans enough) (not_le.mpr largest)
  · exact ⟨magnitude, found, units.trans exactly⟩

theorem lessThan_toNumber (below : less ≤ more) :
    (toNumber more).lessThan (toNumber less) = false := by
  have rounded := roundUnits_mono (Nat.mul_le_mul_right (2 ^ 1074) below)
  obtain ⟨infinite, -⟩ | ⟨magnitude, found, units⟩ := toNumber_cases more
  · rw [infinite]
    obtain ⟨also, -⟩ | ⟨_, found, -⟩ := toNumber_cases less
    · rw [also]
      rfl
    · rw [found]
      rfl
  · obtain ⟨-, beyond⟩ | ⟨other, there, lower⟩ := toNumber_cases less
    · have above := beyond magnitude
      omega
    · rw [found, there, JsNumber.lessThan, signed, signed]
      simp only [Bool.false_eq_true, if_false, decide_eq_false_iff_not]
      omega

theorem toNumber_lessThan (below : less < more) (small : less < 2 ^ 53) :
    (toNumber less).lessThan (toNumber more) = true := by
  obtain ⟨magnitude, found, units⟩ := toNumber_is (Nat.le_of_lt small)
  rw [found]
  obtain ⟨infinite, -⟩ | ⟨other, there, rounded⟩ := toNumber_cases more
  · rw [infinite]
    rfl
  · have next := roundUnits_mono (Nat.mul_le_mul_right (2 ^ 1074) below)
    have exactly := @roundUnits_of_le (less + 1) 1074 small
    rw [Nat.succ_eq_add_one, exactly, ← rounded, Nat.add_mul, Nat.one_mul, ← units] at next
    have positive : 0 < 2 ^ 1074 := by positivity
    rw [there, JsNumber.lessThan, signed, signed]
    simp only [Bool.false_eq_true, if_false, decide_eq_true_eq, Int.ofNat_lt]
    exact lt_of_lt_of_le (Nat.lt_add_of_pos_right positive) next

theorem JsNumber.Is.lessThan (first : number.Is less) (second : other.Is more) :
    number.lessThan other = decide (less < more) := by
  obtain ⟨magnitude, rfl, units⟩ := first
  obtain ⟨magnitude', rfl, units'⟩ := second
  have positive : 0 < 2 ^ 1074 := by positivity
  rw [JsNumber.lessThan, signed, signed, units, units']
  simp only [Bool.false_eq_true, if_false, Int.ofNat_lt]
  exact decide_eq_decide.mpr (Nat.mul_lt_mul_right positive)

theorem JsNumber.Is.minus (first : number.Is more) (second : other.Is less) (below : less ≤ more) :
    number.minus other = toNumber (more - less) := by
  obtain ⟨magnitude, rfl, units⟩ := first
  obtain ⟨magnitude', rfl, units'⟩ := second
  generalize exponent : 1074 = scale at units units'
  have difference : signed false magnitude - signed false magnitude' =
      (((more - less) * 2 ^ scale : Nat) : Int) := by
    have less' := Nat.mul_le_mul_right (2 ^ scale) below
    rw [signed, signed, units, units', Nat.sub_mul]
    simp only [Bool.false_eq_true, if_false]
    omega
  rw [JsNumber.minus, difference, Js.toNumber_eq, exponent]
  by_cases same : more = less
  · subst same
    rw [Nat.sub_self, Nat.zero_mul]
    rfl
  · have notZero : (more - less) * 2 ^ scale ≠ 0 :=
      Nat.mul_ne_zero (by omega) (Nat.two_pow_pos scale).ne'
    have positive : ¬ (((more - less) * 2 ^ scale : Nat) : Int) < 0 := by omega
    rw [if_neg (by omega), Int.natAbs_natCast, decide_eq_false positive]

theorem toNumber_zero : toNumber 0 = .finite false .zero := by
  obtain ⟨magnitude, found, units⟩ := toNumber_is (Nat.zero_le (2 ^ 53))
  rw [Nat.zero_mul] at units
  rw [found, magnitude_zero units]

theorem zero_is : (JsNumber.finite false .zero).Is 0 := by
  rw [← toNumber_zero]
  exact toNumber_is (Nat.zero_le _)

theorem max_zero_of_negative (magnitude : Magnitude) :
    (toNumber 0).max (.finite true magnitude) = toNumber 0 := by
  have above : (JsNumber.finite false .zero).lessThan (.finite true magnitude) = false := by
    simp [JsNumber.lessThan, signed, Magnitude.units, Magnitude.zero]
  rw [toNumber_zero, JsNumber.max, if_neg (by simp), above, if_neg (by simp)]

theorem max_zero_toNumber (value : Nat) : (toNumber 0).max (toNumber value) = toNumber value := by
  rw [toNumber_zero]
  obtain ⟨infinite, -⟩ | ⟨magnitude, found, -⟩ := toNumber_cases value
  · rw [infinite]
    rfl
  · have zero : signed false .zero = 0 := by simp [signed, Magnitude.units, Magnitude.zero]
    rw [found, JsNumber.max, if_neg (by simp), JsNumber.lessThan, zero]
    by_cases notZero : magnitude.units = 0
    · rw [magnitude_zero notZero, zero]
      rfl
    · have positive : (0 : Int) < signed false magnitude := by
        simp only [signed, Bool.false_eq_true, if_false]
        omega
      rw [if_pos (decide_eq_true positive)]

/-- `Math.max(0, size - suffix)`: nothing less than zero comes out, however large the suffix. -/
theorem JsNumber.Is.max_minus (exactly : number.Is value) (small : value ≤ 2 ^ 53) (count : Nat) :
    (toNumber 0).max (number.minus (toNumber count)) = toNumber (value - count) := by
  by_cases inside : count ≤ value
  · rw [exactly.minus (toNumber_is (inside.trans small)) inside, max_zero_toNumber]
  have none : value - count = 0 := by omega
  rw [none]
  obtain ⟨magnitude, rfl, units⟩ := exactly
  obtain ⟨infinite, -⟩ | ⟨suffix, found, rounded⟩ := toNumber_cases count
  · rw [infinite, toNumber_zero]
    rfl
  have large : magnitude.units ≤ suffix.units := by
    have mono := roundUnits_mono (Nat.mul_le_mul_right (2 ^ 1074) (Nat.le_of_not_le inside))
    rw [roundUnits_of_le _ small] at mono
    rwa [units, rounded]
  have sign : signed false magnitude - signed false suffix ≤ 0 := by
    simp only [signed, Bool.false_eq_true, if_false]
    omega
  rw [found, JsNumber.minus]
  by_cases same : signed false magnitude - signed false suffix = 0
  · rw [same, if_pos rfl]
    have zero := max_zero_toNumber 0
    rw [toNumber_zero] at zero ⊢
    exact zero
  · have negative : signed false magnitude - signed false suffix < 0 := by omega
    rw [if_neg same, decide_eq_true negative]
    cases ofUnits (signed false magnitude - signed false suffix).natAbs 1 with
    | none =>
        rw [toNumber_zero]
        rfl
    | some difference => exact max_zero_of_negative difference

theorem JsNumber.Is.plus_one (exactly : number.Is value) :
    number.plus (toNumber 1) = toNumber (value + 1) := by
  obtain ⟨magnitude, rfl, units⟩ := exactly
  obtain ⟨one, found, unit⟩ := toNumber_is (show 1 ≤ 2 ^ 53 by decide)
  generalize exponent : 1074 = scale at units unit
  have sum : signed false magnitude - signed true one = (((value + 1) * 2 ^ scale : Nat) : Int) := by
    rw [signed, signed, units, unit, Nat.add_mul]
    simp only [Bool.false_eq_true, if_false, if_true]
    omega
  have notZero : (value + 1) * 2 ^ scale ≠ 0 :=
    Nat.mul_ne_zero (by omega) (Nat.two_pow_pos scale).ne'
  have positive : ¬ (((value + 1) * 2 ^ scale : Nat) : Int) < 0 := by omega
  rw [found, JsNumber.plus, JsNumber.neg, Bool.not_false, JsNumber.minus, sum, Js.toNumber_eq, exponent,
    if_neg (by omega), Int.natAbs_natCast, decide_eq_false positive]

/-- One more than a natural number is not zero, whatever the rounding makes of it. -/
theorem plus_one_cases (value : Nat) : (toNumber value).plus (toNumber 1) = .infinite false ∨
    ∃ magnitude, (toNumber value).plus (toNumber 1) = .finite false magnitude ∧
      magnitude.units ≠ 0 := by
  obtain ⟨one, found, unit⟩ := toNumber_is (show 1 ≤ 2 ^ 53 by decide)
  have notZero : one.units ≠ 0 := by
    rw [unit]
    positivity
  rw [found, JsNumber.plus, JsNumber.neg]
  obtain ⟨infinite, -⟩ | ⟨magnitude, there, -⟩ := toNumber_cases value
  · rw [infinite]
    exact .inl rfl
  have sum : signed false magnitude - signed (!false) one = ((magnitude.units + one.units : Nat) : Int) := by
    simp only [signed, Bool.not_false, Bool.false_eq_true, if_false, if_true]
    omega
  have positive : ¬ ((magnitude.units + one.units : Nat) : Int) < 0 := by omega
  rw [there, JsNumber.minus, sum, if_neg (by omega), Int.natAbs_natCast, decide_eq_false positive]
  obtain ⟨none, -⟩ | ⟨rounded, least, units⟩ := ofUnits_one (magnitude.units + one.units)
  · rw [none]
    exact .inl rfl
  · rw [least]
    refine .inr ⟨rounded, rfl, ?_⟩
    have more : roundUnits 1 ≤ roundUnits (magnitude.units + one.units) := roundUnits_mono (by omega)
    rw [roundUnits_small (show scaleFor 1 = 0 from rfl)] at more
    omega

theorem strictEquals_zero (value : Nat) :
    (toNumber value).strictEquals (toNumber 0) = decide (value = 0) := by
  rw [toNumber_zero]
  by_cases zero : value = 0
  · rw [zero, toNumber_zero]
    simp [JsNumber.strictEquals]
  rw [decide_eq_false zero]
  obtain ⟨infinite, -⟩ | ⟨magnitude, found, units⟩ := toNumber_cases value
  · rw [infinite]
    rfl
  · have more : roundUnits 1 ≤ roundUnits (value * 2 ^ 1074) :=
      roundUnits_mono (Nat.mul_pos (by omega) (by positivity))
    rw [roundUnits_small (show scaleFor 1 = 0 from rfl), ← units] at more
    have different : magnitude ≠ .zero := by
      intro same
      rw [same, Magnitude.units, Magnitude.zero, Nat.zero_mul] at more
      omega
    rw [found]
    simp [JsNumber.strictEquals, different]

theorem numberText_zero : numberText (toNumber 0) = [0x30] := by
  rw [toNumber_zero]
  simp [numberText, magnitudeText, Magnitude.units, Magnitude.zero]

/-- Only zero prints as a zero. -/
theorem numberText_ne_zero {magnitude : Magnitude} (notZero : magnitude.units ≠ 0) :
    numberText (.finite false magnitude) ≠ numberText (toNumber 0) := by
  intro same
  have ends : NumberEnds [] := by simp [NumberEnds]
  have read := parseNumber_numberText false magnitude ends
  have zero := parseNumber_numberText false .zero ends
  rw [← toNumber_zero, ← same, read, JsNumber.written, JsNumber.written, Option.some.injEq,
    Prod.mk.injEq, JsNumber.finite.injEq] at zero
  apply notZero
  rw [zero.1.2, Magnitude.units, Magnitude.zero, Nat.zero_mul]

end

end Tapes.Js
