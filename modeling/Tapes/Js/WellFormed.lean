import Tapes.Js.Date
import Tapes.Js.JsonText
import Tapes.Js.Utf8

namespace Tapes.Js

/-! Which written texts have no lone surrogate. -/

instance (text : JsString) : Decidable (Ascii text) :=
  List.decidableBAll (fun unit => unit < 0x80) text

theorem wellFormed_cons {unit : UInt16} (high : isHighSurrogate unit = false)
    (low : isLowSurrogate unit = false) (rest : JsString) :
    wellFormed (unit :: rest) = wellFormed rest := by
  cases rest <;> simp [wellFormed, high, low]

theorem wellFormed_append {left right : JsString} (first : wellFormed left = true)
    (second : wellFormed right = true) : wellFormed (left ++ right) = true := by
  induction left using wellFormed.induct with
  | case1 => exact second
  | case2 unit =>
      rw [wellFormed, Bool.and_eq_true, Bool.not_eq_true', Bool.not_eq_true'] at first
      rwa [List.singleton_append, wellFormed_cons first.1 first.2]
  | case3 unit next rest high induction =>
      rw [wellFormed, if_pos high, Bool.and_eq_true] at first
      rw [List.cons_append, List.cons_append, wellFormed, if_pos high, Bool.and_eq_true]
      exact ⟨first.1, induction first.2⟩
  | case4 unit next rest high induction =>
      rw [wellFormed, if_neg high, Bool.and_eq_true, Bool.not_eq_true'] at first
      rw [List.cons_append, wellFormed_cons (Bool.not_eq_true _ ▸ high) first.1]
      exact induction first.2

theorem not_surrogate_of_lt {unit : UInt16} (small : unit < 0x80) :
    isHighSurrogate unit = false ∧ isLowSurrogate unit = false := by
  have below := UInt16.lt_iff_toNat_lt.mp small
  have bound : (0x80 : UInt16).toNat = 0x80 := rfl
  rw [← Bool.not_eq_true, ← Bool.not_eq_true, isHighSurrogate_iff, isLowSurrogate_iff]
  omega

theorem Ascii.wellFormed {text : JsString} (ascii : Ascii text) : wellFormed text = true := by
  induction text with
  | nil => rfl
  | cons unit rest induction =>
      obtain ⟨small, others⟩ := List.forall_mem_cons.mp ascii
      obtain ⟨high, low⟩ := not_surrogate_of_lt small
      rw [wellFormed_cons high low]
      exact induction others

/-! ## Strings -/

theorem ascii_hexDigit {value : Nat} (small : value < 16) : hexDigit value < 0x80 := by
  interval_cases value <;> decide

theorem ascii_unicodeEscape (unit : UInt16) : Ascii (unicodeEscape unit) := by
  have bound := unit.toNat_lt
  have digit : ∀ value : Nat, value < 16 → Ascii [hexDigit value] :=
    fun value small => ascii_singleton (ascii_hexDigit small)
  have start : Ascii [0x5C, 0x75] := by decide
  exact ((((start.append (digit (unit.toNat / 0x1000) (by omega))).append
    (digit (unit.toNat / 0x100 % 0x10) (by omega))).append
    (digit (unit.toNat / 0x10 % 0x10) (by omega))).append (digit (unit.toNat % 0x10) (by omega)))

theorem wellFormed_quoteUnit {unit : UInt16} (high : isHighSurrogate unit = false)
    (low : isLowSurrogate unit = false) : wellFormed (quoteUnit unit) = true := by
  unfold quoteUnit
  split_ifs
  all_goals first
    | rfl
    | exact (ascii_unicodeEscape unit).wellFormed
    | rw [wellFormed_cons high low]; rfl

theorem wellFormed_quoteUnits {text : JsString} (valid : wellFormed text = true) :
    wellFormed (quoteUnits text) = true := by
  induction text using quoteUnits.induct with
  | case1 => rfl
  | case2 unit =>
      rw [wellFormed, Bool.and_eq_true, Bool.not_eq_true', Bool.not_eq_true'] at valid
      exact wellFormed_quoteUnit valid.1 valid.2
  | case3 unit next rest pair induction =>
      obtain ⟨high, low⟩ := Bool.and_eq_true _ _ ▸ pair
      rw [wellFormed, if_pos high, Bool.and_eq_true] at valid
      rw [quoteUnits, if_pos pair, wellFormed, if_pos high, Bool.and_eq_true]
      exact ⟨low, induction valid.2⟩
  | case4 unit next rest pair induction =>
      rw [quoteUnits, if_neg pair]
      cases high : isHighSurrogate unit with
      | true =>
          rw [wellFormed, if_pos high, Bool.and_eq_true] at valid
          exact absurd (Bool.and_eq_true _ _ ▸ ⟨high, valid.1⟩) pair
      | false =>
          rw [wellFormed, if_neg (by simp [high]), Bool.and_eq_true, Bool.not_eq_true'] at valid
          exact wellFormed_append (wellFormed_quoteUnit high valid.1) (induction valid.2)

theorem wellFormed_quote {text : JsString} (valid : wellFormed text = true) :
    wellFormed (quote text) = true :=
  wellFormed_append (wellFormed_append rfl (wellFormed_quoteUnits valid)) rfl

/-! ## Numbers -/

theorem ascii_layout {digits : List Nat} (small : IsDigits digits) (exponent : Int) :
    Ascii (layout digits exponent) := by
  have point : Ascii [0x2E] := by decide
  have front : Ascii [0x30, 0x2E] := by decide
  have sign : ∀ positive : Prop, [Decidable positive] →
      Ascii [0x65, if positive then 0x2B else 0x2D] := by
    intro positive decides
    split <;> decide
  have fraction : Ascii (if digits.length = 1 then [] else [0x2E] ++ digitText (digits.drop 1)) := by
    split
    · decide
    · exact point.append (ascii_digitText (small.drop 1))
  unfold layout
  dsimp only
  split
  · exact ascii_digitText (small.append (isDigits_zeros _))
  · split
    · exact ((ascii_digitText (small.take _)).append point).append (ascii_digitText (small.drop _))
    · split
      · exact front.append (ascii_digitText ((isDigits_zeros _).append small))
      · exact (((ascii_digitText (small.take 1)).append fraction).append (sign _)).append
          (ascii_digitText (isDigits_decimalDigits _))

theorem ascii_magnitudeText (magnitude : Magnitude) : Ascii (magnitudeText magnitude) := by
  by_cases zero : magnitude.units = 0
  · rw [magnitudeText, if_pos zero]
    decide
  · rw [magnitudeText_eq zero]
    exact ascii_layout (isDigits_decimalDigits _) _

theorem ascii_numberText (negative : Bool) (magnitude : Magnitude) :
    Ascii (numberText (.finite negative magnitude)) := by
  refine Ascii.append ?_ (ascii_magnitudeText magnitude)
  split <;> decide

end Tapes.Js
