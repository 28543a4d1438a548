import Tapes.Js.Text

namespace Tapes.Js

/-! The UTF-8 round trip of well-formed strings. -/

theorem toNat_toUInt8 {value : Nat} (small : value < 0x100) : value.toUInt8.toNat = value := by
  rw [Nat.toUInt8, UInt8.toNat_ofNat']
  omega

theorem lt_byte {value : Nat} {byte : UInt8} (small : value < 0x100) :
    value.toUInt8 < byte ↔ value < byte.toNat := by
  rw [UInt8.lt_iff_toNat_lt, toNat_toUInt8 small]

theorem byte_between {value : Nat} (low high : UInt8) (small : value < 0x100) :
    low ≤ value.toUInt8 ∧ value.toUInt8 ≤ high ↔ low.toNat ≤ value ∧ value ≤ high.toNat := by
  rw [UInt8.le_iff_toNat_le, UInt8.le_iff_toNat_le, toNat_toUInt8 small]

theorem isContinuation_byte {value : Nat} (small : value < 0x40) :
    isContinuation (0x80 + value).toUInt8 = true := by
  have between : (0x80 : UInt8) ≤ (0x80 + value).toUInt8 ∧ (0x80 + value).toUInt8 ≤ (0xBF : UInt8) := by
    rw [byte_between _ _ (by omega)]
    exact ⟨Nat.le_add_right _ _, Nat.add_le_add_left (Nat.le_of_lt_succ small) 0x80⟩
  rw [isContinuation, Bool.and_eq_true, decide_eq_true_eq, decide_eq_true_eq]
  exact between

def IsScalarValue (point : Nat) : Prop := point < 0x110000 ∧ ¬ (0xD800 ≤ point ∧ point ≤ 0xDFFF)

section

variable (a b c d : UInt8) (rest : Bytes)

theorem utf8DecodeStrict_one (ascii : a < 0x80) : utf8DecodeStrict (a :: rest) =
    (utf8DecodeStrict rest).map (pointUnits a.toNat ++ ·) := by
  rw [utf8DecodeStrict.eq_def]
  exact if_pos ascii

theorem utf8DecodeStrict_two (beyond : ¬ a < 0x80) (second : isContinuation b = true)
    (lead : 0xC2 ≤ a ∧ a ≤ 0xDF) : utf8DecodeStrict (a :: b :: rest) =
    (utf8DecodeStrict rest).map
      (pointUnits ((a.toNat - 0xC0) * 0x40 + (b.toNat - 0x80)) ++ ·) := by
  rw [utf8DecodeStrict.eq_def]
  simp [beyond, second, lead]

theorem utf8DecodeStrict_three (beyond : ¬ a < 0x80) (second : isContinuation b = true)
    (notTwo : ¬ (0xC2 ≤ a ∧ a ≤ 0xDF)) (third : isContinuation c = true)
    (lead : 0xE0 ≤ a ∧ a ≤ 0xEF) {point : Nat}
    (same : (a.toNat - 0xE0) * 0x1000 + (b.toNat - 0x80) * 0x40 + (c.toNat - 0x80) = point)
    (long : ¬ point < 0x800) (scalar : ¬ (0xD800 ≤ point ∧ point ≤ 0xDFFF)) :
    utf8DecodeStrict (a :: b :: c :: rest) =
      (utf8DecodeStrict rest).map (pointUnits point ++ ·) := by
  rw [utf8DecodeStrict.eq_def]
  have notTwo' : (decide (0xC2 ≤ a) && decide (a ≤ 0xDF)) = false := by simpa using notTwo
  have scalar' : (decide (0xD800 ≤ point) && decide (point ≤ 0xDFFF)) = false := by
    simpa using scalar
  simp [beyond, second, notTwo', third, lead, same, long, scalar']

theorem utf8DecodeStrict_four (beyond : ¬ a < 0x80) (second : isContinuation b = true)
    (notTwo : ¬ (0xC2 ≤ a ∧ a ≤ 0xDF)) (third : isContinuation c = true)
    (notThree : ¬ (0xE0 ≤ a ∧ a ≤ 0xEF)) (fourth : isContinuation d = true)
    (lead : 0xF0 ≤ a ∧ a ≤ 0xF4) {point : Nat}
    (same : (a.toNat - 0xF0) * 0x40000 + (b.toNat - 0x80) * 0x1000 +
      (c.toNat - 0x80) * 0x40 + (d.toNat - 0x80) = point)
    (long : ¬ point < 0x10000) (bounded : ¬ 0x10FFFF < point) :
    utf8DecodeStrict (a :: b :: c :: d :: rest) =
      (utf8DecodeStrict rest).map (pointUnits point ++ ·) := by
  rw [utf8DecodeStrict.eq_def]
  have notTwo' : (decide (0xC2 ≤ a) && decide (a ≤ 0xDF)) = false := by simpa using notTwo
  have notThree' : (decide (0xE0 ≤ a) && decide (a ≤ 0xEF)) = false := by simpa using notThree
  simp [beyond, second, notTwo', third, notThree', fourth, lead, same, long, bounded]

end

theorem utf8DecodeStrict_utf8Bytes {point : Nat} (scalar : IsScalarValue point) (rest : Bytes) :
    utf8DecodeStrict (utf8Bytes point ++ rest) =
      (utf8DecodeStrict rest).map (pointUnits point ++ ·) := by
  obtain ⟨bounded, surrogate⟩ := scalar
  have tail : ∀ value, isContinuation (0x80 + value % 0x40).toUInt8 = true :=
    fun value => isContinuation_byte (Nat.mod_lt _ (by decide))
  have low : ∀ value, (0x80 + value % 0x40).toUInt8.toNat - 0x80 = value % 0x40 := by
    intro value
    rw [toNat_toUInt8 (by omega)]
    omega
  have beyond : ∀ {value : Nat}, 0x80 ≤ value → value < 0x100 → ¬ value.toUInt8 < (0x80 : UInt8) := by
    intro value large small
    rw [lt_byte small]
    exact Nat.not_lt.mpr large
  unfold utf8Bytes
  split_ifs with one two three
  · have ascii : point.toUInt8 < 0x80 := (lt_byte (by omega)).mpr one
    rw [List.singleton_append, utf8DecodeStrict_one _ _ ascii, toNat_toUInt8 (by omega)]
  · have lead := (byte_between 0xC2 0xDF (by omega : 0xC0 + point / 0x40 < 0x100)).mpr
      ⟨show 0xC2 ≤ _ by omega, show _ ≤ 0xDF by omega⟩
    have whole : (0xC0 + point / 0x40 - 0xC0) * 0x40 + point % 0x40 = point := by omega
    rw [List.cons_append, List.cons_append, List.nil_append,
      utf8DecodeStrict_two _ _ _ (beyond (by omega) (by omega)) (tail point) lead, low,
      toNat_toUInt8 (by omega), whole]
  · have small : 0xE0 + point / 0x1000 < 0x100 := by omega
    have lead := (byte_between 0xE0 0xEF small).mpr
      ⟨show 0xE0 ≤ _ by omega, show _ ≤ 0xEF by omega⟩
    have notTwo := (byte_between 0xC2 0xDF small).not.mpr
      fun inside => absurd (show _ ≤ 0xDF from inside.2) (by omega)
    rw [List.cons_append, List.cons_append, List.cons_append, List.nil_append]
    refine utf8DecodeStrict_three _ _ _ _ (beyond (by omega) small) (tail _) notTwo (tail _) lead
      ?_ two surrogate
    rw [low, low, toNat_toUInt8 small]
    omega
  · have small : 0xF0 + point / 0x40000 < 0x100 := by omega
    have lead := (byte_between 0xF0 0xF4 small).mpr
      ⟨show 0xF0 ≤ _ by omega, show _ ≤ 0xF4 by omega⟩
    have notTwo := (byte_between 0xC2 0xDF small).not.mpr
      fun inside => absurd (show _ ≤ 0xDF from inside.2) (by omega)
    have notThree := (byte_between 0xE0 0xEF small).not.mpr
      fun inside => absurd (show _ ≤ 0xEF from inside.2) (by omega)
    rw [List.cons_append, List.cons_append, List.cons_append, List.cons_append, List.nil_append]
    refine utf8DecodeStrict_four _ _ _ _ _ (beyond (by omega) small) (tail _) notTwo (tail _)
      notThree (tail _) lead ?_ three (by omega)
    rw [low, low, low, toNat_toUInt8 small]
    omega

/-! ## Strings -/

theorem isHighSurrogate_iff {unit : UInt16} :
    isHighSurrogate unit = true ↔ 0xD800 ≤ unit.toNat ∧ unit.toNat ≤ 0xDBFF := by
  simp [isHighSurrogate, UInt16.le_iff_toNat_le]

theorem isLowSurrogate_iff {unit : UInt16} :
    isLowSurrogate unit = true ↔ 0xDC00 ≤ unit.toNat ∧ unit.toNat ≤ 0xDFFF := by
  simp [isLowSurrogate, UInt16.le_iff_toNat_le]

theorem utf8Encode_unit {unit : UInt16} (high : isHighSurrogate unit = false)
    (low : isLowSurrogate unit = false) (rest : JsString) :
    utf8Encode (unit :: rest) = utf8Bytes unit.toNat ++ utf8Encode rest := by
  cases rest <;> simp [utf8Encode, high, low]

theorem isScalarValue_unit {unit : UInt16} (high : isHighSurrogate unit = false)
    (low : isLowSurrogate unit = false) : IsScalarValue unit.toNat := by
  have notHigh : ¬ (0xD800 ≤ unit.toNat ∧ unit.toNat ≤ 0xDBFF) :=
    isHighSurrogate_iff.not.mp (by simp [high])
  have notLow : ¬ (0xDC00 ≤ unit.toNat ∧ unit.toNat ≤ 0xDFFF) :=
    isLowSurrogate_iff.not.mp (by simp [low])
  have bounded := unit.toNat_lt
  refine ⟨by omega, ?_⟩
  omega

theorem toUInt16_toNat (unit : UInt16) : unit.toNat.toUInt16 = unit := UInt16.ofNat_toNat

theorem pointUnits_unit (unit : UInt16) : pointUnits unit.toNat = [unit] := by
  rw [pointUnits, if_pos unit.toNat_lt, toUInt16_toNat]

/-- The arithmetic of a surrogate pair. -/
theorem pairPoint_parts {high low : UInt16} (isHigh : isHighSurrogate high = true)
    (isLow : isLowSurrogate low = true) :
    0x10000 ≤ pairPoint high low ∧ pairPoint high low < 0x110000 ∧
      0xD800 + (pairPoint high low - 0x10000) / 0x400 = high.toNat ∧
      0xDC00 + (pairPoint high low - 0x10000) % 0x400 = low.toNat := by
  have boundsHigh := isHighSurrogate_iff.mp isHigh
  have boundsLow := isLowSurrogate_iff.mp isLow
  unfold pairPoint
  omega

theorem pointUnits_pair {high low : UInt16} (isHigh : isHighSurrogate high = true)
    (isLow : isLowSurrogate low = true) : pointUnits (pairPoint high low) = [high, low] := by
  obtain ⟨large, -, first, second⟩ := pairPoint_parts isHigh isLow
  rw [pointUnits, if_neg (Nat.not_lt.mpr large), first, second, toUInt16_toNat, toUInt16_toNat]

theorem isScalarValue_pair {high low : UInt16} (isHigh : isHighSurrogate high = true)
    (isLow : isLowSurrogate low = true) : IsScalarValue (pairPoint high low) := by
  obtain ⟨large, bounded, -, -⟩ := pairPoint_parts isHigh isLow
  exact ⟨bounded, fun inside => absurd (Nat.le_trans large inside.2) (by decide)⟩

theorem utf8Encode_pair {high low : UInt16} (isHigh : isHighSurrogate high = true)
    (isLow : isLowSurrogate low = true) (rest : JsString) :
    utf8Encode (high :: low :: rest) = utf8Bytes (pairPoint high low) ++ utf8Encode rest := by
  simp [utf8Encode, isHigh, isLow]

theorem utf8Decode_unit {unit : UInt16} {rest : JsString} (high : isHighSurrogate unit = false)
    (low : isLowSurrogate unit = false) (others : utf8DecodeStrict (utf8Encode rest) = some rest) :
    utf8DecodeStrict (utf8Encode (unit :: rest)) = some (unit :: rest) := by
  rw [utf8Encode_unit high low, utf8DecodeStrict_utf8Bytes (isScalarValue_unit high low), others,
    pointUnits_unit]
  rfl

theorem utf8Decode_utf8Encode {text : JsString} (valid : wellFormed text = true) :
    utf8DecodeStrict (utf8Encode text) = some text := by
  induction text using wellFormed.induct with
  | case1 => rfl
  | case2 unit =>
      rw [wellFormed, Bool.and_eq_true, Bool.not_eq_true', Bool.not_eq_true'] at valid
      exact utf8Decode_unit valid.1 valid.2 rfl
  | case3 unit next rest high induction =>
      rw [wellFormed, if_pos high, Bool.and_eq_true] at valid
      rw [utf8Encode_pair high valid.1, utf8DecodeStrict_utf8Bytes (isScalarValue_pair high valid.1),
        induction valid.2, pointUnits_pair high valid.1]
      rfl
  | case4 unit next rest high induction =>
      rw [wellFormed, if_neg high, Bool.and_eq_true, Bool.not_eq_true'] at valid
      exact utf8Decode_unit (Bool.not_eq_true _ ▸ high) valid.1 (induction valid.2)

/-! ## Lengths -/

theorem utf8Bytes_length_pos (point : Nat) : 0 < (utf8Bytes point).length := by
  unfold utf8Bytes
  split
  · exact Nat.succ_pos _
  · split
    · exact Nat.succ_pos _
    · split <;> exact Nat.succ_pos _

theorem utf8Bytes_length_large {point : Nat} (large : 0x10000 ≤ point) :
    (utf8Bytes point).length = 4 := by
  rw [utf8Bytes, if_neg (by omega), if_neg (by omega), if_neg (by omega)]
  rfl

/-- Each code unit takes a byte at least. -/
theorem length_le_utf8Encode (text : JsString) : text.length ≤ (utf8Encode text).length := by
  fun_induction utf8Encode text with
  | case1 => exact Nat.le_refl _
  | case2 unit lone => exact utf8Bytes_length_pos _
  | case3 unit plain => exact utf8Bytes_length_pos _
  | case4 unit next rest pair induction =>
      have four : (utf8Bytes (pairPoint unit next)).length = 4 :=
        utf8Bytes_length_large (Nat.le_add_right_of_le (Nat.le_add_right _ _))
      simp only [List.length_cons, List.length_append, four]
      omega
  | case5 unit next rest pair lone induction =>
      have one := utf8Bytes_length_pos 0xFFFD
      simp only [List.length_cons, List.length_append] at induction ⊢
      omega
  | case6 unit next rest pair plain induction =>
      have one := utf8Bytes_length_pos unit.toNat
      simp only [List.length_cons, List.length_append] at induction ⊢
      omega

end Tapes.Js
