import Tapes.Js.CodePoints
import Tapes.Js.Utf8Decoder
import Tapes.Js.WellFormed

namespace Tapes.Js

/-! `encodeURIComponent` and `decodeURIComponent`, and a query string as `URLSearchParams` reads it. -/

/-! ## Writing a component -/

def uriUnreserved : JsString :=
  js "ABCDEFGHIJKLMNOPQRSTUVWXYZabcdefghijklmnopqrstuvwxyz0123456789-_.!~*'()"

def upperHexDigit (value : Nat) : UInt16 :=
  (if value < 10 then 0x30 + value else 0x37 + value).toUInt16

def percentByte (byte : UInt8) : JsString :=
  [0x25, upperHexDigit (byte.toNat / 16), upperHexDigit (byte.toNat % 16)]

def encodePoint (point : Nat) : JsString :=
  if ∀ unit ∈ pointUnits point, unit ∈ uriUnreserved then pointUnits point
  else (utf8Bytes point).flatMap percentByte

/-- None when it throws a `URIError`: for a lone surrogate. -/
def encodeURIComponent (text : JsString) : Option JsString :=
  if ∃ point ∈ codePoints text, isSurrogatePoint point = true then none
  else some ((codePoints text).flatMap encodePoint)

/-! ## Reading a component -/

/-- `run` is what the escapes just before say. -/
def decodeEscapes (run : Bytes) : JsString → Option JsString
  | [] => utf8DecodeStrict run
  | unit :: rest =>
      if unit = 0x25 then
        match rest with
        | high :: low :: rest =>
            match hexValue high, hexValue low with
            | some high, some low => decodeEscapes (run ++ [(high * 16 + low).toUInt8]) rest
            | _, _ => none
        | _ => none
      else do
        let before ← utf8DecodeStrict run
        let after ← decodeEscapes [] rest
        return before ++ unit :: after

/-- None when it throws a `URIError`: for a percent sign that starts no escape, and for escapes that
are not UTF-8. -/
def decodeURIComponent (text : JsString) : Option JsString := decodeEscapes [] text

/-! ## Reading a query -/

def hexByteValue (byte : UInt8) : Option Nat :=
  if 0x30 ≤ byte ∧ byte ≤ 0x39 then some (byte.toNat - 0x30)
  else if 0x41 ≤ byte ∧ byte ≤ 0x46 then some (byte.toNat - 0x37)
  else if 0x61 ≤ byte ∧ byte ≤ 0x66 then some (byte.toNat - 0x57)
  else none

def percentDecode : Bytes → Bytes
  | [] => []
  | [byte] => [byte]
  | [byte, next] => [byte, next]
  | byte :: next :: last :: rest =>
      if byte = 0x25 then
        match hexByteValue next, hexByteValue last with
        | some high, some low => (high * 16 + low).toUInt8 :: percentDecode rest
        | _, _ => byte :: percentDecode (next :: last :: rest)
      else byte :: percentDecode (next :: last :: rest)

def plusToSpace (text : JsString) : JsString :=
  text.map fun unit => if unit = 0x2B then 0x20 else unit

def formDecode (text : JsString) : JsString :=
  utf8Decode (percentDecode (utf8Encode (plusToSpace text)))

def parseParam (piece : JsString) : JsString × JsString :=
  (formDecode (piece.takeWhile (· ≠ 0x3D)), formDecode ((piece.dropWhile (· ≠ 0x3D)).drop 1))

/-- `new URLSearchParams(query)` -/
def parseQuery (query : JsString) : List (JsString × JsString) :=
  ((query.splitOn 0x26).filter (· ≠ [])).map parseParam

/-- `URLSearchParams.get` -/
def getParam (params : List (JsString × JsString)) (name : JsString) : Option JsString :=
  (params.find? fun param => param.1 = name).map (·.2)

/-! ## Ascii text and its bytes -/

variable {text : JsString} {point : Nat}

def asciiBytes (text : JsString) : Bytes := text.map fun unit => unit.toNat.toUInt8

theorem utf8Encode_ascii (ascii : Ascii text) : utf8Encode text = asciiBytes text := by
  induction text with
  | nil => rfl
  | cons unit rest induction =>
      obtain ⟨small, others⟩ := List.forall_mem_cons.mp ascii
      obtain ⟨high, low⟩ := not_surrogate_of_lt small
      have below : unit.toNat < 0x80 := UInt16.lt_iff_toNat_lt.mp small
      rw [utf8Encode_unit high low, induction others, utf8Bytes, if_pos below]
      rfl

theorem percentDecode_other {byte : UInt8} (other : byte ≠ 0x25) (rest : Bytes) :
    percentDecode (byte :: rest) = byte :: percentDecode rest := by
  match rest with
  | [] => rfl
  | [next] => rfl
  | next :: last :: rest => rw [percentDecode, if_neg other]

/-- Units that a query has for themselves: neither escapes nor separators. -/
def IsPlainUnit (unit : UInt16) : Prop :=
  unit < 0x80 ∧ unit ∉ ([0x23, 0x25, 0x26, 0x2B, 0x3D] : List UInt16)

instance (unit : UInt16) : Decidable (IsPlainUnit unit) :=
  inferInstanceAs (Decidable (_ ∧ _))

theorem isPlainUnit_unreserved {unit : UInt16} (member : unit ∈ uriUnreserved) : IsPlainUnit unit := by
  have all : ∀ unit ∈ uriUnreserved, IsPlainUnit unit := by decide
  exact all unit member

theorem plusToSpace_of_noPlus (noPlus : ∀ unit ∈ text, unit ≠ 0x2B) : plusToSpace text = text :=
  (List.map_congr_left fun unit member => if_neg (noPlus unit member)).trans (List.map_id text)

theorem asciiBytes_toNat {unit : UInt16} (small : unit < 0x80) :
    unit.toNat.toUInt8.toNat = unit.toNat := by
  have below : unit.toNat < 0x80 := UInt16.lt_iff_toNat_lt.mp small
  exact toNat_toUInt8 (by omega)

theorem percentDecode_plain (plain : ∀ unit ∈ text, IsPlainUnit unit) (rest : Bytes) :
    percentDecode (asciiBytes text ++ rest) = asciiBytes text ++ percentDecode rest := by
  induction text with
  | nil => rfl
  | cons unit units induction =>
      obtain ⟨⟨small, others⟩, later⟩ := List.forall_mem_cons.mp plain
      have noPercent : unit.toNat.toUInt8 ≠ 0x25 := by
        intro same
        have value := asciiBytes_toNat small
        rw [same] at value
        have percent : unit = 0x25 := UInt16.toNat.inj value.symm
        simp [percent] at others
      have step := percentDecode_other noPercent (asciiBytes units ++ rest)
      rw [induction later] at step
      exact step

/-! ## One code point there and back -/

theorem hexByteValue_upperHexDigit {value : Nat} (small : value < 16) :
    upperHexDigit value ∈ uriUnreserved ∧
      hexByteValue (upperHexDigit value).toNat.toUInt8 = some value := by
  interval_cases value <;> decide

/-- What an escaped code point is made of. -/
theorem encodePoint_units (point : Nat) : ∀ unit ∈ encodePoint point,
    unit ∈ uriUnreserved ∨ unit = 0x25 := by
  intro unit member
  unfold encodePoint at member
  split at member
  · rename_i unreserved
    exact .inl (unreserved unit member)
  · obtain ⟨byte, _, inside⟩ := List.mem_flatMap.mp member
    have bound := byte.toNat_lt
    simp only [percentByte, List.mem_cons, List.not_mem_nil, or_false] at inside
    rcases inside with rfl | rfl | rfl
    · exact .inr rfl
    · exact .inl (hexByteValue_upperHexDigit (by omega)).1
    · exact .inl (hexByteValue_upperHexDigit (by omega)).1

theorem percentDecode_percentBytes (bytes rest : Bytes) :
    percentDecode (asciiBytes (bytes.flatMap percentByte) ++ rest) =
      bytes ++ percentDecode rest := by
  induction bytes with
  | nil => rfl
  | cons byte bytes induction =>
      have bound := byte.toNat_lt
      have high := (hexByteValue_upperHexDigit (show byte.toNat / 16 < 16 by omega)).2
      have low := (hexByteValue_upperHexDigit (show byte.toNat % 16 < 16 by omega)).2
      have whole : (byte.toNat / 16 * 16 + byte.toNat % 16).toUInt8 = byte := by
        rw [show byte.toNat / 16 * 16 + byte.toNat % 16 = byte.toNat by omega]
        exact UInt8.ofNat_toNat
      have step : percentDecode (asciiBytes (percentByte byte) ++
          (asciiBytes (bytes.flatMap percentByte) ++ rest)) =
            byte :: percentDecode (asciiBytes (bytes.flatMap percentByte) ++ rest) := by
        have percent : (0x25 : UInt16).toNat.toUInt8 = 0x25 := by decide
        simp only [percentByte, asciiBytes, List.map_cons, List.map_nil, List.cons_append,
          List.nil_append, percentDecode, percent, if_true, high, low, whole]
      rw [induction] at step
      rw [List.flatMap_cons, asciiBytes, List.map_append, List.append_assoc]
      exact step

theorem percentDecode_encodePoint (scalar : IsScalarValue point) (rest : Bytes) :
    percentDecode (asciiBytes (encodePoint point) ++ rest) =
      utf8Bytes point ++ percentDecode rest := by
  unfold encodePoint
  split
  · rename_i unreserved
    rw [percentDecode_plain fun unit member => isPlainUnit_unreserved (unreserved unit member)]
    rcases pointUnits_cases scalar.1 with ⟨unit, same, units⟩ | pair
    · have small := (isPlainUnit_unreserved (unreserved unit (by simp [units]))).1
      have below : unit.toNat < 0x80 := UInt16.lt_iff_toNat_lt.mp small
      rw [units, ← same, utf8Bytes, if_pos below]
      rfl
    · obtain ⟨high, low, isHigh, -, -, units⟩ := pair
      have small := (isPlainUnit_unreserved (unreserved high (by simp [units]))).1
      rw [(not_surrogate_of_lt small).1] at isHigh
      cases isHigh
  · exact percentDecode_percentBytes _ _

/-! ## Whole values -/

/-- A written value stays one value of a query, and is read as `value`. -/
structure Spelled (spelled value : JsString) : Prop where
  apart : ∀ unit ∈ spelled, unit ∉ ([0x23, 0x26] : List UInt16)
  reads : formDecode spelled = value

theorem spelled_plain (plain : ∀ unit ∈ text, IsPlainUnit unit) : Spelled text text := by
  have noPlus : ∀ unit ∈ text, unit ≠ 0x2B := by
    intro unit member plus
    have others := (plain unit member).2
    simp [plus] at others
  have bytes : asciiBytes text = (text.map UInt16.toNat).flatMap utf8Bytes := by
    rw [List.flatMap_map, asciiBytes, List.map_eq_flatMap]
    apply List.flatMap_congr
    intro unit member
    have below : unit.toNat < 0x80 := UInt16.lt_iff_toNat_lt.mp (plain unit member).1
    rw [utf8Bytes, if_pos below]
  have units : (text.map UInt16.toNat).flatMap pointUnits = text := by
    rw [List.flatMap_map]
    simp only [pointUnits_unit]
    exact List.flatMap_singleton' text
  have scalar : ∀ point ∈ text.map UInt16.toNat, IsScalarValue point := by
    intro point member
    obtain ⟨unit, inside, rfl⟩ := List.mem_map.mp member
    obtain ⟨high, low⟩ := not_surrogate_of_lt (plain unit inside).1
    exact isScalarValue_unit high low
  have decoded := percentDecode_plain plain []
  rw [List.append_nil, percentDecode, List.append_nil] at decoded
  constructor
  · intro unit member
    have others := (plain unit member).2
    simp only [List.mem_cons, List.not_mem_nil, or_false, not_or] at others ⊢
    exact ⟨others.1, others.2.2.1⟩
  · rw [formDecode, plusToSpace_of_noPlus noPlus, utf8Encode_ascii fun unit member =>
      (plain unit member).1, decoded, bytes, utf8Decode_points scalar, units]

theorem percentDecode_encodePoints {points : List Nat} (scalar : ∀ point ∈ points, IsScalarValue point) :
    percentDecode (asciiBytes (points.flatMap encodePoint)) = points.flatMap utf8Bytes := by
  induction points with
  | nil => rfl
  | cons point points induction =>
      obtain ⟨first, others⟩ := List.forall_mem_cons.mp scalar
      have step := percentDecode_encodePoint first (asciiBytes (points.flatMap encodePoint))
      rw [induction others] at step
      rw [List.flatMap_cons, asciiBytes, List.map_append]
      exact step

/-- What `encodeURIComponent` writes, a query gives back. -/
theorem encodeURIComponent_of_wellFormed (valid : wellFormed text = true) :
    ∃ spelled, encodeURIComponent text = some spelled ∧ Spelled spelled text := by
  have points := (wellFormed_iff_scalar text).mp valid
  have scalar : ∀ point ∈ codePoints text, IsScalarValue point := by
    intro point member
    have other := points point member
    rw [← Bool.not_eq_true, isSurrogatePoint, Bool.and_eq_true, decide_eq_true_eq,
      decide_eq_true_eq] at other
    exact ⟨(apart_codePoints text).bounded point member, other⟩
  refine ⟨(codePoints text).flatMap encodePoint, ?_, ?_⟩
  · rw [encodeURIComponent, if_neg]
    intro lone
    obtain ⟨point, member, surrogate⟩ := lone
    rw [points point member] at surrogate
    cases surrogate
  · have units : ∀ unit ∈ (codePoints text).flatMap encodePoint,
        unit < 0x80 ∧ unit ∉ ([0x23, 0x26, 0x2B] : List UInt16) := by
      intro unit member
      obtain ⟨point, _, inside⟩ := List.mem_flatMap.mp member
      rcases encodePoint_units point unit inside with unreserved | percent
      · have all : ∀ unit ∈ uriUnreserved,
            unit < 0x80 ∧ unit ∉ ([0x23, 0x26, 0x2B] : List UInt16) := by decide
        exact all unit unreserved
      · rw [percent]
        decide
    constructor
    · intro unit member
      have others := (units unit member).2
      simp only [List.mem_cons, List.not_mem_nil, or_false, not_or] at others ⊢
      exact ⟨others.1, others.2.1⟩
    · have noPlus : ∀ unit ∈ (codePoints text).flatMap encodePoint, unit ≠ 0x2B := by
        intro unit member plus
        have others := (units unit member).2
        simp [plus] at others
      rw [formDecode, plusToSpace_of_noPlus noPlus, utf8Encode_ascii fun unit member =>
        (units unit member).1, percentDecode_encodePoints scalar, utf8Decode_points scalar]
      exact ofCodePoints_codePoints text

theorem encodeURIComponent_of_lone (lone : wellFormed text = false) :
    encodeURIComponent text = none := by
  rw [encodeURIComponent, if_pos]
  by_contra none
  have valid := (wellFormed_iff_scalar text).mpr fun point member =>
    Bool.not_eq_true _ ▸ fun surrogate => none ⟨point, member, surrogate⟩
  rw [valid] at lone
  cases lone

/-! ## Whole queries -/

/-- One parameter of a query: its name and what is written for it. -/
def writeParam (name spelled : JsString) : JsString := name ++ 0x3D :: spelled

theorem parseParam_writeParam {name spelled value : JsString}
    (plain : ∀ unit ∈ name, IsPlainUnit unit) (reads : Spelled spelled value) :
    parseParam (writeParam name spelled) = (name, value) := by
  have noEqual : ∀ unit ∈ name, decide (unit ≠ 0x3D) = true := by
    intro unit member
    have others := (plain unit member).2
    simp only [List.mem_cons, List.not_mem_nil, or_false, not_or] at others
    exact decide_eq_true others.2.2.2.2
  have front : (writeParam name spelled).takeWhile (· ≠ 0x3D) = name := by
    rw [writeParam, List.takeWhile_append_of_pos noEqual]
    simp
  have back : (writeParam name spelled).dropWhile (· ≠ 0x3D) = 0x3D :: spelled := by
    rw [writeParam, List.dropWhile_append_of_pos noEqual]
    simp
  rw [parseParam, front, back, (spelled_plain plain).reads, List.drop_one, List.tail_cons, reads.reads]

theorem parseQuery_pieces (piece : JsString) (others : List JsString)
    (whole : ∀ piece' ∈ piece :: others, piece' ≠ [] ∧ (0x26 : UInt16) ∉ piece') :
    parseQuery (piece ++ others.flatMap (0x26 :: ·)) = (piece :: others).map parseParam := by
  have split : (piece ++ others.flatMap (0x26 :: ·)).splitOn 0x26 = piece :: others := by
    induction others generalizing piece with
    | nil =>
        rw [List.flatMap_nil, List.append_nil]
        exact List.splitOn_eq_singleton (whole piece List.mem_cons_self).2
    | cons other others induction =>
        obtain ⟨first, later⟩ := List.forall_mem_cons.mp whole
        rw [List.flatMap_cons, List.cons_append,
          List.splitOn_append_cons_self_of_not_mem first.2, induction other later]
  have kept : (piece :: others).filter (· ≠ []) = piece :: others := by
    rw [List.filter_eq_self]
    exact fun piece' member => decide_eq_true (whole piece' member).1
  rw [parseQuery, split, kept]

end Tapes.Js
