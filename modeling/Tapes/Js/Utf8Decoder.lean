import Tapes.Js.Utf8

namespace Tapes.Js

/-! UTF-8 decoding that does not throw: an ill-formed byte sequence is read as U+FFFD. -/

/-- A sequence of bytes that goes on: the bits so far, the bytes still to come, and the bounds of
the next one. -/
structure Pending where
  point : Nat
  needed : Nat
  lower : Nat
  upper : Nat

def leadByte (byte : Nat) : JsString × Option Pending :=
  if byte < 0x80 then (pointUnits byte, none)
  else if 0xC2 ≤ byte ∧ byte ≤ 0xDF then ([], some ⟨byte - 0xC0, 1, 0x80, 0xBF⟩)
  else if 0xE0 ≤ byte ∧ byte ≤ 0xEF then
    ([], some ⟨byte - 0xE0, 2, if byte = 0xE0 then 0xA0 else 0x80, if byte = 0xED then 0x9F else 0xBF⟩)
  else if 0xF0 ≤ byte ∧ byte ≤ 0xF4 then
    ([], some ⟨byte - 0xF0, 3, if byte = 0xF0 then 0x90 else 0x80, if byte = 0xF4 then 0x8F else 0xBF⟩)
  else ([0xFFFD], none)

/-- A byte out of bounds ends the sequence and is a lead byte itself. -/
def utf8Step : Option Pending → Nat → JsString × Option Pending
  | none, byte => leadByte byte
  | some pending, byte =>
      if pending.lower ≤ byte ∧ byte ≤ pending.upper then
        let point := pending.point * 0x40 + (byte - 0x80)
        if pending.needed ≤ 1 then (pointUnits point, none)
        else ([], some ⟨point, pending.needed - 1, 0x80, 0xBF⟩)
      else (0xFFFD :: (leadByte byte).1, (leadByte byte).2)

def utf8DecodeFrom : Option Pending → Bytes → JsString
  | none, [] => []
  | some _, [] => [0xFFFD]
  | state, byte :: rest =>
      (utf8Step state byte.toNat).1 ++ utf8DecodeFrom (utf8Step state byte.toNat).2 rest

/-- `new TextDecoder('utf-8', { ignoreBOM: true }).decode` -/
def utf8Decode (bytes : Bytes) : JsString := utf8DecodeFrom none bytes

variable {point byte needed lower upper value : Nat} (rest : Bytes)

theorem utf8DecodeFrom_lead (small : byte < 0x100) {state : Option Pending}
    (lead : leadByte byte = ([], state)) :
    utf8DecodeFrom none (byte.toUInt8 :: rest) = utf8DecodeFrom state rest := by
  rw [utf8DecodeFrom, toNat_toUInt8 small, utf8Step, lead]
  rfl

theorem utf8DecodeFrom_next (value_lt : value < 0x40) (least : lower ≤ 0x80 + value)
    (most : 0x80 + value ≤ upper) :
    utf8DecodeFrom (some ⟨point, needed + 2, lower, upper⟩) ((0x80 + value).toUInt8 :: rest) =
      utf8DecodeFrom (some ⟨point * 0x40 + value, needed + 1, 0x80, 0xBF⟩) rest := by
  have more : ¬ needed + 2 ≤ 1 := by omega
  rw [utf8DecodeFrom, toNat_toUInt8 (by omega)]
  simp only [utf8Step, if_pos (And.intro least most), if_neg more, Nat.add_sub_cancel_left]
  rfl

theorem utf8DecodeFrom_last (value_lt : value < 0x40) (least : lower ≤ 0x80 + value)
    (most : 0x80 + value ≤ upper) :
    utf8DecodeFrom (some ⟨point, 1, lower, upper⟩) ((0x80 + value).toUInt8 :: rest) =
      pointUnits (point * 0x40 + value) ++ utf8DecodeFrom none rest := by
  rw [utf8DecodeFrom, toNat_toUInt8 (by omega)]
  simp only [utf8Step, if_pos (And.intro least most), Nat.le_refl, if_true,
    Nat.add_sub_cancel_left]

/-- The bytes of a code point are read as that code point. -/
theorem utf8DecodeFrom_utf8Bytes (scalar : IsScalarValue point) :
    utf8DecodeFrom none (utf8Bytes point ++ rest) = pointUnits point ++ utf8DecodeFrom none rest := by
  obtain ⟨bounded, surrogate⟩ := scalar
  have tail : ∀ value, value % 0x40 < 0x40 := fun value => Nat.mod_lt _ (by decide)
  unfold utf8Bytes
  split_ifs with one two three
  · rw [List.singleton_append, utf8DecodeFrom, toNat_toUInt8 (by omega), utf8Step, leadByte,
      if_pos one]
  · have lead : leadByte (0xC0 + point / 0x40) = ([], some ⟨point / 0x40, 1, 0x80, 0xBF⟩) := by
      rw [leadByte, if_neg (by omega), if_pos (by omega), Nat.add_sub_cancel_left]
    have whole : point / 0x40 * 0x40 + point % 0x40 = point := by omega
    rw [List.cons_append, List.singleton_append, utf8DecodeFrom_lead _ (by omega) lead,
      utf8DecodeFrom_last _ (tail _) (by omega) (by omega), whole]
  · have lead : leadByte (0xE0 + point / 0x1000) = ([], some ⟨point / 0x1000, 2,
        if 0xE0 + point / 0x1000 = 0xE0 then 0xA0 else 0x80,
        if 0xE0 + point / 0x1000 = 0xED then 0x9F else 0xBF⟩) := by
      rw [leadByte, if_neg (by omega), if_neg (by omega), if_pos (by omega),
        Nat.add_sub_cancel_left]
    have whole : (point / 0x1000 * 0x40 + point / 0x40 % 0x40) * 0x40 + point % 0x40 = point := by
      omega
    rw [List.cons_append, List.cons_append, List.singleton_append,
      utf8DecodeFrom_lead _ (by omega) lead,
      utf8DecodeFrom_next _ (tail _) (by split <;> omega) (by split <;> omega),
      utf8DecodeFrom_last _ (tail _) (by omega) (by omega), whole]
  · have lead : leadByte (0xF0 + point / 0x40000) = ([], some ⟨point / 0x40000, 3,
        if 0xF0 + point / 0x40000 = 0xF0 then 0x90 else 0x80,
        if 0xF0 + point / 0x40000 = 0xF4 then 0x8F else 0xBF⟩) := by
      rw [leadByte, if_neg (by omega), if_neg (by omega), if_neg (by omega), if_pos (by omega),
        Nat.add_sub_cancel_left]
    have whole : ((point / 0x40000 * 0x40 + point / 0x1000 % 0x40) * 0x40 + point / 0x40 % 0x40) *
        0x40 + point % 0x40 = point := by omega
    rw [List.cons_append, List.cons_append, List.cons_append, List.singleton_append,
      utf8DecodeFrom_lead _ (by omega) lead,
      utf8DecodeFrom_next _ (tail _) (by split <;> omega) (by split <;> omega),
      utf8DecodeFrom_next _ (tail _) (by omega) (by omega),
      utf8DecodeFrom_last _ (tail _) (by omega) (by omega), whole]

theorem utf8Decode_points {points : List Nat} (scalar : ∀ point ∈ points, IsScalarValue point) :
    utf8Decode (points.flatMap utf8Bytes) = points.flatMap pointUnits := by
  induction points with
  | nil => rfl
  | cons point points induction =>
      obtain ⟨first, others⟩ := List.forall_mem_cons.mp scalar
      have later := induction others
      rw [utf8Decode] at later
      rw [utf8Decode, List.flatMap_cons, utf8DecodeFrom_utf8Bytes _ first, later, List.flatMap_cons]

end Tapes.Js
