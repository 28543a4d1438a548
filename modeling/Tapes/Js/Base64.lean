import Mathlib.Data.List.DropRight
import Tapes.Js.Sextets

namespace Tapes.Js

/-! `btoa` and `atob`, on strings whose units are the bytes. -/

def base64Alphabet : JsString :=
  js "ABCDEFGHIJKLMNOPQRSTUVWXYZabcdefghijklmnopqrstuvwxyz0123456789+/"

def binaryText (bytes : Bytes) : JsString := bytes.map fun byte => byte.toNat.toUInt16

/-- `charCodeAt` of every unit of a text that `atob` has given. -/
def charCodes (binary : JsString) : Bytes := binary.map fun unit => unit.toNat.toUInt8

/-- Padded to groups of four. -/
def padding (length : Nat) : JsString := List.replicate ((4 - length % 4) % 4) 0x3D

/-- `replace(/=+$/, '')`. -/
def stripPadding (text : JsString) : JsString := text.rdropWhile (· = 0x3D)

/-- `replaceAll` of one unit by another. -/
def replaceAll (text : JsString) (before after : UInt16) : JsString :=
  text.map fun unit => if unit = before then after else unit

/-- The units of base64url in place of the two that are not safe in a URL, and no padding. -/
def urlSafeText (text : JsString) : JsString :=
  stripPadding (replaceAll (replaceAll text 0x2B 0x2D) 0x2F 0x5F)

def standardText (text : JsString) : JsString := replaceAll (replaceAll text 0x2D 0x2B) 0x5F 0x2F

/-- It throws at a unit that is no byte. -/
def btoa (binary : JsString) : Option JsString :=
  if ∀ unit ∈ binary, unit ≤ 0xFF then
    let text := (sextets (charCodes binary)).map (base64Alphabet.getD · 0)
    some (text ++ padding text.length)
  else none

def isAsciiWhiteSpace (unit : UInt16) : Bool := unit ∈ ([0x09, 0x0A, 0x0C, 0x0D, 0x20] : List UInt16)

/-- One or two padding units at the end, of a text in groups of four. -/
def withoutPadding (text : JsString) : JsString :=
  if text.length % 4 = 0 then
    if text.drop (text.length - 2) = [0x3D, 0x3D] then text.take (text.length - 2)
    else if text.drop (text.length - 1) = [0x3D] then text.take (text.length - 1)
    else text
  else text

/-- The forgiving decoder: white space is passed over, padding may be left out, and what the last
unit has beyond the last byte is not looked at. -/
def atob (text : JsString) : Option JsString :=
  let data := withoutPadding (text.filter fun unit => !isAsciiWhiteSpace unit)
  if data.length % 4 = 1 then none
  else if ∀ unit ∈ data, unit ∈ base64Alphabet then
    some (binaryText (wholeBytes (data.map (base64Alphabet.idxOf ·))))
  else none

variable {text : JsString}

theorem length_standardText (text : JsString) : (standardText text).length = text.length := by
  simp only [standardText, replaceAll, List.length_map]

theorem charCodes_binaryText (bytes : Bytes) : charCodes (binaryText bytes) = bytes := by
  rw [charCodes, binaryText, List.map_map]
  refine (List.map_congr_left fun byte _ => ?_).trans (List.map_id bytes)
  have small := byte.toNat_lt
  have unit : byte.toNat.toUInt16.toNat = byte.toNat := by
    rw [Nat.toUInt16, UInt16.toNat_ofNat']
    omega
  simp only [Function.comp, unit, Nat.toUInt8, UInt8.ofNat_toNat, id]

theorem btoa_binaryText (bytes : Bytes) : btoa (binaryText bytes) =
    some ((sextets bytes).map (base64Alphabet.getD · 0) ++ padding (sextets bytes).length) := by
  have small : ∀ unit ∈ binaryText bytes, unit ≤ 0xFF := by
    intro unit member
    obtain ⟨byte, _, rfl⟩ := List.mem_map.mp member
    have bound := byte.toNat_lt
    rw [UInt16.le_iff_toNat_le, Nat.toUInt16, UInt16.toNat_ofNat']
    show byte.toNat % 65536 ≤ 255
    omega
  simp only [btoa, if_pos small, charCodes_binaryText, List.length_map]

/-- A text of the alphabet has no white space and no padding. -/
theorem plain_of_alphabet {unit : UInt16} (inside : unit ∈ base64Alphabet) :
    isAsciiWhiteSpace unit = false ∧ unit ≠ 0x3D := by
  have all : ∀ unit ∈ base64Alphabet, isAsciiWhiteSpace unit = false ∧ unit ≠ 0x3D := by decide
  exact all unit inside

theorem stripPadding_padded (spelled : ∀ unit ∈ text, unit ≠ 0x3D) (length : Nat) :
    stripPadding (text ++ padding length) = text := by
  unfold padding
  induction (4 - length % 4) % 4 with
  | zero =>
      rw [List.replicate_zero, List.append_nil, stripPadding, List.rdropWhile_eq_self_iff]
      intro nonempty
      simpa using spelled _ (List.getLast_mem nonempty)
  | succ count induction =>
      rw [List.replicate_succ', ← List.append_assoc, stripPadding,
        List.rdropWhile_concat_pos _ _ _ (by simp)]
      exact induction

/-- The two replacements touch different units. -/
theorem replaceAll_replaceAll (text : JsString) {first second before after : UInt16}
    (apart : after ≠ second) : replaceAll (replaceAll text first after) second before =
      text.map fun unit => if unit = first then after else if unit = second then before else unit := by
  rw [replaceAll, replaceAll, List.map_map]
  apply List.map_congr_left
  intro unit _
  by_cases isFirst : unit = first
  · simp [isFirst, apart]
  · simp [isFirst]

theorem withoutPadding_padded (inside : ∀ unit ∈ text, unit ∈ base64Alphabet)
    (whole : text.length % 4 ≠ 1) : withoutPadding (text ++ padding text.length) = text := by
  have clean (count : Nat) : ∀ unit ∈ text.drop count, unit ≠ 0x3D := fun unit member =>
    (plain_of_alphabet (inside unit (List.mem_of_mem_drop member))).2
  have groups : text.length % 4 = 0 ∨ text.length % 4 = 2 ∨ text.length % 4 = 3 := by omega
  obtain none | two | one := groups
  · have pads : padding text.length = [] := by rw [padding, none]; rfl
    rw [pads, List.append_nil, withoutPadding, if_pos none, if_neg, if_neg]
    · intro same
      exact clean _ 0x3D (same ▸ List.mem_cons_self) rfl
    · intro same
      exact clean _ 0x3D (same ▸ List.mem_cons_self) rfl
  · have pads : padding text.length = [0x3D, 0x3D] := by rw [padding, two]; rfl
    have length : (text ++ [0x3D, 0x3D]).length - 2 = text.length := by
      rw [List.length_append]
      exact Nat.add_sub_cancel ..
    have full : (text ++ [0x3D, 0x3D]).length % 4 = 0 := by
      simp only [List.length_append, List.length_cons, List.length_nil]
      omega
    rw [pads, withoutPadding, if_pos full, length, if_pos List.drop_left, List.take_left]
  · have pads : padding text.length = [0x3D] := by rw [padding, one]; rfl
    have length : (text ++ [0x3D]).length - 1 = text.length := by
      rw [List.length_append]
      exact Nat.add_sub_cancel ..
    have full : (text ++ [0x3D]).length % 4 = 0 := by
      simp only [List.length_append, List.length_cons, List.length_nil]
      omega
    have before : (text ++ [0x3D]).length - 2 ≤ text.length := by omega
    rw [pads, withoutPadding, if_pos full, if_neg, length, if_pos List.drop_left, List.take_left]
    intro same
    rw [List.drop_append_of_le_length before] at same
    have last : text.drop ((text ++ [0x3D]).length - 2) = [0x3D] := by
      have split : text.drop ((text ++ [0x3D]).length - 2) ++ [0x3D] = [0x3D] ++ [0x3D] := same
      exact List.append_cancel_right split
    exact clean _ 0x3D (last ▸ List.mem_cons_self) rfl

theorem atob_padded (inside : ∀ unit ∈ text, unit ∈ base64Alphabet)
    (whole : text.length % 4 ≠ 1) : atob (text ++ padding text.length) =
      some (binaryText (wholeBytes (text.map (base64Alphabet.idxOf ·)))) := by
  have kept : (text ++ padding text.length).filter (fun unit => !isAsciiWhiteSpace unit) =
      text ++ padding text.length := by
    rw [List.filter_eq_self]
    intro unit member
    obtain spelled | pads := List.mem_append.mp member
    · rw [(plain_of_alphabet (inside unit spelled)).1]
      rfl
    · rw [List.eq_of_mem_replicate pads]
      rfl
  rw [atob, kept]
  simp only [withoutPadding_padded inside whole, if_neg whole, if_pos inside]

end Tapes.Js
