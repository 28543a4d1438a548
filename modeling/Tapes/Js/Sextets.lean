import Tapes.Js.Utf8

namespace Tapes.Js

/-! Bytes regrouped into values of six bits, which the base64 alphabets spell.

Three bytes are four values. One or two bytes at the end are two or three values, the last of them
filled up with zero bits.
-/

def sextets : Bytes → List Nat
  | [] => []
  | [a] => [a.toNat / 4, a.toNat % 4 * 16]
  | [a, b] => [a.toNat / 4, a.toNat % 4 * 16 + b.toNat / 16, b.toNat % 16 * 4]
  | a :: b :: c :: rest =>
      [a.toNat / 4, a.toNat % 4 * 16 + b.toNat / 16, b.toNat % 16 * 4 + c.toNat / 64,
        c.toNat % 64] ++ sextets rest

/-- The whole bytes of the values, without the bits after the last of them. -/
def wholeBytes : List Nat → Bytes
  | [] | [_] => []
  | [a, b] => [(a * 4 + b / 16).toUInt8]
  | [a, b, c] => [(a * 4 + b / 16).toUInt8, (b % 16 * 16 + c / 4).toUInt8]
  | a :: b :: c :: d :: rest =>
      [(a * 4 + b / 16).toUInt8, (b % 16 * 16 + c / 4).toUInt8, (c % 4 * 64 + d).toUInt8] ++
        wholeBytes rest

/-- The bits after the last whole byte. -/
def strayBits : List Nat → Nat
  | [] => 0
  | [a] => a
  | [_, b] => b % 16
  | [_, _, c] => c % 4
  | _ :: _ :: _ :: _ :: rest => strayBits rest

theorem toUInt8_eq {value : Nat} {byte : UInt8} (same : value = byte.toNat) :
    value.toUInt8 = byte := by
  rw [same, Nat.toUInt8, UInt8.ofNat_toNat]

theorem sextets_lt (bytes : Bytes) : ∀ value ∈ sextets bytes, value < 64 := by
  induction bytes using sextets.induct with
  | case1 => simp [sextets]
  | case2 a =>
      have boundA := a.toNat_lt
      intro value member
      simp only [sextets, List.mem_cons, List.not_mem_nil, or_false] at member
      omega
  | case3 a b =>
      have boundA := a.toNat_lt
      have boundB := b.toNat_lt
      intro value member
      simp only [sextets, List.mem_cons, List.not_mem_nil, or_false] at member
      omega
  | case4 a b c rest induction =>
      have boundA := a.toNat_lt
      have boundB := b.toNat_lt
      have boundC := c.toNat_lt
      intro value member
      simp only [sextets, List.mem_append, List.mem_cons, List.not_mem_nil, or_false] at member
      obtain first | later := member
      · omega
      · exact induction value later

theorem wholeBytes_sextets (bytes : Bytes) : wholeBytes (sextets bytes) = bytes := by
  induction bytes using sextets.induct with
  | case1 => rfl
  | case2 a =>
      have boundA := a.toNat_lt
      simp only [sextets, wholeBytes, List.cons.injEq, and_true]
      exact toUInt8_eq (by omega)
  | case3 a b =>
      have boundA := a.toNat_lt
      have boundB := b.toNat_lt
      simp only [sextets, wholeBytes, List.cons.injEq, and_true]
      exact ⟨toUInt8_eq (by omega), toUInt8_eq (by omega)⟩
  | case4 a b c rest induction =>
      have boundA := a.toNat_lt
      have boundB := b.toNat_lt
      have boundC := c.toNat_lt
      simp only [sextets, wholeBytes, List.cons_append, List.nil_append, induction, List.cons.injEq,
        and_true]
      exact ⟨toUInt8_eq (by omega), toUInt8_eq (by omega), toUInt8_eq (by omega)⟩

theorem strayBits_sextets (bytes : Bytes) : strayBits (sextets bytes) = 0 := by
  induction bytes using sextets.induct with
  | case1 => rfl
  | case2 a => simp only [sextets, strayBits, Nat.mul_mod_left]
  | case3 a b =>
      simp only [sextets, strayBits]
      omega
  | case4 a b c rest induction => exact induction

theorem length_sextets (bytes : Bytes) : (sextets bytes).length % 4 ≠ 1 := by
  induction bytes using sextets.induct with
  | case1 => simp [sextets]
  | case2 a => simp [sextets]
  | case3 a b => simp [sextets]
  | case4 a b c rest induction =>
      simp only [sextets, List.length_append, List.length_cons, List.length_nil]
      omega

theorem length_wholeBytes (values : List Nat) :
    (wholeBytes values).length = values.length * 6 / 8 := by
  induction values using wholeBytes.induct with
  | case1 => rfl
  | case2 a => simp [wholeBytes]
  | case3 a b => simp [wholeBytes]
  | case4 a b c => simp [wholeBytes]
  | case5 a b c d rest induction =>
      simp only [wholeBytes, List.length_append, List.length_cons, List.length_nil, induction]
      omega

/-- Values without stray bits are those of their bytes. -/
theorem sextets_wholeBytes {values : List Nat} (small : ∀ value ∈ values, value < 64)
    (whole : values.length % 4 ≠ 1) (none : strayBits values = 0) :
    sextets (wholeBytes values) = values := by
  induction values using wholeBytes.induct with
  | case1 => rfl
  | case2 a => exact absurd rfl whole
  | case3 a b =>
      have smallA := small a (by simp)
      have smallB := small b (by simp)
      simp only [strayBits] at none
      have first : (a * 4 + b / 16).toUInt8.toNat = _ := toNat_toUInt8 (by omega)
      simp only [wholeBytes, sextets, first, List.cons.injEq, and_true]
      omega
  | case4 a b c =>
      have smallA := small a (by simp)
      have smallB := small b (by simp)
      have smallC := small c (by simp)
      simp only [strayBits] at none
      have first : (a * 4 + b / 16).toUInt8.toNat = _ := toNat_toUInt8 (by omega)
      have second : (b % 16 * 16 + c / 4).toUInt8.toNat = _ := toNat_toUInt8 (by omega)
      simp only [wholeBytes, sextets, first, second, List.cons.injEq, and_true]
      omega
  | case5 a b c d rest induction =>
      have smallA := small a (by simp)
      have smallB := small b (by simp)
      have smallC := small c (by simp)
      have smallD := small d (by simp)
      have later := induction (fun value member => small value (by simp [member]))
        (by simp only [List.length_cons] at whole; omega) none
      have first : (a * 4 + b / 16).toUInt8.toNat = _ := toNat_toUInt8 (by omega)
      have second : (b % 16 * 16 + c / 4).toUInt8.toNat = _ := toNat_toUInt8 (by omega)
      have third : (c % 4 * 64 + d).toUInt8.toNat = _ := toNat_toUInt8 (by omega)
      simp only [wholeBytes, List.cons_append, List.nil_append, sextets, first, second, third, later,
        List.cons.injEq, and_true]
      omega

end Tapes.Js
