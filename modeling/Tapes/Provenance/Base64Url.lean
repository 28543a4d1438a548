import Mathlib.Data.List.Nodup
import Mathlib.Tactic.IntervalCases
import Tapes.Js.Sextets
import Tapes.Provenance.Signing

namespace Tapes.Provenance

open Tapes.Js

/-! Unpadded base64url: the texts that it writes are the texts that it reads. -/

def base64Char (value : Nat) : UInt16 := base64UrlAlphabet.getD value 0

/-- The first characters of a chunk of 24 bits. -/
def base64Chars (chunk chars : Nat) : JsString :=
  (List.range chars).map fun c => base64Char ((chunk >>> (18 - c * 6)) &&& 0x3F)

def toBase64Url : Bytes → JsString
  | [] => []
  | [a] => base64Chars (a.toNat <<< 16) 2
  | [a, b] => base64Chars (a.toNat <<< 16 ||| b.toNat <<< 8) 3
  | a :: b :: c :: rest =>
      base64Chars (a.toNat <<< 16 ||| b.toNat <<< 8 ||| c.toNat) 4 ++ toBase64Url rest

/-! ## One step -/

theorem alphabet_idxOf? {value : Nat} (small : value < 64) :
    base64UrlAlphabet.idxOf? (base64Char value) = some value := by
  interval_cases value <;> decide

theorem push_bits (buffer : Nat) {value : Nat} (small : value < 64) :
    (buffer <<< 6 ||| value) &&& 0xFFFFFF = (buffer * 64 + value) % 2 ^ 24 := by
  rw [← Nat.shiftLeft_add_eq_or_of_lt small, Nat.shiftLeft_eq,
    show (0xFFFFFF : Nat) = 2 ^ 24 - 1 from rfl, Nat.and_two_pow_sub_one_eq_mod]

/-- Reading a character with at most one bit waiting gives no byte. -/
theorem base64Step_wait (buffer : Nat) (bytes : Bytes) {bits value : Nat} (small : value < 64)
    (few : bits < 2) : base64Step ⟨buffer, bits, bytes⟩ (base64Char value) =
      some ⟨(buffer * 64 + value) % 2 ^ 24, bits + 6, bytes⟩ := by
  have short : ¬ 8 ≤ bits + 6 := by omega
  simp only [base64Step, alphabet_idxOf? small, push_bits buffer small, if_neg short]

theorem base64Step_byte (buffer bits : Nat) (bytes : Bytes) {value : Nat} (small : value < 64)
    (byte : Nat) (same : (buffer * 64 + value) % 2 ^ 24 / 2 ^ bits % 256 = byte) :
    base64Step ⟨buffer, bits + 2, bytes⟩ (base64Char value) =
      some ⟨(buffer * 64 + value) % 2 ^ 24, bits, bytes ++ [byte.toUInt8]⟩ := by
  have long : 8 ≤ bits + 2 + 6 := by omega
  have left : bits + 2 + 6 - 8 = bits := by omega
  have low : ∀ number, (number &&& 0xFF).toUInt8 = (number % 256).toUInt8 := by
    intro number
    rw [show (0xFF : Nat) = 2 ^ 8 - 1 from rfl, Nat.and_two_pow_sub_one_eq_mod]
  simp only [base64Step, alphabet_idxOf? small, push_bits buffer small, if_pos long, left, low,
    Nat.shiftRight_eq_div_pow, same]

/-! ## Whole texts -/

theorem base64Chars_eq (chunk chars : Nat) : base64Chars chunk chars =
    (List.range chars).map fun c => base64Char (chunk / 2 ^ (18 - c * 6) % 64) := by
  apply List.map_congr_left
  intro c _
  rw [show (0x3F : Nat) = 2 ^ 6 - 1 from rfl, Nat.and_two_pow_sub_one_eq_mod,
    Nat.shiftRight_eq_div_pow]

theorem chunk_eq (a b c : UInt8) : a.toNat <<< 16 ||| b.toNat <<< 8 ||| c.toNat =
    a.toNat * 65536 + b.toNat * 256 + c.toNat := by
  have last := c.toNat_lt
  have middle := b.toNat_lt
  have low : b.toNat <<< 8 ||| c.toNat = b.toNat * 256 + c.toNat := by
    rw [← Nat.shiftLeft_add_eq_or_of_lt last, Nat.shiftLeft_eq]
  have below : b.toNat * 256 + c.toNat < 2 ^ 16 := by omega
  rw [Nat.or_assoc, low, ← Nat.shiftLeft_add_eq_or_of_lt below, Nat.shiftLeft_eq]
  omega

theorem toBase64Url_one (a : UInt8) : toBase64Url [a] =
    [base64Char (a.toNat / 4), base64Char (a.toNat % 4 * 16)] := by
  have bound := a.toNat_lt
  rw [toBase64Url, base64Chars_eq, Nat.shiftLeft_eq]
  have first : a.toNat * 2 ^ 16 / 2 ^ 18 % 64 = a.toNat / 4 := by omega
  have second : a.toNat * 2 ^ 16 / 2 ^ 12 % 64 = a.toNat % 4 * 16 := by omega
  simp only [List.range, List.range.loop, List.map_cons, List.map_nil, Nat.zero_mul, Nat.sub_zero,
    Nat.reduceMul, Nat.reduceSub, first, second]

theorem toBase64Url_two (a b : UInt8) : toBase64Url [a, b] =
    [base64Char (a.toNat / 4), base64Char (a.toNat % 4 * 16 + b.toNat / 16),
      base64Char (b.toNat % 16 * 4)] := by
  have boundA := a.toNat_lt
  have boundB := b.toNat_lt
  have chunk := chunk_eq a b 0
  rw [UInt8.toNat_zero, Nat.or_zero, Nat.add_zero] at chunk
  rw [toBase64Url, chunk, base64Chars_eq]
  have first : (a.toNat * 65536 + b.toNat * 256) / 2 ^ 18 % 64 = a.toNat / 4 := by omega
  have second : (a.toNat * 65536 + b.toNat * 256) / 2 ^ 12 % 64 =
      a.toNat % 4 * 16 + b.toNat / 16 := by omega
  have third : (a.toNat * 65536 + b.toNat * 256) / 2 ^ 6 % 64 = b.toNat % 16 * 4 := by omega
  simp only [List.range, List.range.loop, List.map_cons, List.map_nil, Nat.zero_mul, Nat.sub_zero,
    Nat.reduceMul, Nat.reduceSub, first, second, third]

theorem toBase64Url_three (a b c : UInt8) (rest : Bytes) : toBase64Url (a :: b :: c :: rest) =
    [base64Char (a.toNat / 4), base64Char (a.toNat % 4 * 16 + b.toNat / 16),
      base64Char (b.toNat % 16 * 4 + c.toNat / 64), base64Char (c.toNat % 64)] ++
        toBase64Url rest := by
  have boundA := a.toNat_lt
  have boundB := b.toNat_lt
  have boundC := c.toNat_lt
  rw [toBase64Url, chunk_eq, base64Chars_eq]
  generalize a.toNat = a at *
  generalize b.toNat = b at *
  generalize c.toNat = c at *
  have first : (a * 65536 + b * 256 + c) / 2 ^ 18 % 64 = a / 4 := by omega
  have second : (a * 65536 + b * 256 + c) / 2 ^ 12 % 64 = a % 4 * 16 + b / 16 := by omega
  have third : (a * 65536 + b * 256 + c) / 2 ^ 6 % 64 = b % 16 * 4 + c / 64 := by omega
  have fourth : (a * 65536 + b * 256 + c) / 2 ^ 0 % 64 = c % 64 := by omega
  simp only [List.range, List.range.loop, List.map_cons, List.map_nil, Nat.zero_mul, Nat.sub_zero,
    Nat.reduceMul, Nat.reduceSub, first, second, third, fourth]

theorem low_bits (buffer bits : Nat) : buffer &&& ((1 <<< bits) - 1) = buffer % 2 ^ bits := by
  rw [Nat.one_shiftLeft, Nat.and_two_pow_sub_one_eq_mod]

theorem toBase64Url_eq (bytes : Bytes) : toBase64Url bytes = (sextets bytes).map base64Char := by
  induction bytes using toBase64Url.induct with
  | case1 => rfl
  | case2 a => exact toBase64Url_one a
  | case3 a b => exact toBase64Url_two a b
  | case4 a b c rest induction =>
      rw [toBase64Url_three, induction, sextets, List.map_append]
      rfl

/-- The state after all values are read: their whole bytes, and the bits that wait after them. -/
def Decoded (values : List Nat) (read : Bytes) (state : Base64State) : Prop :=
  state.bytes = read ++ wholeBytes values ∧ state.buffer % 2 ^ state.bits = strayBits values

theorem decoded_values (values : List Nat) (small : ∀ value ∈ values, value < 64) (read : Bytes)
    (buffer : Nat) : ∃ state,
      (values.map base64Char).foldlM base64Step ⟨buffer, 0, read⟩ = some state ∧
        Decoded values read state := by
  induction values using wholeBytes.induct generalizing buffer read with
  | case1 => exact ⟨_, rfl, (List.append_nil _).symm, Nat.mod_one buffer⟩
  | case2 a =>
      have smallA := small a (by simp)
      let one := (buffer * 64 + a) % 2 ^ 24
      have first : base64Step ⟨buffer, 0, read⟩ _ = some ⟨one, 6, read⟩ :=
        base64Step_wait buffer read smallA Nat.zero_lt_two
      refine ⟨⟨one, 6, read⟩, ?_, (List.append_nil _).symm, show one % 2 ^ 6 = a by omega⟩
      simp only [List.map_cons, List.map_nil, List.foldlM_cons, List.foldlM_nil, first,
        Option.bind_eq_bind, Option.bind_some, Option.pure_def]
  | case3 a b =>
      have smallA := small a (by simp)
      have smallB := small b (by simp)
      let one := (buffer * 64 + a) % 2 ^ 24
      let two := (one * 64 + b) % 2 ^ 24
      let byte := a * 4 + b / 16
      have first : base64Step ⟨buffer, 0, read⟩ _ = some ⟨one, 6, read⟩ :=
        base64Step_wait buffer read smallA Nat.zero_lt_two
      have second : base64Step ⟨one, 6, read⟩ _ = some ⟨two, 4, read ++ [byte.toUInt8]⟩ :=
        base64Step_byte one 4 read smallB byte (by omega)
      refine ⟨⟨two, 4, read ++ [byte.toUInt8]⟩, ?_, rfl, show two % 2 ^ 4 = b % 16 by omega⟩
      simp only [List.map_cons, List.map_nil, List.foldlM_cons, List.foldlM_nil, first, second,
        Option.bind_eq_bind, Option.bind_some, Option.pure_def]
  | case4 a b c =>
      have smallA := small a (by simp)
      have smallB := small b (by simp)
      have smallC := small c (by simp)
      let one := (buffer * 64 + a) % 2 ^ 24
      let two := (one * 64 + b) % 2 ^ 24
      let three := (two * 64 + c) % 2 ^ 24
      let byte := a * 4 + b / 16
      let byte' := b % 16 * 16 + c / 4
      have first : base64Step ⟨buffer, 0, read⟩ _ = some ⟨one, 6, read⟩ :=
        base64Step_wait buffer read smallA Nat.zero_lt_two
      have second : base64Step ⟨one, 6, read⟩ _ = some ⟨two, 4, read ++ [byte.toUInt8]⟩ :=
        base64Step_byte one 4 read smallB byte (by omega)
      have third : base64Step ⟨two, 4, read ++ [byte.toUInt8]⟩ _ =
          some ⟨three, 2, read ++ [byte.toUInt8] ++ [byte'.toUInt8]⟩ :=
        base64Step_byte two 2 (read ++ [byte.toUInt8]) smallC byte' (by omega)
      refine ⟨⟨three, 2, read ++ [byte.toUInt8] ++ [byte'.toUInt8]⟩, ?_, List.append_assoc ..,
        show three % 2 ^ 2 = c % 4 by omega⟩
      simp only [List.map_cons, List.map_nil, List.foldlM_cons, List.foldlM_nil, first, second, third,
        Option.bind_eq_bind, Option.bind_some, Option.pure_def]
  | case5 a b c d rest induction =>
      have smallA := small a (by simp)
      have smallB := small b (by simp)
      have smallC := small c (by simp)
      have smallD := small d (by simp)
      let one := (buffer * 64 + a) % 2 ^ 24
      let two := (one * 64 + b) % 2 ^ 24
      let three := (two * 64 + c) % 2 ^ 24
      let four := (three * 64 + d) % 2 ^ 24
      let byte := a * 4 + b / 16
      let byte' := b % 16 * 16 + c / 4
      let byte'' := c % 4 * 64 + d
      have first : base64Step ⟨buffer, 0, read⟩ _ = some ⟨one, 6, read⟩ :=
        base64Step_wait buffer read smallA Nat.zero_lt_two
      have second : base64Step ⟨one, 6, read⟩ _ = some ⟨two, 4, read ++ [byte.toUInt8]⟩ :=
        base64Step_byte one 4 read smallB byte (by omega)
      have third : base64Step ⟨two, 4, read ++ [byte.toUInt8]⟩ _ =
          some ⟨three, 2, read ++ [byte.toUInt8] ++ [byte'.toUInt8]⟩ :=
        base64Step_byte two 2 (read ++ [byte.toUInt8]) smallC byte' (by omega)
      have fourth : base64Step ⟨three, 2, read ++ [byte.toUInt8] ++ [byte'.toUInt8]⟩ _ =
          some ⟨four, 0, read ++ [byte.toUInt8] ++ [byte'.toUInt8] ++ [byte''.toUInt8]⟩ :=
        base64Step_byte three 0 (read ++ [byte.toUInt8] ++ [byte'.toUInt8]) smallD byte'' (by omega)
      obtain ⟨state, folded, bytes, stray⟩ := induction
        (fun value member => small value (by simp [member]))
        (read ++ [byte.toUInt8] ++ [byte'.toUInt8] ++ [byte''.toUInt8]) four
      refine ⟨state, ?_, ?_, stray⟩
      · simp only [List.map_cons, List.foldlM_cons, first, second, third, fourth,
          Option.bind_eq_bind, Option.bind_some]
        exact folded
      · rw [bytes]
        simp only [List.append_assoc, List.cons_append, List.nil_append, wholeBytes]
        rfl

/-! ## The texts it reads -/

/-- The values of six bits that the units of a text stand for. -/
def base64Values (text : JsString) : List Nat := text.map (base64UrlAlphabet.idxOf ·)

def InAlphabet (text : JsString) : Prop := ∀ unit ∈ text, unit ∈ base64UrlAlphabet

variable {text : JsString} {bytes : Bytes}

theorem base64Char_idxOf {unit : UInt16} (member : unit ∈ base64UrlAlphabet) :
    base64Char (base64UrlAlphabet.idxOf unit) = unit := by
  have inside := List.idxOf_lt_length_of_mem member
  rw [base64Char, List.getD_eq_getElem?_getD, List.getElem?_eq_getElem inside, Option.getD_some,
    List.getElem_idxOf inside]

theorem base64Values_lt (inside : InAlphabet text) : ∀ value ∈ base64Values text, value < 64 := by
  intro value member
  obtain ⟨unit, found, rfl⟩ := List.mem_map.mp member
  exact List.idxOf_lt_length_of_mem (inside unit found)

theorem map_base64Values (inside : InAlphabet text) : (base64Values text).map base64Char = text := by
  rw [base64Values, List.map_map]
  refine (List.map_congr_left fun unit member => ?_).trans (List.map_id text)
  exact base64Char_idxOf (inside unit member)

theorem idxOf_base64Char {value : Nat} (small : value < 64) :
    base64UrlAlphabet.idxOf (base64Char value) = value := by
  have distinct : base64UrlAlphabet.Nodup := by decide
  have length : base64UrlAlphabet.length = 64 := by decide
  have inside : value < base64UrlAlphabet.length := length ▸ small
  rw [base64Char, List.getD_eq_getElem?_getD, List.getElem?_eq_getElem inside, Option.getD_some,
    distinct.idxOf_getElem]

theorem base64Values_toBase64Url (bytes : Bytes) :
    base64Values (toBase64Url bytes) = sextets bytes := by
  rw [toBase64Url_eq, base64Values, List.map_map]
  refine (List.map_congr_left fun value member => ?_).trans (List.map_id _)
  exact idxOf_base64Char (sextets_lt bytes value member)

theorem base64Char_mem {value : Nat} (small : value < 64) : base64Char value ∈ base64UrlAlphabet := by
  obtain ⟨inside, here, -⟩ := List.idxOf?_eq_some_iff.mp (alphabet_idxOf? small)
  exact List.mem_of_getElem here

theorem inAlphabet_toBase64Url (bytes : Bytes) : InAlphabet (toBase64Url bytes) := by
  rw [toBase64Url_eq]
  intro unit member
  obtain ⟨value, found, rfl⟩ := List.mem_map.mp member
  exact base64Char_mem (sextets_lt bytes value found)

theorem inAlphabet_of_foldlM {state final : Base64State}
    (decoded : text.foldlM base64Step state = some final) : InAlphabet text := by
  induction text generalizing state with
  | nil =>
      intro unit member
      cases member
  | cons first rest induction =>
      rw [List.foldlM_cons] at decoded
      obtain ⟨next, stepped, decoded⟩ := Option.bind_eq_some_iff.mp decoded
      refine List.forall_mem_cons.mpr ⟨?_, induction decoded⟩
      unfold base64Step at stepped
      split at stepped
      · cases stepped
      · rename_i value found
        obtain ⟨inside, here, -⟩ := List.idxOf?_eq_some_iff.mp found
        exact List.mem_of_getElem here

theorem inAlphabet_of_fromBase64Url (decoded : fromBase64Url text = some bytes) :
    InAlphabet text := by
  unfold fromBase64Url at decoded
  split at decoded
  · cases decoded
  · split at decoded
    · cases decoded
    · rename_i state folded
      exact inAlphabet_of_foldlM folded

theorem fromBase64Url_of_inAlphabet (inside : InAlphabet text) : fromBase64Url text =
    if text.length % 4 = 1 ∨ strayBits (base64Values text) ≠ 0 then none
    else some (wholeBytes (base64Values text)) := by
  obtain ⟨state, folded, same, stray⟩ := decoded_values _ (base64Values_lt inside) [] 0
  rw [map_base64Values inside] at folded
  by_cases short : text.length % 4 = 1
  · rw [fromBase64Url, if_pos short, if_pos (.inl short)]
  · rw [fromBase64Url, if_neg short, folded]
    simp only [low_bits, stray, short, false_or, same, List.nil_append]

/-- The texts that are read, and what they are read as. -/
theorem fromBase64Url_eq_some_iff : fromBase64Url text = some bytes ↔ InAlphabet text ∧
    text.length % 4 ≠ 1 ∧ strayBits (base64Values text) = 0 ∧
      wholeBytes (base64Values text) = bytes := by
  constructor
  · intro decoded
    have inside := inAlphabet_of_fromBase64Url decoded
    rw [fromBase64Url_of_inAlphabet inside] at decoded
    split at decoded
    · cases decoded
    · rename_i clean
      obtain ⟨short, stray⟩ := not_or.mp clean
      exact ⟨inside, short, not_not.mp stray, Option.some.inj decoded⟩
  · intro ⟨inside, short, stray, same⟩
    rw [fromBase64Url_of_inAlphabet inside, if_neg (not_or.mpr ⟨short, not_not.mpr stray⟩), same]

/-- The length of `new Uint8Array` before the loop is the number of bytes that it fills. -/
theorem length_of_fromBase64Url (decoded : fromBase64Url text = some bytes) :
    bytes.length = text.length * 6 / 8 := by
  obtain ⟨-, -, -, rfl⟩ := fromBase64Url_eq_some_iff.mp decoded
  rw [length_wholeBytes, base64Values, List.length_map]

/-- The round trip of base64url. -/
theorem fromBase64Url_toBase64Url (bytes : Bytes) :
    fromBase64Url (toBase64Url bytes) = some bytes := by
  have length : (toBase64Url bytes).length = (sextets bytes).length := by
    rw [toBase64Url_eq, List.length_map]
  rw [fromBase64Url_eq_some_iff, base64Values_toBase64Url, length]
  exact ⟨inAlphabet_toBase64Url bytes, length_sextets bytes, strayBits_sextets bytes,
    wholeBytes_sextets bytes⟩

theorem toBase64Url_of_fromBase64Url (decoded : fromBase64Url text = some bytes) :
    toBase64Url bytes = text := by
  obtain ⟨inside, short, stray, rfl⟩ := fromBase64Url_eq_some_iff.mp decoded
  have length : (base64Values text).length = text.length := List.length_map ..
  rw [toBase64Url_eq, sextets_wholeBytes (base64Values_lt inside) (length ▸ short) stray,
    map_base64Values inside]

/-- Each byte string has one spelling, and a text that is no spelling is rejected: one with a unit
that is not of the alphabet, of a length that no byte string gives, or with stray bits. -/
theorem base64Url_has_one_spelling (text : JsString) (bytes : Bytes) :
    fromBase64Url (toBase64Url bytes) = some bytes ∧
    (fromBase64Url text = some bytes ↔ toBase64Url bytes = text) ∧
    (fromBase64Url text = none ↔ ¬ InAlphabet text ∨ text.length % 4 = 1 ∨
      strayBits (base64Values text) ≠ 0) := by
  refine ⟨fromBase64Url_toBase64Url bytes, ⟨toBase64Url_of_fromBase64Url, ?_⟩, ?_⟩
  · rintro rfl
    exact fromBase64Url_toBase64Url bytes
  · by_cases inside : InAlphabet text
    · rw [fromBase64Url_of_inAlphabet inside]
      by_cases bad : text.length % 4 = 1 ∨ strayBits (base64Values text) ≠ 0
      · rw [if_pos bad]
        exact iff_of_true rfl (.inr bad)
      · rw [if_neg bad]
        exact iff_of_false (fun same => nomatch same) (not_or.mpr ⟨not_not.mpr inside, bad⟩)
    · have rejected : fromBase64Url text = none := by
        by_contra accepted
        obtain ⟨read, decoded⟩ := Option.ne_none_iff_exists'.mp accepted
        exact inside (inAlphabet_of_fromBase64Url decoded)
      exact iff_of_true rejected (.inl inside)

end Tapes.Provenance
