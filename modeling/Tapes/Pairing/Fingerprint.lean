import Tapes.Provenance.BackupText
import Tapes.Provenance.WebBase64

namespace Tapes.Pairing

open Tapes.Js
open Tapes.Provenance (trim hexByte toBase64Url InAlphabet)

/-! The fingerprint of the host's root certificate: base64url in the pairing link, hex for people. -/

/-! ## Hex -/

/-- `toLowerCase`. No unit beyond ASCII is lowered to a hex digit. -/
def toLowerCase (text : JsString) : JsString :=
  text.map fun unit => if 0x41 ≤ unit ∧ unit ≤ 0x5A then unit + 0x20 else unit

def lowerHexDigits : JsString := js "0123456789abcdef"

/-- `[0-9a-fA-F:]`. -/
def hexDigitsAndColon : JsString := js "0123456789abcdefABCDEF:"

def hexDigitValue (unit : UInt16) : Nat :=
  if unit ≤ 0x39 then unit.toNat - 0x30 else unit.toNat - 0x57

def parsePairs : JsString → Bytes
  | high :: low :: rest => (hexDigitValue high * 16 + hexDigitValue low).toUInt8 :: parsePairs rest
  | [_] | [] => []

def hexToBytes (hex : JsString) : Option Bytes :=
  let normalized := toLowerCase hex
  if normalized.length = 64 ∧ ∀ unit ∈ normalized, unit ∈ lowerHexDigits then
    some (parsePairs normalized)
  else none

def toHex (bytes : Bytes) : JsString := bytes.flatMap hexByte

def withoutColons (text : JsString) : JsString := text.filter (· ≠ 0x3A)

/-! ## The link's spelling -/

/-- None when it throws. -/
def encodeFingerprint (fingerprint : JsString) : Option JsString :=
  (hexToBytes (withoutColons fingerprint)).bind fun bytes =>
    (btoa (binaryText bytes)).map urlSafeText

def decodeFingerprint (value : JsString) : Option JsString :=
  let trimmed := trim value
  if trimmed = [] then none
  else if ∀ unit ∈ trimmed, unit ∈ hexDigitsAndColon then
    let hex := toLowerCase (withoutColons trimmed)
    (hexToBytes hex).map fun _ => hex
  else
    match atob (standardText trimmed ++ padding trimmed.length) with
    | none => none
    | some binary => if binary.length ≠ 32 then none else some (toHex (charCodes binary))

/-! ## Reading it back -/

variable {text : JsString} {bytes : Bytes}

theorem hexDigit_hexDigitValue {unit : UInt16} (digit : unit ∈ lowerHexDigits) :
    hexDigitValue unit < 16 ∧ hexDigit (hexDigitValue unit) = unit := by
  have all : ∀ unit ∈ lowerHexDigits, hexDigitValue unit < 16 ∧
      hexDigit (hexDigitValue unit) = unit := by decide
  exact all unit digit

theorem toHex_parsePairs (digits : ∀ unit ∈ text, unit ∈ lowerHexDigits)
    (even : text.length % 2 = 0) : toHex (parsePairs text) = text := by
  induction text using parsePairs.induct with
  | case1 high low rest induction =>
      obtain ⟨highSmall, highDigit⟩ := hexDigit_hexDigitValue (digits high (by simp))
      obtain ⟨lowSmall, lowDigit⟩ := hexDigit_hexDigitValue (digits low (by simp))
      have later := induction (fun unit member => digits unit (by simp [member]))
        (by simp only [List.length_cons] at even; omega)
      have byte : (hexDigitValue high * 16 + hexDigitValue low).toUInt8.toNat =
          hexDigitValue high * 16 + hexDigitValue low := toNat_toUInt8 (by omega)
      have first : (hexDigitValue high * 16 + hexDigitValue low) / 16 = hexDigitValue high := by omega
      have second : (hexDigitValue high * 16 + hexDigitValue low) % 16 = hexDigitValue low := by omega
      rw [toHex] at later
      simp only [parsePairs, toHex, List.flatMap_cons, hexByte, byte, first, second, highDigit,
        lowDigit, later, List.cons_append, List.nil_append]
  | case2 unit => exact absurd even (by simp)
  | case3 => rfl

theorem length_parsePairs (text : JsString) : (parsePairs text).length = text.length / 2 := by
  induction text using parsePairs.induct with
  | case1 high low rest induction =>
      simp only [parsePairs, List.length_cons, induction]
      omega
  | case2 unit => simp [parsePairs]
  | case3 => rfl

theorem toLowerCase_of_digits (digits : ∀ unit ∈ text, unit ∈ lowerHexDigits) :
    toLowerCase text = text := by
  have all : ∀ unit ∈ lowerHexDigits, ¬ (0x41 ≤ unit ∧ unit ≤ 0x5A) := by decide
  refine (List.map_congr_left fun unit member => ?_).trans (List.map_id text)
  exact if_neg (all unit (digits unit member))

/-- What is a hex digit when lowered is one in either case. -/
theorem mem_hexDigitsAndColon {unit : UInt16}
    (digit : (if 0x41 ≤ unit ∧ unit ≤ 0x5A then unit + 0x20 else unit) ∈ lowerHexDigits) :
    unit ∈ hexDigitsAndColon := by
  split at digit
  · rename_i upper
    rw [UInt16.le_iff_toNat_le, UInt16.le_iff_toNat_le] at upper
    obtain ⟨low, high⟩ : 65 ≤ unit.toNat ∧ unit.toNat ≤ 90 := upper
    have same : unit = unit.toNat.toUInt16 := (UInt16.ofNat_toNat).symm
    revert digit
    rw [same]
    interval_cases unit.toNat <;> decide
  · have all : ∀ unit ∈ lowerHexDigits, unit ∈ hexDigitsAndColon := by decide
    exact all unit digit

/-- A spelling of 32 bytes in hex is lowered to their hex form. -/
theorem hexToBytes_eq_some (spelled : hexToBytes text = some bytes) :
    toLowerCase text = toHex bytes ∧ bytes.length = 32 ∧
      ∀ unit ∈ text, unit ∈ hexDigitsAndColon := by
  unfold hexToBytes at spelled
  simp only at spelled
  split at spelled
  · rename_i normal
    obtain ⟨length, digits⟩ := normal
    cases spelled
    refine ⟨(toHex_parsePairs digits (by omega)).symm, by rw [length_parsePairs, length], ?_⟩
    intro unit member
    exact mem_hexDigitsAndColon (digits _ (List.mem_map_of_mem member))
  · cases spelled

theorem toHex_digits (bytes : Bytes) : ∀ unit ∈ toHex bytes, unit ∈ lowerHexDigits := by
  intro unit member
  obtain ⟨byte, _, inside⟩ := List.mem_flatMap.mp member
  have all : ∀ value < 16, hexDigit value ∈ lowerHexDigits := by decide
  have bound := byte.toNat_lt
  simp only [hexByte, List.mem_cons, List.not_mem_nil, or_false] at inside
  rcases inside with rfl | rfl
  · exact all _ (by omega)
  · exact all _ (by omega)

theorem length_toHex (bytes : Bytes) : (toHex bytes).length = 2 * bytes.length := by
  induction bytes with
  | nil => rfl
  | cons byte rest induction =>
      rw [toHex] at induction ⊢
      simp only [List.flatMap_cons, List.length_append, induction, hexByte, List.length_cons,
        List.length_nil]
      omega

theorem isSome_hexToBytes_toHex (length : bytes.length = 32) :
    (hexToBytes (toHex bytes)).isSome := by
  have digits := toHex_digits bytes
  rw [hexToBytes, toLowerCase_of_digits digits, length_toHex, length, if_pos ⟨rfl, digits⟩]
  rfl

theorem decodeFingerprint_hex (spelled : hexToBytes (withoutColons text) = some bytes) :
    decodeFingerprint text = some (toHex bytes) := by
  obtain ⟨lowered, length, digits⟩ := hexToBytes_eq_some spelled
  have units : ∀ unit ∈ text, unit ∈ hexDigitsAndColon := by
    intro unit member
    by_cases colon : unit = 0x3A
    · rw [colon]
      decide
    · exact digits unit (List.mem_filter.mpr ⟨member, by simpa using colon⟩)
  have solid : ∀ unit ∈ text, isWhiteSpace unit = false := by
    have all : ∀ unit ∈ hexDigitsAndColon, isWhiteSpace unit = false := by decide
    exact fun unit member => all unit (units unit member)
  have nonempty : text ≠ [] := by
    rintro rfl
    have none : hexToBytes (withoutColons []) = none := by decide
    rw [none] at spelled
    cases spelled
  obtain ⟨read, accepted⟩ := Option.isSome_iff_exists.mp (isSome_hexToBytes_toHex length)
  simp only [decodeFingerprint, Provenance.trim_of_not_white nonempty solid, if_neg nonempty,
    if_pos units, lowered, accepted, Option.map_some]

theorem encodeFingerprint_eq (spelled : hexToBytes (withoutColons text) = some bytes) :
    encodeFingerprint text = some (toBase64Url bytes) := by
  rw [encodeFingerprint, spelled, Option.bind_some, btoa_binaryText, Option.map_some,
    Provenance.urlSafeText_padded]

theorem length_toBase64Url (length : bytes.length = 32) : (toBase64Url bytes).length = 43 := by
  have read := Provenance.length_of_fromBase64Url (Provenance.fromBase64Url_toBase64Url bytes)
  omega

/-- The link's spelling of 32 bytes is taken for hex where it has hex digits only. -/
theorem decodeFingerprint_link (length : bytes.length = 32) :
    decodeFingerprint (toBase64Url bytes) =
      if ∀ unit ∈ toBase64Url bytes, unit ∈ hexDigitsAndColon then none
      else some (toHex bytes) := by
  have units := length_toBase64Url length
  have nonempty : toBase64Url bytes ≠ [] := List.ne_nil_of_length_pos (by omega)
  have whole : (toBase64Url bytes).length % 4 ≠ 1 := by omega
  have read := Provenance.atob_standardText (Provenance.inAlphabet_toBase64Url bytes) whole
  rw [Provenance.base64Values_toBase64Url, wholeBytes_sextets] at read
  have same : (binaryText bytes).length = 32 := (List.length_map _).trans length
  simp only [decodeFingerprint, Provenance.trim_of_not_white nonempty
    (Provenance.toBase64Url_not_white bytes), if_neg nonempty, read, same, ne_eq, not_true, if_false,
    charCodes_binaryText]
  split
  · have long : ¬ (toLowerCase (toLowerCase (withoutColons (toBase64Url bytes)))).length = 64 := by
      have fewer : (withoutColons (toBase64Url bytes)).length ≤ 43 :=
        units ▸ List.length_filter_le ..
      simp only [toLowerCase, List.length_map]
      omega
    rw [hexToBytes]
    simp only [long, false_and, if_false, Option.map_none]
  · rfl

/-! ## The property -/

/-- The link gives the fingerprint back as lowercase hex, as every other spelling of the bytes does. -/
def Survives (fingerprint : JsString) : Prop :=
  ∃ link, encodeFingerprint fingerprint = some link ∧
    decodeFingerprint link = some (toLowerCase (withoutColons fingerprint)) ∧
    ∀ other, hexToBytes (withoutColons other) = hexToBytes (withoutColons fingerprint) →
      decodeFingerprint other = decodeFingerprint link

theorem fingerprint_survives_iff (fingerprint : JsString) (bytes : Bytes)
    (spelled : hexToBytes (withoutColons fingerprint) = some bytes) :
    Survives fingerprint ↔ ∃ unit ∈ toBase64Url bytes, unit ∉ hexDigitsAndColon := by
  obtain ⟨lowered, length, -⟩ := hexToBytes_eq_some spelled
  have encoded := encodeFingerprint_eq spelled
  have decoded := decodeFingerprint_link length
  constructor
  · intro ⟨link, isLink, back, _⟩
    rw [encoded, Option.some.injEq] at isLink
    rw [← isLink, decoded] at back
    split at back
    · cases back
    · rename_i others
      simpa only [not_forall, exists_prop] using others
  · intro ⟨unit, member, other⟩
    rw [if_neg fun all => other (all unit member)] at decoded
    refine ⟨toBase64Url bytes, encoded, decoded.trans (congrArg some lowered.symm), ?_⟩
    intro another same
    rw [decodeFingerprint_hex (same.trans spelled), decoded]

/-! Samples: the fingerprint of 32 bytes that are all one, and all zero. -/

def allOnes : JsString := List.replicate 64 0x46

theorem fingerprint_of_ones_survives : Survives allOnes := by
  have spelled : hexToBytes (withoutColons allOnes) = some (List.replicate 32 0xFF) := by decide
  exact (fingerprint_survives_iff allOnes _ spelled).mpr ⟨0x5F, by decide, by decide⟩

def allZeros : JsString := List.replicate 64 0x30

/-- The link has 43 times an A. -/
theorem fingerprint_of_zeros_is_lost : (hexToBytes (withoutColons allZeros)).isSome ∧
    ¬ Survives allZeros := by
  refine ⟨by decide, ?_⟩
  intro ⟨link, isLink, back, _⟩
  have encoded : encodeFingerprint allZeros = some (List.replicate 43 0x41) := by decide
  have lost : decodeFingerprint (List.replicate 43 0x41) = none := by decide
  rw [encoded, Option.some.injEq] at isLink
  rw [← isLink, lost] at back
  cases back

end Tapes.Pairing
