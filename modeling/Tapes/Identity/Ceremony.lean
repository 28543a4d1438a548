import Tapes.Provenance.WebBase64

namespace Tapes.Identity.Ceremony

open Tapes.Js
open Tapes.Provenance (base64UrlAlphabet base64Values InAlphabet atob_standardText urlSafeText_padded)

/-! The base64url of the passkey page, which has no module to share with the rest, against the one of
the provenance package. -/

/-! ## The page's codec -/

/-- A throwing `btoa` would throw. -/
def toBase64Url (bytes : Bytes) : Option JsString :=
  (btoa (binaryText bytes)).map urlSafeText

/-- `/[A-Za-z0-9_-]/`. -/
def isBase64UrlUnit (unit : UInt16) : Bool :=
  0x41 ≤ unit && unit ≤ 0x5A || 0x61 ≤ unit && unit ≤ 0x7A || 0x30 ≤ unit && unit ≤ 0x39 ||
    unit = 0x5F || unit = 0x2D

def fromBase64Url (text : JsString) : Option Bytes :=
  if !text.all isBase64UrlUnit || text.length % 4 = 1 then none
  else
    let padded := standardText text
    (atob (padded ++ padding padded.length)).map charCodes

def maxCredentialIdLength : Nat := 1023

def decodeCredentialId (text : JsString) : Option Bytes :=
  (fromBase64Url text).filter fun bytes => 0 < bytes.length && bytes.length ≤ maxCredentialIdLength

/-! ## Against the provenance package -/

variable {text : JsString} {bytes : Bytes}

theorem isBase64UrlUnit_iff {unit : UInt16} :
    isBase64UrlUnit unit = true ↔ unit ∈ base64UrlAlphabet := by
  constructor
  · intro isUnit
    simp only [isBase64UrlUnit, Bool.or_eq_true, Bool.and_eq_true, decide_eq_true_eq,
      UInt16.le_iff_toNat_le] at isUnit
    have same : unit = unit.toNat.toUInt16 := (UInt16.ofNat_toNat).symm
    rcases isUnit with (((upper | lower) | digit) | rfl) | rfl
    · obtain ⟨low, high⟩ : 65 ≤ unit.toNat ∧ unit.toNat ≤ 90 := upper
      rw [same]
      interval_cases unit.toNat <;> decide
    · obtain ⟨low, high⟩ : 97 ≤ unit.toNat ∧ unit.toNat ≤ 122 := lower
      rw [same]
      interval_cases unit.toNat <;> decide
    · obtain ⟨low, high⟩ : 48 ≤ unit.toNat ∧ unit.toNat ≤ 57 := digit
      rw [same]
      interval_cases unit.toNat <;> decide
    · decide
    · decide
  · have all : ∀ unit ∈ base64UrlAlphabet, isBase64UrlUnit unit = true := by decide
    exact all unit

theorem inAlphabet_iff : InAlphabet text ↔ text.all isBase64UrlUnit = true := by
  rw [List.all_eq_true]
  exact forall₂_congr fun unit _ => isBase64UrlUnit_iff.symm

/-- The page reads every text of the alphabet of a length that bytes give, whatever its stray bits. -/
theorem fromBase64Url_of_inAlphabet (inside : InAlphabet text) (whole : text.length % 4 ≠ 1) :
    fromBase64Url text = some (wholeBytes (base64Values text)) := by
  have units : text.all isBase64UrlUnit = true := inAlphabet_iff.mp inside
  have length : (standardText text).length = text.length := length_standardText text
  have read := atob_standardText inside whole
  rw [← length] at read
  simp only [fromBase64Url, units, whole, Bool.not_true, Bool.false_or, decide_false,
    Bool.false_eq_true, if_false]
  rw [read, Option.map_some, charCodes_binaryText]

theorem fromBase64Url_of_not_inAlphabet (outside : ¬ InAlphabet text) :
    fromBase64Url text = none := by
  have units : text.all isBase64UrlUnit = false := by
    rw [← Bool.not_eq_true, ← inAlphabet_iff]
    exact outside
  simp only [fromBase64Url, units, Bool.not_false, Bool.true_or, if_true]

theorem toBase64Url_eq (bytes : Bytes) :
    toBase64Url bytes = some (Provenance.toBase64Url bytes) := by
  rw [toBase64Url, btoa_binaryText, Option.map_some]
  exact congrArg some (urlSafeText_padded bytes)

/-- The two packages read the text alike, and spell the bytes alike. -/
def Agree (text : JsString) (bytes : Bytes) : Prop :=
  fromBase64Url text = Provenance.fromBase64Url text ∧
    toBase64Url bytes = some (Provenance.toBase64Url bytes)

/-- The text would be base64url if its last unit had no bits beyond the last byte. -/
def HasStrayBits (text : JsString) : Prop :=
  InAlphabet text ∧ text.length % 4 ≠ 1 ∧ strayBits (base64Values text) ≠ 0

theorem codecs_agree_iff (text : JsString) (bytes : Bytes) :
    Agree text bytes ↔ ¬ HasStrayBits text := by
  have spell : Agree text bytes ↔ fromBase64Url text = Provenance.fromBase64Url text :=
    and_iff_left (toBase64Url_eq bytes)
  rw [spell]
  by_cases inside : InAlphabet text
  · rw [Provenance.fromBase64Url_of_inAlphabet inside]
    by_cases whole : text.length % 4 = 1
    · have rejected : fromBase64Url text = none := by
        simp only [fromBase64Url, whole, decide_true, Bool.or_true, if_true]
      rw [rejected, if_pos (.inl whole)]
      exact iff_of_true rfl fun stray => stray.2.1 whole
    · rw [fromBase64Url_of_inAlphabet inside whole]
      by_cases stray : strayBits (base64Values text) = 0
      · rw [if_neg (not_or.mpr ⟨whole, not_not.mpr stray⟩)]
        exact iff_of_true rfl fun has => has.2.2 stray
      · rw [if_pos (.inr stray)]
        exact iff_of_false (fun same => nomatch same) (not_not.mpr ⟨inside, whole, stray⟩)
  · have rejected : Provenance.fromBase64Url text = none := by
      by_contra accepted
      obtain ⟨read, decoded⟩ := Option.ne_none_iff_exists'.mp accepted
      exact inside (Provenance.inAlphabet_of_fromBase64Url decoded)
    rw [fromBase64Url_of_not_inAlphabet inside, rejected]
    exact iff_of_true rfl fun has => inside has.1

/-- `AB` is read as the byte that `AA` spells. -/
theorem page_reads_a_second_spelling : ¬ (∀ text bytes, Agree text bytes) ∧
    decodeCredentialId (js "AB") = decodeCredentialId (js "AA") ∧
      Provenance.fromBase64Url (js "AB") = none := by
  refine ⟨fun agree => ?_, by decide, by decide⟩
  have same := (agree (js "AB") []).1
  revert same
  decide

end Tapes.Identity.Ceremony
