import Tapes.Js.Base64
import Tapes.Provenance.Base64Url

namespace Tapes.Provenance

open Tapes.Js

/-! base64url by way of `btoa` and `atob`. -/

variable {text : JsString}

def toStandard (unit : UInt16) : UInt16 :=
  if unit = 0x2D then 0x2B else if unit = 0x5F then 0x2F else unit

def toUrlSafe (unit : UInt16) : UInt16 :=
  if unit = 0x2B then 0x2D else if unit = 0x2F then 0x5F else unit

theorem toStandard_mem {unit : UInt16} (member : unit ∈ base64UrlAlphabet) :
    toStandard unit ∈ base64Alphabet ∧
      base64Alphabet.idxOf (toStandard unit) = base64UrlAlphabet.idxOf unit := by
  have all : ∀ unit ∈ base64UrlAlphabet, toStandard unit ∈ base64Alphabet ∧
      base64Alphabet.idxOf (toStandard unit) = base64UrlAlphabet.idxOf unit := by decide
  exact all unit member

theorem toUrlSafe_getD {value : Nat} (small : value < 64) :
    toUrlSafe (base64Alphabet.getD value 0) = base64Char value := by
  interval_cases value <;> decide

theorem standardText_eq (text : JsString) : standardText text = text.map toStandard :=
  replaceAll_replaceAll text (by decide)

theorem atob_standardText (inside : InAlphabet text) (whole : text.length % 4 ≠ 1) :
    atob (standardText text ++ padding text.length) =
      some (binaryText (wholeBytes (base64Values text))) := by
  have length : (text.map toStandard).length = text.length := List.length_map ..
  have alphabet : ∀ unit ∈ text.map toStandard, unit ∈ base64Alphabet := by
    intro unit member
    obtain ⟨spelled, found, rfl⟩ := List.mem_map.mp member
    exact (toStandard_mem (inside spelled found)).1
  have values : (text.map toStandard).map (base64Alphabet.idxOf ·) = base64Values text := by
    rw [List.map_map]
    exact List.map_congr_left fun unit member => (toStandard_mem (inside unit member)).2
  have read := atob_padded alphabet (length ▸ whole)
  rwa [values, length, ← standardText_eq] at read

theorem urlSafeText_padded (bytes : Bytes) :
    urlSafeText ((sextets bytes).map (base64Alphabet.getD · 0) ++ padding (sextets bytes).length) =
      toBase64Url bytes := by
  have safe : ((sextets bytes).map (base64Alphabet.getD · 0)).map toUrlSafe = toBase64Url bytes := by
    rw [toBase64Url_eq, List.map_map]
    exact List.map_congr_left fun value member => toUrlSafe_getD (sextets_lt bytes value member)
  have pads (length : Nat) : (padding length).map toUrlSafe = padding length := List.map_replicate
  have spelled (unit : UInt16) (member : unit ∈ toBase64Url bytes) : unit ≠ 0x3D := by
    have all : ∀ unit ∈ base64UrlAlphabet, unit ≠ 0x3D := by decide
    exact all unit (inAlphabet_toBase64Url bytes unit member)
  have replaced (padded : JsString) : replaceAll (replaceAll padded 0x2B 0x2D) 0x2F 0x5F =
      padded.map toUrlSafe := replaceAll_replaceAll padded (by decide)
  rw [urlSafeText, replaced, List.map_append, safe, pads, stripPadding_padded spelled]

end Tapes.Provenance
