import Mathlib.Data.List.Sort
import Tapes.Js.Json

namespace Tapes.Provenance

open Tapes.Js

/-! `canonicalJson` (RFC 8785) and the byte encodings of statements. -/

/-- The order of the default sort: by code units. -/
def keyOrder (left right : JsString × JsString) : Bool := !lessThan right.1 left.1

mutual

/-- The canonical text, or none where the source throws. -/
def canonicalJson : JsValue → Option JsString
  | .undefined => none
  | .null => some (js "null")
  | .boolean value => some (js (if value then "true" else "false"))
  | .number (.finite negative magnitude) => some (numberText (.finite negative magnitude))
  | .number _ => none
  | .string value => if wellFormed value then some (quote value) else none
  | .array items => do
      let items ← canonicalItems items
      return [0x5B] ++ joinComma items ++ [0x5D]
  | .object members => do
      let members ← canonicalMembers members
      return [0x7B] ++ joinComma ((members.insertionSort (keyOrder · ·)).map Prod.snd) ++ [0x7D]

def canonicalItems : List JsValue → Option (List JsString)
  | [] => some []
  | item :: rest => do
      let item ← canonicalJson item
      let rest ← canonicalItems rest
      return item :: rest

/-- Each kept key with the text of its member. -/
def canonicalMembers : List (JsString × JsValue) → Option (List (JsString × JsString))
  | [] => some []
  | (key, value) :: rest =>
      if value.isUndefined then canonicalMembers rest
      else if wellFormed key then do
        let text ← canonicalJson value
        let rest ← canonicalMembers rest
        return (key, quote key ++ [0x3A] ++ text) :: rest
      else none

end

end Tapes.Provenance
