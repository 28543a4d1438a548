import Mathlib.Data.List.Basic

namespace Tapes.Js

/-! ECMAScript strings and their UTF-8 form.

A string is a sequence of UTF-16 code units.  It need not be well formed: a
lone surrogate is an ordinary element, and `wellFormed` says when there is none.
-/

/-- An ECMAScript string value: UTF-16 code units, lone surrogates included. -/
abbrev JsString := List UInt16

abbrev Bytes := List UInt8

/-- By name, so that no definition holds a proof of it. -/
instance lawfulBEqJsString : LawfulBEq JsString := inferInstance

/-- Tried before the instance that goes through every value of a finite type. -/
instance decidableForallMem {α : Type u} {p : α → Prop} [DecidablePred p] (items : List α) :
    Decidable (∀ item ∈ items, p item) :=
  List.decidableBAll p items

/-- The code units of one Unicode scalar value. -/
def utf16Units (c : Char) : JsString :=
  if c.toNat < 0x10000 then [c.toNat.toUInt16]
  else
    [(0xD800 + (c.toNat - 0x10000) / 0x400).toUInt16,
      (0xDC00 + (c.toNat - 0x10000) % 0x400).toUInt16]

/-- The string value of a source literal. -/
def js (literal : String) : JsString := literal.toList.flatMap utf16Units

def isHighSurrogate (unit : UInt16) : Bool :=
  decide (0xD800 ≤ unit) && decide (unit ≤ 0xDBFF)

def isLowSurrogate (unit : UInt16) : Bool :=
  decide (0xDC00 ≤ unit) && decide (unit ≤ 0xDFFF)

/-- No lone surrogate. -/
def wellFormed : JsString → Bool
  | [] => true
  | [unit] => !isHighSurrogate unit && !isLowSurrogate unit
  | unit :: next :: rest =>
      if isHighSurrogate unit then
        isLowSurrogate next && wellFormed rest
      else
        !isLowSurrogate unit && wellFormed (next :: rest)

/-- Code-unit order, as the `<` operator on strings. -/
def lessThan : JsString → JsString → Bool
  | [], [] => false
  | [], _ :: _ => true
  | _ :: _, [] => false
  | left :: lefts, right :: rights =>
      if left < right then true
      else if right < left then false
      else lessThan lefts rights

/-- White space and line terminators, as `String.prototype.trim` removes them. -/
def isWhiteSpace (unit : UInt16) : Bool :=
  unit ∈ ([0x09, 0x0A, 0x0B, 0x0C, 0x0D, 0x20, 0xA0, 0x1680, 0x2028, 0x2029,
    0x202F, 0x205F, 0x3000, 0xFEFF] : List UInt16) ||
  (decide (0x2000 ≤ unit) && decide (unit ≤ 0x200A))

/-- The UTF-8 bytes of one code point below `0x110000`. -/
def utf8Bytes (point : Nat) : Bytes :=
  if point < 0x80 then [point.toUInt8]
  else if point < 0x800 then
    [(0xC0 + point / 0x40).toUInt8, (0x80 + point % 0x40).toUInt8]
  else if point < 0x10000 then
    [(0xE0 + point / 0x1000).toUInt8, (0x80 + point / 0x40 % 0x40).toUInt8,
      (0x80 + point % 0x40).toUInt8]
  else
    [(0xF0 + point / 0x40000).toUInt8, (0x80 + point / 0x1000 % 0x40).toUInt8,
      (0x80 + point / 0x40 % 0x40).toUInt8, (0x80 + point % 0x40).toUInt8]

/-- The code point of a surrogate pair. -/
def pairPoint (high low : UInt16) : Nat :=
  0x10000 + (high.toNat - 0xD800) * 0x400 + (low.toNat - 0xDC00)

/-- `TextEncoder.encode`: a lone surrogate becomes U+FFFD. -/
def utf8Encode : JsString → Bytes
  | [] => []
  | [unit] =>
      if isHighSurrogate unit || isLowSurrogate unit then utf8Bytes 0xFFFD
      else utf8Bytes unit.toNat
  | unit :: next :: rest =>
      if isHighSurrogate unit && isLowSurrogate next then
        utf8Bytes (pairPoint unit next) ++ utf8Encode rest
      else if isHighSurrogate unit || isLowSurrogate unit then
        utf8Bytes 0xFFFD ++ utf8Encode (next :: rest)
      else utf8Bytes unit.toNat ++ utf8Encode (next :: rest)

/-- The code units of one code point. -/
def pointUnits (point : Nat) : JsString :=
  if point < 0x10000 then [point.toUInt16]
  else
    [(0xD800 + (point - 0x10000) / 0x400).toUInt16,
      (0xDC00 + (point - 0x10000) % 0x400).toUInt16]

def isContinuation (byte : UInt8) : Bool :=
  decide (0x80 ≤ byte) && decide (byte ≤ 0xBF)

/-- UTF-8 decoding that refuses ill-formed bytes: overlong forms, surrogates,
points past U+10FFFF and broken sequences. -/
def utf8DecodeStrict : Bytes → Option JsString
  | [] => some []
  | a :: rest =>
      if a < 0x80 then
        (utf8DecodeStrict rest).map (pointUnits a.toNat ++ ·)
      else match rest with
        | [] => none
        | b :: rest =>
            if !isContinuation b then none
            else if 0xC2 ≤ a && a ≤ 0xDF then
              (utf8DecodeStrict rest).map
                (pointUnits ((a.toNat - 0xC0) * 0x40 + (b.toNat - 0x80)) ++ ·)
            else match rest with
              | [] => none
              | c :: rest =>
                  if !isContinuation c then none
                  else if 0xE0 ≤ a && a ≤ 0xEF then
                    let point := (a.toNat - 0xE0) * 0x1000 + (b.toNat - 0x80) * 0x40 +
                      (c.toNat - 0x80)
                    if point < 0x800 || (0xD800 ≤ point && point ≤ 0xDFFF) then none
                    else (utf8DecodeStrict rest).map (pointUnits point ++ ·)
                  else match rest with
                    | [] => none
                    | d :: rest =>
                        if !isContinuation d then none
                        else if 0xF0 ≤ a && a ≤ 0xF4 then
                          let point := (a.toNat - 0xF0) * 0x40000 + (b.toNat - 0x80) * 0x1000 +
                            (c.toNat - 0x80) * 0x40 + (d.toNat - 0x80)
                          if point < 0x10000 || 0x10FFFF < point then none
                          else (utf8DecodeStrict rest).map (pointUnits point ++ ·)
                        else none

/-- `new TextDecoder('utf-8', { fatal: true }).decode`: one leading byte order
mark is dropped, and ill-formed bytes throw. -/
def utf8DecodeFatal (bytes : Bytes) : Option JsString :=
  match bytes with
  | 0xEF :: 0xBB :: 0xBF :: rest => utf8DecodeStrict rest
  | _ => utf8DecodeStrict bytes

end Tapes.Js
