import Tapes.Js.Number
import Tapes.Js.OrderedMap

namespace Tapes.Js

/-! Plain JSON data, `JSON.stringify` and `JSON.parse`. -/

/-- The plain data a program builds and serializes.  `undefined` is here because
an optional member may hold it; `parse` never returns it. -/
inductive JsValue where
  | undefined
  | null
  | boolean (value : Bool)
  | number (value : JsNumber)
  | string (value : JsString)
  | array (items : List JsValue)
  | object (members : List (JsString × JsValue))

namespace JsValue

/-- The member of an own property list, `undefined` when there is none. -/
def lookup (key : JsString) : List (JsString × JsValue) → JsValue
  | [] => .undefined
  | (name, value) :: rest => if name = key then value else lookup key rest

/-- `value[key]` for a key no prototype defines. -/
def get (value : JsValue) (key : JsString) : JsValue :=
  match value with
  | .object members => lookup key members
  | _ => .undefined

def hasKey (value : JsValue) (key : JsString) : Bool :=
  match value with
  | .object members => members.any (·.1 = key)
  | _ => false

def string? : JsValue → Option JsString
  | .string value => some value
  | _ => none

def number? : JsValue → Option JsNumber
  | .number value => some value
  | _ => none

def array? : JsValue → Option (List JsValue)
  | .array items => some items
  | _ => none

/-- `typeof value === 'object' && value !== null`. -/
def isObjectLike : JsValue → Bool
  | .array _ | .object _ => true
  | _ => false

def isUndefined : JsValue → Bool
  | .undefined => true
  | _ => false

end JsValue

/-! ## JSON.stringify -/

def hexDigit (value : Nat) : UInt16 :=
  if value < 10 then (0x30 + value).toUInt16 else (0x57 + value).toUInt16

/-- The escape `\uXXXX`, in lowercase hex. -/
def unicodeEscape (unit : UInt16) : JsString :=
  [0x5C, 0x75, hexDigit (unit.toNat / 0x1000), hexDigit (unit.toNat / 0x100 % 0x10),
    hexDigit (unit.toNat / 0x10 % 0x10), hexDigit (unit.toNat % 0x10)]

/-- One code unit that is no part of a surrogate pair, as QuoteJSONString
writes it. -/
def quoteUnit (unit : UInt16) : JsString :=
  if unit = 0x22 then [0x5C, 0x22]
  else if unit = 0x5C then [0x5C, 0x5C]
  else if unit = 0x08 then [0x5C, 0x62]
  else if unit = 0x0C then [0x5C, 0x66]
  else if unit = 0x0A then [0x5C, 0x6E]
  else if unit = 0x0D then [0x5C, 0x72]
  else if unit = 0x09 then [0x5C, 0x74]
  else if unit < 0x20 || isHighSurrogate unit || isLowSurrogate unit then unicodeEscape unit
  else [unit]

def quoteUnits : JsString → JsString
  | [] => []
  | [unit] => quoteUnit unit
  | unit :: next :: rest =>
      if isHighSurrogate unit && isLowSurrogate next then
        unit :: next :: quoteUnits rest
      else quoteUnit unit ++ quoteUnits (next :: rest)

/-- QuoteJSONString: a lone surrogate is escaped, a pair is kept. -/
def quote (text : JsString) : JsString := [0x22] ++ quoteUnits text ++ [0x22]

def joinComma : List JsString → JsString
  | [] => []
  | [text] => text
  | text :: next :: rest => text ++ [0x2C] ++ joinComma (next :: rest)

def stringifyNumber : JsNumber → JsString
  | .finite negative magnitude => numberText (.finite negative magnitude)
  | _ => js "null"

mutual

/-- `JSON.stringify` of a value other than `undefined`, without indentation. -/
def stringify : JsValue → JsString
  | .undefined => js "null"
  | .null => js "null"
  | .boolean value => js (if value then "true" else "false")
  | .number value => stringifyNumber value
  | .string value => quote value
  | .array items => [0x5B] ++ joinComma (stringifyItems items) ++ [0x5D]
  | .object members => [0x7B] ++ joinComma (stringifyMembers members) ++ [0x7D]

/-- An `undefined` item is written as `null`. -/
def stringifyItems : List JsValue → List JsString
  | [] => []
  | item :: rest => stringify item :: stringifyItems rest

/-- An `undefined` member is left out. -/
def stringifyMembers : List (JsString × JsValue) → List JsString
  | [] => []
  | (key, value) :: rest =>
      if value.isUndefined then stringifyMembers rest
      else (quote key ++ [0x3A] ++ stringify value) :: stringifyMembers rest

end

/-! ## JSON.parse -/

def isJsonSpace (unit : UInt16) : Bool :=
  unit = 0x20 || unit = 0x09 || unit = 0x0A || unit = 0x0D

def skipSpace : JsString → JsString
  | [] => []
  | unit :: rest => if isJsonSpace unit then skipSpace rest else unit :: rest

def hexValue (unit : UInt16) : Option Nat :=
  if 0x30 ≤ unit && unit ≤ 0x39 then some (unit.toNat - 0x30)
  else if 0x61 ≤ unit && unit ≤ 0x66 then some (unit.toNat - 0x57)
  else if 0x41 ≤ unit && unit ≤ 0x46 then some (unit.toNat - 0x37)
  else none

/-- The code unit four hex digits name. -/
def hexUnit (a b c d : UInt16) : Option UInt16 := do
  let a ← hexValue a
  let b ← hexValue b
  let c ← hexValue c
  let d ← hexValue d
  return (a * 0x1000 + b * 0x100 + c * 0x10 + d).toUInt16

def simpleEscape (unit : UInt16) : Option UInt16 :=
  if unit = 0x22 || unit = 0x5C || unit = 0x2F then some unit
  else if unit = 0x62 then some 0x08
  else if unit = 0x66 then some 0x0C
  else if unit = 0x6E then some 0x0A
  else if unit = 0x72 then some 0x0D
  else if unit = 0x74 then some 0x09
  else none

/-- The rest of a string literal, after its opening quote. -/
def parseString : JsString → Option (JsString × JsString)
  | [] => none
  | unit :: rest =>
      if unit = 0x22 then some ([], rest)
      else if unit = 0x5C then
        match rest with
        | [] => none
        | escape :: rest =>
            if escape = 0x75 then
              match rest with
              | a :: b :: c :: d :: rest => do
                  let unit ← hexUnit a b c d
                  let (units, rest) ← parseString rest
                  return (unit :: units, rest)
              | _ => none
            else do
              let unit ← simpleEscape escape
              let (units, rest) ← parseString rest
              return (unit :: units, rest)
      else if unit < 0x20 then none
      else do
        let (units, rest) ← parseString rest
        return (unit :: units, rest)

/-- Removes `word` from the front. -/
def dropWord : JsString → JsString → Option JsString
  | [], text => some text
  | _ :: _, [] => none
  | unit :: word, head :: text => if unit = head then dropWord word text else none

mutual

/-- One value from the front of the text, spaces before it skipped. -/
def parseValue : Nat → JsString → Option (JsValue × JsString)
  | 0, _ => none
  | fuel + 1, text =>
      match skipSpace text with
      | [] => none
      | unit :: rest =>
          if unit = 0x7B then
            match skipSpace rest with
            | 0x7D :: rest => some (.object [], rest)
            | rest => parseMembers fuel [] rest
          else if unit = 0x5B then
            match skipSpace rest with
            | 0x5D :: rest => some (.array [], rest)
            | rest => parseItems fuel [] rest
          else if unit = 0x22 then
            (parseString rest).map fun (value, rest) => (.string value, rest)
          else if unit = 0x74 then
            (dropWord (js "rue") rest).map fun rest => (.boolean true, rest)
          else if unit = 0x66 then
            (dropWord (js "alse") rest).map fun rest => (.boolean false, rest)
          else if unit = 0x6E then
            (dropWord (js "ull") rest).map fun rest => (.null, rest)
          else (parseNumber (unit :: rest)).map fun (value, rest) => (.number value, rest)

/-- Array items up to the closing bracket, after the ones already read. -/
def parseItems : Nat → List JsValue → JsString → Option (JsValue × JsString)
  | 0, _, _ => none
  | fuel + 1, items, text =>
      match parseValue fuel text with
      | none => none
      | some (item, rest) =>
          match skipSpace rest with
          | 0x2C :: rest => parseItems fuel (items ++ [item]) rest
          | 0x5D :: rest => some (.array (items ++ [item]), rest)
          | _ => none

/-- Object members up to the closing brace, after the ones already read. -/
def parseMembers : Nat → List (JsString × JsValue) → JsString → Option (JsValue × JsString)
  | 0, _, _ => none
  | fuel + 1, members, text =>
      match skipSpace text with
      | 0x22 :: rest =>
          match parseString rest with
          | none => none
          | some (key, rest) =>
              match skipSpace rest with
              | 0x3A :: rest =>
                  match parseValue fuel rest with
                  | none => none
                  | some (value, rest) =>
                      match skipSpace rest with
                      | 0x2C :: rest => parseMembers fuel (setEntry members key value) rest
                      | 0x7D :: rest => some (.object (setEntry members key value), rest)
                      | _ => none
              | _ => none
      | _ => none

end

/-- `JSON.parse`, or none where it throws. Between two code units read there are at
most two calls, so the fuel is enough. -/
def parse (text : JsString) : Option JsValue :=
  match parseValue (2 * text.length + 2) text with
  | some (value, rest) => if skipSpace rest = [] then some value else none
  | none => none

end Tapes.Js
