import Tapes.Provenance.CanonicalJson

namespace Tapes.Provenance

open Tapes.Js

/-! Byte encodings, signed statements, and their signatures and addresses. -/

/-- What the platform supplies to the statement checks.  `importKey` says
whether WebCrypto takes the raw bytes as an Ed25519 public key, and `dateParse`
is `Date.parse`, none for NaN. -/
structure Platform where
  sha256 : Bytes → Bytes
  importKey : Bytes → Bool
  verify : (key signature message : Bytes) → Bool
  dateParse : JsString → Option Int

/-! ## Encodings -/

def base64UrlAlphabet : JsString :=
  js "ABCDEFGHIJKLMNOPQRSTUVWXYZabcdefghijklmnopqrstuvwxyz0123456789-_"

/-- The state of the decoding loop over the text's units. -/
structure Base64State where
  buffer : Nat
  bits : Nat
  bytes : Bytes
deriving DecidableEq

def base64Step (state : Base64State) (unit : UInt16) : Option Base64State :=
  match base64UrlAlphabet.idxOf? unit with
  | none => none
  | some value =>
      let buffer := (state.buffer <<< 6 ||| value) &&& 0xFFFFFF
      let bits := state.bits + 6
      if 8 ≤ bits then
        some ⟨buffer, bits - 8, state.bytes ++ [((buffer >>> (bits - 8)) &&& 0xFF).toUInt8]⟩
      else some ⟨buffer, bits, state.bytes⟩

def fromBase64Url (text : JsString) : Option Bytes :=
  if text.length % 4 = 1 then none
  else
    match text.foldlM base64Step ⟨0, 0, []⟩ with
    | none => none
    | some state =>
        if state.buffer &&& ((1 <<< state.bits) - 1) ≠ 0 then none else some state.bytes

def hexByte (byte : UInt8) : JsString := [hexDigit (byte.toNat / 16), hexDigit (byte.toNat % 16)]

def sha256Hex (platform : Platform) (bytes : Bytes) : JsString :=
  (platform.sha256 bytes).flatMap hexByte

/-! ## Signed statements -/

structure Signed (α : Type u) where
  payload : α
  signature : JsString
deriving DecidableEq

/-- The wrapper as the plain object that is serialized. -/
def Signed.toValue (signed : Signed JsValue) : JsValue :=
  .object [(js "payload", signed.payload), (js "signature", .string signed.signature)]

def parseSignedStatement (bytes : Bytes) : Option (Signed JsValue) := do
  let text ← utf8DecodeFatal bytes
  let value ← parse text
  match value with
  | .object members =>
      let signature ← (JsValue.lookup (js "signature") members).string?
      if value.hasKey (js "payload") then
        return ⟨JsValue.lookup (js "payload") members, signature⟩
      else none
  | _ => none

def statementType (signed : Signed JsValue) : JsValue := signed.payload.get (js "type")

/-- None where `canonicalJson` throws. -/
def statementBytes (signed : Signed JsValue) : Option Bytes :=
  (canonicalJson signed.toValue).map utf8Encode

/-- The raw bytes of a key the platform imports. -/
def importPublicKey (platform : Platform) (text : JsString) : Option Bytes := do
  let raw ← fromBase64Url text
  if raw.length = 32 ∧ platform.importKey raw then some raw else none

def verifyStatement (platform : Platform) (signed : Signed JsValue) (publicKey : JsString) : Bool :=
  match importPublicKey platform publicKey, fromBase64Url signed.signature,
      canonicalJson signed.payload with
  | some key, some signature, some text =>
      decide (signature.length = 64) && platform.verify key signature (utf8Encode text)
  | _, _, _ => false

/-- The MIME type a signed statement is stored under. -/
def statementMimeType : JsString := js "application/json"

end Tapes.Provenance
