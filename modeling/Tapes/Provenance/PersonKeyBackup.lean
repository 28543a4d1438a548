import Mathlib.Data.List.DropRight
import Tapes.Js.JsonIndent
import Tapes.Provenance.Base64Url

namespace Tapes.Provenance

open Tapes.Js

/-! A wrapped copy of a person key: one binary record, and the text and the file around it. -/

def backupFormatVersion : Nat := 1

def backupTextPrefix : JsString := js "TPK1."

def backupFileFormat : JsString := js "tapes-person-key-backup"

def unlockPassphrase : Nat := 1

def unlockPasskey : Nat := 2

def maxCredentialIdLength : Nat := 1023

def rpIdHashLength : Nat := 32

def saltLength : Nat := 16

def nonceLength : Nat := 12

def publicKeyLength : Nat := 32

def ciphertextLength : Nat := 48

def fixedLength : Nat := saltLength + nonceLength + publicKeyLength + ciphertextLength

def passphraseRecordLength : Nat := 2 + 6 + fixedLength

def passkeyRecordLength (credentialIdLength : Nat) : Nat :=
  2 + rpIdHashLength + 2 + credentialIdLength + fixedLength

structure Argon2idParams where
  memoryKiB : Nat
  iterations : Nat
  parallelism : Nat
deriving DecidableEq

inductive UnlockMethod where
  | passphrase (kdf : Argon2idParams)
  | passkey (rpIdHash credentialId : Bytes)
deriving DecidableEq

def UnlockMethod.method : UnlockMethod → Nat
  | .passphrase _ => unlockPassphrase
  | .passkey _ _ => unlockPasskey

/-- Everything except the ciphertext. -/
structure BackupHeader where
  version : Nat
  unlock : UnlockMethod
  salt : Bytes
  nonce : Bytes
  publicKey : Bytes
deriving DecidableEq

structure PersonKeyBackup extends BackupHeader where
  ciphertext : Bytes
deriving DecidableEq

inductive BackupProblem where
  | notABackup
  | newerVersion
  | damaged
  | unsupportedMethod
deriving DecidableEq

/-! ## Numbers as bytes -/

/-- The 32 bits that a bitwise operator sees of a number. -/
def int32 (value : Nat) : BitVec 32 := BitVec.ofNat 32 value

/-- `bits & 0xff` as an element of a `Uint8Array`. -/
def lowByte (bits : BitVec 32) : UInt8 := (bits &&& 0xFF#32).toNat.toUInt8

def u16 (value : Nat) : Bytes := [lowByte (int32 value >>> 8), lowByte (int32 value)]

def u32 (value : Nat) : Bytes :=
  [lowByte (int32 value >>> 24), lowByte (int32 value >>> 16), lowByte (int32 value >>> 8),
    lowByte (int32 value)]

/-- The element at an index, as a bitwise operator sees it: 0 past the end. -/
def elementBits (bytes : Bytes) (index : Nat) : BitVec 32 := int32 (bytes.getD index 0).toNat

/-- `>>> 0` reads the bits as an unsigned number. -/
def readU16 (bytes : Bytes) : Nat := (elementBits bytes 0 <<< 8 ||| elementBits bytes 1).toNat

def readU32 (bytes : Bytes) : Nat :=
  (elementBits bytes 0 <<< 24 ||| elementBits bytes 1 <<< 16 ||| elementBits bytes 2 <<< 8 |||
    elementBits bytes 3).toNat

/-! ## The binary form -/

def UnlockMethod.params : UnlockMethod → Bytes
  | .passphrase kdf => u32 kdf.memoryKiB ++ [kdf.iterations.toUInt8, kdf.parallelism.toUInt8]
  | .passkey rpIdHash credentialId => rpIdHash ++ u16 credentialId.length ++ credentialId

/-- The additional data of the cipher. -/
def encodeHeader (backup : BackupHeader) : Bytes :=
  [backup.version.toUInt8, backup.unlock.method.toUInt8] ++ backup.unlock.params ++ backup.salt ++
    backup.nonce ++ backup.publicKey

def encodeBackup (backup : PersonKeyBackup) : Bytes :=
  encodeHeader backup.toBackupHeader ++ backup.ciphertext

/-- `take(length)` at an offset. -/
def slice (bytes : Bytes) (offset length : Nat) : Bytes := (bytes.drop offset).take length

/-- The fields behind the method's parameters, which end at `offset`. -/
def decodeFixed (bytes : Bytes) (unlock : UnlockMethod) (offset : Nat) : PersonKeyBackup where
  version := backupFormatVersion
  unlock := unlock
  salt := slice bytes offset saltLength
  nonce := slice bytes (offset + saltLength) nonceLength
  publicKey := slice bytes (offset + saltLength + nonceLength) publicKeyLength
  ciphertext := slice bytes (offset + saltLength + nonceLength + publicKeyLength) ciphertextLength

def decodePassphrase (bytes : Bytes) : Except BackupProblem PersonKeyBackup :=
  if bytes.length ≠ passphraseRecordLength then .error .damaged
  else
    let memoryKiB := readU32 (slice bytes 2 4)
    let iterations := ((slice bytes 6 2).getD 0 0).toNat
    let parallelism := ((slice bytes 6 2).getD 1 0).toNat
    if memoryKiB < 8 * 1024 ∨ 1024 * 1024 < memoryKiB ∨ iterations < 1 ∨ parallelism < 1 then
      .error .unsupportedMethod
    else .ok (decodeFixed bytes (.passphrase ⟨memoryKiB, iterations, parallelism⟩) 8)

def decodePasskey (bytes : Bytes) : Except BackupProblem PersonKeyBackup :=
  if bytes.length < 2 + rpIdHashLength + 2 then .error .damaged
  else
    let rpIdHash := slice bytes 2 rpIdHashLength
    let credentialIdLength := readU16 (slice bytes (2 + rpIdHashLength) 2)
    if credentialIdLength < 1 ∨ maxCredentialIdLength < credentialIdLength ∨
        bytes.length ≠ passkeyRecordLength credentialIdLength then .error .damaged
    else
      let credentialId := slice bytes (2 + rpIdHashLength + 2) credentialIdLength
      .ok (decodeFixed bytes (.passkey rpIdHash credentialId)
        (2 + rpIdHashLength + 2 + credentialIdLength))

def decodeBackup (bytes : Bytes) : Except BackupProblem PersonKeyBackup :=
  if bytes.length < 2 then .error .damaged
  else if (bytes.getD 0 0).toNat ≠ backupFormatVersion then .error .newerVersion
  else if (bytes.getD 1 0).toNat = unlockPassphrase then decodePassphrase bytes
  else if (bytes.getD 1 0).toNat = unlockPasskey then decodePasskey bytes
  else .error .unsupportedMethod

/-! ## Text and file -/

def backupToText (backup : PersonKeyBackup) : JsString :=
  backupTextPrefix ++ toBase64Url (encodeBackup backup)

def backupHelp (backup : PersonKeyBackup) : JsString :=
  js <| match backup.unlock with
  | .passkey _ _ =>
      "Tapes person key record. To restore it, open Tapes and pick this file. " ++
        "You also need the passkey that made it."
  | .passphrase _ =>
      "Tapes person key backup. To restore it, open Tapes and pick this file. " ++
        "You also need your passphrase."

def backupFile (backup : PersonKeyBackup) (createdAt : JsString) : List (JsString × JsValue) :=
  [(js "format", .string backupFileFormat), (js "version", .number (.finite false .one)),
    (js "createdAt", .string createdAt),
    (js "publicKey", .string (toBase64Url backup.publicKey)),
    (js "backup", .string (backupToText backup)), (js "help", .string (backupHelp backup))]

/-- `createdAt` is the time as `toISOString` writes it. -/
def backupToFileText (backup : PersonKeyBackup) (createdAt : JsString) : JsString :=
  stringifyIndented (js "  ") [] (.object (backupFile backup createdAt)) ++ js "\n"

/-- `String.prototype.trim`. -/
def trim (text : JsString) : JsString := (text.dropWhile isWhiteSpace).rdropWhile isWhiteSpace

def parseCompact (text : JsString) : Except BackupProblem PersonKeyBackup :=
  if ¬ js "TPK" <+: text then .error .notABackup
  else if ¬ backupTextPrefix <+: text then .error .newerVersion
  else
    match fromBase64Url (text.drop backupTextPrefix.length) with
    | some bytes => decodeBackup bytes
    | none => .error .damaged

def parseBackupText (text : JsString) : Except BackupProblem PersonKeyBackup :=
  let trimmed := trim text
  if ¬ js "\x7b" <+: trimmed then parseCompact trimmed
  else
    match parse trimmed with
    | none => .error .notABackup
    | some json =>
        if (json.get (js "format")).string? ≠ some backupFileFormat then .error .notABackup
        else
          match (json.get (js "backup")).string? with
          | some backup => parseCompact (trim backup)
          | none => .error .damaged

end Tapes.Provenance
