import Tapes.Provenance.PersonKeyBackup

namespace Tapes.Provenance

open Tapes.Js

/-! Every well-formed backup is read back from each of its forms, and each has one byte form. -/

/-! ## Numbers as bytes -/

theorem lowByte_toNat (bits : BitVec 32) : (lowByte bits).toNat = bits.toNat % 256 := by
  have low : bits.toNat &&& 255 = bits.toNat % 256 := Nat.and_two_pow_sub_one_eq_mod bits.toNat 8
  simp [lowByte, BitVec.toNat_and, low]

theorem int32_toNat {value : Nat} (small : value < 2 ^ 32) : (int32 value).toNat = value := by
  rw [int32, BitVec.toNat_ofNat, Nat.mod_eq_of_lt small]

theorem shifted_toNat {value : Nat} (small : value < 2 ^ 32) (shift : Nat) :
    (int32 value >>> shift).toNat = value / 2 ^ shift := by
  rw [BitVec.toNat_ushiftRight, int32_toNat small, Nat.shiftRight_eq_div_pow]

@[simp] theorem length_u16 (value : Nat) : (u16 value).length = 2 := rfl

@[simp] theorem length_u32 (value : Nat) : (u32 value).length = 4 := rfl

theorem elementBits_shift (bytes : Bytes) (index shift : Nat) (fits : shift ≤ 24) :
    (elementBits bytes index <<< shift).toNat = (bytes.getD index 0).toNat * 2 ^ shift := by
  have below := (bytes.getD index 0).toNat_lt
  have power : 2 ^ shift ≤ 2 ^ 24 := Nat.pow_le_pow_right (by decide) fits
  have product : (bytes.getD index 0).toNat * 2 ^ shift < 2 ^ 8 * 2 ^ 24 :=
    Nat.mul_lt_mul_of_lt_of_le below power (by decide)
  rw [BitVec.toNat_shiftLeft, elementBits, int32_toNat (by omega), Nat.shiftLeft_eq,
    Nat.mod_eq_of_lt (by omega)]

/-- Disjoint bits add up. -/
theorem or_eq_add {high low : Nat} (bits : Nat) (small : low < 2 ^ bits) :
    high * 2 ^ bits ||| low = high * 2 ^ bits + low := by
  rw [← Nat.shiftLeft_eq, Nat.shiftLeft_add_eq_or_of_lt small]

theorem readU16_eq (a b : UInt8) : readU16 [a, b] = a.toNat * 256 + b.toNat := by
  have below := b.toNat_lt
  have first := elementBits_shift [a, b] 0 8 (by decide)
  have second := elementBits_shift [a, b] 1 0 (by decide)
  simp only [List.getD_cons_zero, List.getD_cons_succ, BitVec.shiftLeft_zero, pow_zero,
    mul_one] at first second
  rw [readU16, BitVec.toNat_or, first, second]
  exact or_eq_add 8 below

theorem readU32_eq (a b c d : UInt8) : readU32 [a, b, c, d] =
    a.toNat * 2 ^ 24 + b.toNat * 2 ^ 16 + c.toNat * 2 ^ 8 + d.toNat := by
  have below_b := b.toNat_lt
  have below_c := c.toNat_lt
  have below_d := d.toNat_lt
  have first := elementBits_shift [a, b, c, d] 0 24 (by decide)
  have second := elementBits_shift [a, b, c, d] 1 16 (by decide)
  have third := elementBits_shift [a, b, c, d] 2 8 (by decide)
  have fourth := elementBits_shift [a, b, c, d] 3 0 (by decide)
  simp only [List.getD_cons_zero, List.getD_cons_succ, BitVec.shiftLeft_zero, pow_zero,
    mul_one] at first second third fourth
  rw [readU32, BitVec.toNat_or, BitVec.toNat_or, BitVec.toNat_or, first, second, third, fourth,
    Nat.or_assoc, Nat.or_assoc, or_eq_add 8 below_d, or_eq_add 16 (by omega),
    or_eq_add 24 (by omega)]
  omega

theorem readU16_u16 {value : Nat} (small : value < 2 ^ 16) : readU16 (u16 value) = value := by
  rw [u16, readU16_eq, lowByte_toNat, lowByte_toNat, shifted_toNat (by omega),
    int32_toNat (by omega)]
  omega

theorem readU32_u32 {value : Nat} (small : value < 2 ^ 32) : readU32 (u32 value) = value := by
  rw [u32, readU32_eq, lowByte_toNat, lowByte_toNat, lowByte_toNat, lowByte_toNat,
    shifted_toNat small, shifted_toNat small, shifted_toNat small, int32_toNat small]
  omega

theorem u16_readU16 (a b : UInt8) : u16 (readU16 [a, b]) = [a, b] := by
  have below_a := a.toNat_lt
  have below_b := b.toNat_lt
  rw [readU16_eq, u16]
  congr 1
  · apply UInt8.toNat_inj.mp
    rw [lowByte_toNat, shifted_toNat (by omega)]
    omega
  · congr 1
    apply UInt8.toNat_inj.mp
    rw [lowByte_toNat, int32_toNat (by omega)]
    omega

theorem u32_readU32 (a b c d : UInt8) : u32 (readU32 [a, b, c, d]) = [a, b, c, d] := by
  have below_a := a.toNat_lt
  have below_b := b.toNat_lt
  have below_c := c.toNat_lt
  have below_d := d.toNat_lt
  have small : readU32 [a, b, c, d] < 2 ^ 32 := by
    rw [readU32_eq]
    omega
  have byte (shift : Nat) (element : UInt8)
      (same : readU32 [a, b, c, d] / 2 ^ shift % 256 = element.toNat) :
      lowByte (int32 (readU32 [a, b, c, d]) >>> shift) = element := by
    apply UInt8.toNat_inj.mp
    rw [lowByte_toNat, shifted_toNat small, same]
  have last : lowByte (int32 (readU32 [a, b, c, d])) = d := by
    apply UInt8.toNat_inj.mp
    rw [lowByte_toNat, int32_toNat small, readU32_eq]
    omega
  rw [u32, byte 24 a (by rw [readU32_eq]; omega), byte 16 b (by rw [readU32_eq]; omega),
    byte 8 c (by rw [readU32_eq]; omega), last]

/-! ## Slices -/

theorem slice_append (before field after : Bytes) {offset length : Nat}
    (begins : before.length = offset) (long : field.length = length) :
    slice (before ++ (field ++ after)) offset length = field := by
  subst begins long
  rw [slice, List.drop_left, List.take_left]

theorem slice_join (bytes : Bytes) (offset length further : Nat) :
    slice bytes offset length ++ slice bytes (offset + length) further =
      slice bytes offset (length + further) := by
  rw [slice, slice, slice, ← List.drop_drop, ← List.take_add]

theorem slice_whole (bytes : Bytes) : slice bytes 0 bytes.length = bytes := by
  rw [slice, List.drop_zero, List.take_length]

theorem length_slice (bytes : Bytes) (offset length : Nat)
    (within : offset + length ≤ bytes.length) : (slice bytes offset length).length = length := by
  rw [slice, List.length_take, List.length_drop]
  omega

theorem slice_two (bytes : Bytes) (offset : Nat) (within : offset + 2 ≤ bytes.length) :
    ∃ a b, slice bytes offset 2 = [a, b] :=
  List.length_eq_two.mp (length_slice bytes offset 2 within)

theorem slice_four (bytes : Bytes) (offset : Nat) (within : offset + 4 ≤ bytes.length) :
    ∃ a b c d, slice bytes offset 4 = [a, b, c, d] := by
  have long := length_slice bytes offset 4 within
  match split : slice bytes offset 4 with
  | [a, b, c, d] => exact ⟨a, b, c, d, rfl⟩
  | [] | [_] | [_, _] | [_, _, _] | _ :: _ :: _ :: _ :: _ :: _ => simp [split] at long

/-! ## Well-formed backups -/

def UnlockMethod.WellFormed : UnlockMethod → Prop
  | .passphrase kdf =>
      8192 ≤ kdf.memoryKiB ∧ kdf.memoryKiB ≤ 1048576 ∧ 1 ≤ kdf.iterations ∧ kdf.iterations ≤ 255 ∧
        1 ≤ kdf.parallelism ∧ kdf.parallelism ≤ 255
  | .passkey rpIdHash credentialId =>
      rpIdHash.length = 32 ∧ 1 ≤ credentialId.length ∧ credentialId.length ≤ 1023

structure BackupHeader.WellFormed (header : BackupHeader) : Prop where
  version : header.version = 1
  unlock : header.unlock.WellFormed
  salt : header.salt.length = 16
  nonce : header.nonce.length = 12
  publicKey : header.publicKey.length = 32

/-- The fields have the format's version and lengths. -/
structure PersonKeyBackup.WellFormed (backup : PersonKeyBackup) : Prop where
  header : backup.toBackupHeader.WellFormed
  ciphertext : backup.ciphertext.length = 48

def UnlockMethod.lead (unlock : UnlockMethod) : Bytes :=
  [(1 : UInt8), unlock.method.toUInt8] ++ unlock.params

/-- The layout of a record: what the method decides, and then four fields of fixed length. -/
theorem encodeBackup_layout {backup : PersonKeyBackup} (version : backup.version = 1) :
    encodeBackup backup = backup.unlock.lead ++
      (backup.salt ++ (backup.nonce ++ (backup.publicKey ++ backup.ciphertext))) := by
  simp [encodeBackup, encodeHeader, version, UnlockMethod.lead]

theorem decodeFixed_layout {backup : PersonKeyBackup} (wellFormed : backup.WellFormed)
    {lead : Bytes} {offset : Nat} (begins : lead.length = offset) :
    decodeFixed (lead ++ (backup.salt ++ (backup.nonce ++ (backup.publicKey ++ backup.ciphertext))))
      backup.unlock offset = backup := by
  obtain ⟨⟨version, _, salt, nonce, publicKey⟩, ciphertext⟩ := wellFormed
  have second : (lead ++ backup.salt).length = offset + saltLength := by
    simp [begins, salt, saltLength]
  have third : (lead ++ backup.salt ++ backup.nonce).length = offset + saltLength + nonceLength := by
    simp [nonce, nonceLength, begins, salt, saltLength]
  have fourth : (lead ++ backup.salt ++ backup.nonce ++ backup.publicKey).length =
      offset + saltLength + nonceLength + publicKeyLength := by
    simp [publicKey, publicKeyLength, begins, salt, nonce, saltLength, nonceLength]
  have salts := slice_append lead backup.salt
    (backup.nonce ++ (backup.publicKey ++ backup.ciphertext)) begins salt
  have nonces := slice_append (lead ++ backup.salt) backup.nonce
    (backup.publicKey ++ backup.ciphertext) second nonce
  have keys := slice_append (lead ++ backup.salt ++ backup.nonce) backup.publicKey backup.ciphertext
    third publicKey
  have ends := slice_append (lead ++ backup.salt ++ backup.nonce ++ backup.publicKey)
    backup.ciphertext [] fourth ciphertext
  simp only [List.append_assoc, List.append_nil] at nonces keys ends
  simp only [decodeFixed, saltLength, nonceLength, publicKeyLength, ciphertextLength] at *
  rw [salts, nonces, keys, ends, backupFormatVersion, ← version]

/-- A record is what is before the fixed fields, and then those. -/
theorem fields_of_decodeFixed {bytes : Bytes} (unlock : UnlockMethod) {offset : Nat}
    (whole : bytes.length = offset + fixedLength) :
    slice bytes 0 offset ++ ((decodeFixed bytes unlock offset).salt ++
      ((decodeFixed bytes unlock offset).nonce ++ ((decodeFixed bytes unlock offset).publicKey ++
        (decodeFixed bytes unlock offset).ciphertext))) = bytes := by
  simp only [decodeFixed, slice_join]
  have all := slice_join bytes 0 offset
    (saltLength + (nonceLength + (publicKeyLength + ciphertextLength)))
  have long : offset + (saltLength + (nonceLength + (publicKeyLength + ciphertextLength))) =
      bytes.length := by
    rw [whole]
    rfl
  rw [Nat.zero_add, long, slice_whole] at all
  exact all

theorem wellFormed_decodeFixed {bytes : Bytes} {unlock : UnlockMethod} {offset : Nat}
    (whole : bytes.length = offset + fixedLength) (supported : unlock.WellFormed) :
    (decodeFixed bytes unlock offset).WellFormed := by
  simp only [fixedLength, saltLength, nonceLength, publicKeyLength, ciphertextLength] at whole
  refine ⟨⟨rfl, supported, ?_, ?_, ?_⟩, ?_⟩
  · exact length_slice bytes _ _ (by simp only [saltLength]; omega)
  · exact length_slice bytes _ _ (by simp only [saltLength, nonceLength]; omega)
  · exact length_slice bytes _ _ (by simp only [saltLength, nonceLength, publicKeyLength]; omega)
  · exact length_slice bytes _ _ (by
      simp only [saltLength, nonceLength, publicKeyLength, ciphertextLength]
      omega)

/-! ## Reading what was encoded -/

/-- The fields of fixed length, as one run of bytes. -/
def PersonKeyBackup.fixed (backup : PersonKeyBackup) : Bytes :=
  backup.salt ++ (backup.nonce ++ (backup.publicKey ++ backup.ciphertext))

theorem PersonKeyBackup.WellFormed.length_fixed {backup : PersonKeyBackup}
    (wellFormed : backup.WellFormed) : backup.fixed.length = fixedLength := by
  simp [PersonKeyBackup.fixed, wellFormed.header.salt, wellFormed.header.nonce,
    wellFormed.header.publicKey, wellFormed.ciphertext, fixedLength, saltLength, nonceLength,
    publicKeyLength, ciphertextLength]

theorem toUInt8_toNat {value : Nat} (small : value ≤ 255) : value.toUInt8.toNat = value := by
  rw [Nat.toUInt8, UInt8.toNat_ofNat']
  omega

theorem decodePassphrase_encoded {backup : PersonKeyBackup} {kdf : Argon2idParams}
    (wellFormed : backup.WellFormed) (unlock : backup.unlock = .passphrase kdf) :
    decodePassphrase (backup.unlock.lead ++ backup.fixed) = .ok backup := by
  have supported := wellFormed.header.unlock
  rw [unlock] at supported
  obtain ⟨memory_low, memory_high, iterations_low, iterations_high, parallelism_low,
    parallelism_high⟩ := supported
  have lead : backup.unlock.lead = [(1 : UInt8), 1] ++ (u32 kdf.memoryKiB ++
      [kdf.iterations.toUInt8, kdf.parallelism.toUInt8]) := by
    rw [unlock]
    rfl
  have long : (backup.unlock.lead ++ backup.fixed).length = passphraseRecordLength := by
    rw [List.length_append, wellFormed.length_fixed, lead]
    rfl
  have memory : slice (backup.unlock.lead ++ backup.fixed) 2 4 = u32 kdf.memoryKiB := by
    rw [lead, List.append_assoc, List.append_assoc]
    exact slice_append [1, 1] _ _ rfl rfl
  have settings : slice (backup.unlock.lead ++ backup.fixed) 6 2 =
      [kdf.iterations.toUInt8, kdf.parallelism.toUInt8] := by
    rw [lead, ← List.append_assoc, List.append_assoc]
    exact slice_append ([1, 1] ++ u32 kdf.memoryKiB) _ _ rfl rfl
  have fields := decodeFixed_layout wellFormed (show backup.unlock.lead.length = 8 by rw [lead]; rfl)
  have sizes : ¬ (kdf.memoryKiB < 8 * 1024 ∨ 1024 * 1024 < kdf.memoryKiB ∨
      kdf.iterations < 1 ∨ kdf.parallelism < 1) := by omega
  rw [decodePassphrase, if_neg (not_not_intro long), memory, settings, readU32_u32 (by omega)]
  simp only [List.getD_cons_zero, List.getD_cons_succ, toUInt8_toNat iterations_high,
    toUInt8_toNat parallelism_high, sizes, if_false]
  rw [unlock] at fields ⊢
  exact congrArg Except.ok fields

theorem decodePasskey_encoded {backup : PersonKeyBackup} {rpIdHash credentialId : Bytes}
    (wellFormed : backup.WellFormed) (unlock : backup.unlock = .passkey rpIdHash credentialId) :
    decodePasskey (backup.unlock.lead ++ backup.fixed) = .ok backup := by
  have supported := wellFormed.header.unlock
  rw [unlock] at supported
  obtain ⟨hash, nonempty, short⟩ := supported
  have lead : backup.unlock.lead =
      [(1 : UInt8), 2] ++ (rpIdHash ++ (u16 credentialId.length ++ credentialId)) := by
    rw [unlock, UnlockMethod.lead, UnlockMethod.params, List.append_assoc]
    rfl
  have lead_length : backup.unlock.lead.length = 2 + rpIdHashLength + 2 + credentialId.length := by
    simp only [lead, List.length_append, hash, length_u16, rpIdHashLength, List.length_cons,
      List.length_nil]
    omega
  have long : (backup.unlock.lead ++ backup.fixed).length =
      passkeyRecordLength credentialId.length := by
    rw [List.length_append, wellFormed.length_fixed, lead_length]
    rfl
  have hashes : slice (backup.unlock.lead ++ backup.fixed) 2 rpIdHashLength = rpIdHash := by
    rw [lead, List.append_assoc, List.append_assoc]
    exact slice_append [1, 2] _ _ rfl hash
  have lengths : slice (backup.unlock.lead ++ backup.fixed) (2 + rpIdHashLength) 2 =
      u16 credentialId.length := by
    rw [lead, ← List.append_assoc, List.append_assoc, List.append_assoc (u16 credentialId.length)]
    apply slice_append ([1, 2] ++ rpIdHash)
    · simp [hash, rpIdHashLength]
    · rfl
  have ids : slice (backup.unlock.lead ++ backup.fixed) (2 + rpIdHashLength + 2)
      credentialId.length = credentialId := by
    rw [lead, ← List.append_assoc, ← List.append_assoc, List.append_assoc]
    apply slice_append ([1, 2] ++ rpIdHash ++ u16 credentialId.length)
    · simp [hash, rpIdHashLength]
    · rfl
  have fields := decodeFixed_layout wellFormed lead_length
  have enough : ¬ (backup.unlock.lead ++ backup.fixed).length < 2 + rpIdHashLength + 2 := by
    rw [List.length_append, lead_length]
    omega
  have fits : ¬ (credentialId.length < 1 ∨ maxCredentialIdLength < credentialId.length ∨
      (backup.unlock.lead ++ backup.fixed).length ≠ passkeyRecordLength credentialId.length) := by
    rw [maxCredentialIdLength, long]
    omega
  rw [decodePasskey, if_neg enough, lengths, readU16_u16 (by omega), if_neg fits, hashes, ids]
  rw [unlock] at fields ⊢
  exact congrArg Except.ok fields

theorem decodeBackup_encodeBackup {backup : PersonKeyBackup} (wellFormed : backup.WellFormed) :
    decodeBackup (encodeBackup backup) = .ok backup := by
  have layout : encodeBackup backup = backup.unlock.lead ++ backup.fixed :=
    encodeBackup_layout wellFormed.header.version
  rw [layout]
  match unlock : backup.unlock with
  | .passphrase kdf =>
      have read := decodePassphrase_encoded wellFormed unlock
      rw [unlock] at read
      exact read
  | .passkey rpIdHash credentialId =>
      have read := decodePasskey_encoded wellFormed unlock
      rw [unlock] at read
      exact read

/-! ## Encoding what was read -/

theorem slice_first_two {bytes : Bytes} (long : ¬ bytes.length < 2) :
    slice bytes 0 2 = [bytes.getD 0 0, bytes.getD 1 0] := by
  match bytes with
  | [] | [_] => simp at long
  | a :: b :: rest => rfl

/-- What is encoded of a decoded record is the record, if its lead is. -/
theorem encodeBackup_decodeFixed {bytes : Bytes} {unlock : UnlockMethod} {offset : Nat}
    (whole : bytes.length = offset + fixedLength) (lead : unlock.lead = slice bytes 0 offset) :
    encodeBackup (decodeFixed bytes unlock offset) = bytes := by
  rw [encodeBackup_layout rfl]
  have fields := fields_of_decodeFixed unlock whole
  rw [← lead] at fields
  exact fields

theorem encodeBackup_decodePassphrase {bytes : Bytes} {backup : PersonKeyBackup}
    (first : slice bytes 0 2 = [1, 1]) (read : decodePassphrase bytes = .ok backup) :
    encodeBackup backup = bytes ∧ backup.WellFormed := by
  rw [decodePassphrase] at read
  split at read
  · cases read
  · rename_i long
    have whole : bytes.length = 8 + fixedLength := not_not.mp long
    have within : fixedLength = 108 := rfl
    obtain ⟨a, b, c, d, memory⟩ := slice_four bytes 2 (by omega)
    obtain ⟨iterations, parallelism, settings⟩ :=
      slice_two bytes 6 (by omega)
    simp only [memory, settings, List.getD_cons_zero, List.getD_cons_succ] at read
    split at read
    · cases read
    · rename_i sizes
      cases read
      have below_iterations := iterations.toNat_lt
      have below_parallelism := parallelism.toNat_lt
      refine ⟨?_, ?_⟩
      · apply encodeBackup_decodeFixed whole
        rw [show 8 = 2 + (4 + 2) from rfl, ← slice_join bytes 0 2, ← slice_join bytes (0 + 2) 4,
          first, Nat.zero_add, memory, settings, UnlockMethod.lead, UnlockMethod.params,
          u32_readU32]
        simp [UnlockMethod.method, unlockPassphrase]
      · apply wellFormed_decodeFixed whole
        simp only [UnlockMethod.WellFormed]
        omega

theorem encodeBackup_decodePasskey {bytes : Bytes} {backup : PersonKeyBackup}
    (first : slice bytes 0 2 = [1, 2]) (read : decodePasskey bytes = .ok backup) :
    encodeBackup backup = bytes ∧ backup.WellFormed := by
  rw [decodePasskey] at read
  split at read
  · cases read
  · rename_i enough
    have hash_length : rpIdHashLength = 32 := rfl
    obtain ⟨a, b, lengths⟩ := slice_two bytes (2 + rpIdHashLength) (by omega)
    simp only [lengths] at read
    split at read
    · cases read
    · rename_i fits
      cases read
      simp only [not_or, not_lt, not_not, maxCredentialIdLength] at fits
      obtain ⟨nonempty, short, long⟩ := fits
      have whole : bytes.length = 2 + rpIdHashLength + 2 + readU16 [a, b] + fixedLength := long
      have id_length := length_slice bytes (2 + rpIdHashLength + 2) (readU16 [a, b])
        (by omega)
      refine ⟨?_, ?_⟩
      · apply encodeBackup_decodeFixed whole
        have parts := slice_join bytes 0 2 (rpIdHashLength + (2 + readU16 [a, b]))
        rw [← slice_join bytes (0 + 2) rpIdHashLength,
          ← slice_join bytes (0 + 2 + rpIdHashLength) 2, Nat.zero_add, first, lengths,
          ← Nat.add_assoc, ← Nat.add_assoc] at parts
        rw [UnlockMethod.lead, UnlockMethod.params, id_length, u16_readU16, ← parts,
          List.append_assoc]
        rfl
      · apply wellFormed_decodeFixed whole
        refine ⟨length_slice bytes _ _ (by omega), ?_, ?_⟩
        · rw [id_length]
          exact nonempty
        · rw [id_length]
          exact short

theorem encodeBackup_decodeBackup {bytes : Bytes} {backup : PersonKeyBackup}
    (read : decodeBackup bytes = .ok backup) : encodeBackup backup = bytes ∧ backup.WellFormed := by
  have one (byte : UInt8) (value : Nat) (same : byte.toNat = value) : byte = value.toUInt8 := by
    rw [← same, Nat.toUInt8, UInt8.ofNat_toNat]
  rw [decodeBackup] at read
  split at read
  · cases read
  · rename_i long
    have first := slice_first_two long
    split at read
    · cases read
    · rename_i version
      rw [one _ _ (not_not.mp version)] at first
      split at read
      · rename_i method
        rw [one _ _ method] at first
        exact encodeBackup_decodePassphrase first read
      · split at read
        · rename_i method
          rw [one _ _ method] at first
          exact encodeBackup_decodePasskey first read
        · cases read

end Tapes.Provenance
