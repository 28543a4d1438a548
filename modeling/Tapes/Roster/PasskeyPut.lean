import Tapes.Challenges.OneTime
import Tapes.Provenance.BackupText
import Tapes.Provenance.Codec
import Tapes.Roster.HostCalls

namespace Tapes.Roster

open Tapes.Js Tapes.Provenance
open Tapes.Challenges (IssuedAt Limits PasskeyRecordWrite checkPasskeyRecordWrite consume
  entry_of_consume isRecordFor passkeyRecordDigest)

/-! `put` of the passkey records: the decoders, the checks and the roster's update, and that only
the person key a write names changes its person's records. -/

/-! ## The put -/

inductive PutError where
  | malformed
  | badSignature
  | badRecord
  | staleChallenge
  | notYours
  | tooManyRecords
  | unknownPerson
deriving DecidableEq

def PutError.text : PutError → JsString
  | .malformed => js "malformed"
  | .badSignature => js "bad-signature"
  | .badRecord => js "bad-record"
  | .staleChallenge => js "stale-challenge"
  | .notYours => js "not-yours"
  | .tooManyRecords => js "too-many-records"
  | .unknownPerson => js "unknown-person"

/-- What a put meets on its way. `listed` is the roster that its look for an owner finds, and
`people` the one that its update finds. -/
structure PutMoment where
  issuedAt : IssuedAt
  now : Int
  listed : List RosterEntry
  storedAt : JsString
  people : List RosterEntry

/-- The answer, and the challenges and the roster that the put leaves. -/
structure PutDone where
  answer : Except PutError Unit
  issuedAt : IssuedAt
  people : List RosterEntry

/-- What the signature and the digest leave of the write, with the error of each problem. -/
def checkedWrite (platform : Platform) (signed : Signed JsValue) (record : JsString) :
    Except PutError PasskeyRecordWrite :=
  match checkPasskeyRecordWrite platform signed record with
  | .error .badSignature => .error .badSignature
  | .error .wrongRecord => .error .badRecord
  | .error .malformed => .error .malformed
  | .ok write => .ok write

def recordToStore (platform : Platform) (credentialId record token storedAt : JsString) :
    StoredPasskeyRecord :=
  ⟨credentialId, sha256Hex platform (utf8Encode token), record, storedAt⟩

/-- The update of the roster, and what the put answers after it. -/
def storeRecord (people : List RosterEntry) (personKey : JsString) (stored : StoredPasskeyRecord) :
    Except PutError Unit × List RosterEntry :=
  let update : Task := .update personKey (keepRecord stored)
  match findPerson people personKey with
  | none => (.error .unknownPerson, update.apply people)
  | some entry =>
      if (keepRecord stored entry).isNone then (.error .tooManyRecords, update.apply people)
      else (.ok (), update.apply people)

/-- The put from its checked write on. -/
def putWrite (platform : Platform) (limits : Limits) (moment : PutMoment)
    (write : PasskeyRecordWrite) (record token : JsString) : PutDone :=
  if isRecordFor write record = false then ⟨.error .badRecord, moment.issuedAt, moment.people⟩
  else
    let (issuedAt, fresh) := consume limits moment.issuedAt write.challenge moment.now
    if fresh = false then ⟨.error .staleChallenge, issuedAt, moment.people⟩
    else if (moment.listed.find? (keepsRecord write.credentialId)).any
        (·.personKey ≠ write.personKey) then
      ⟨.error .notYours, issuedAt, moment.people⟩
    else
      let stored := recordToStore platform write.credentialId record token moment.storedAt
      let (answer, people) := storeRecord moment.people write.personKey stored
      ⟨answer, issuedAt, people⟩

def putRecord (platform : Platform) (limits : Limits) (moment : PutMoment)
    (encodedWrite : JsString) (record token : JsValue) : PutDone :=
  match decodeSignedStatement encodedWrite, record.string?, token.string? with
  | some signed, some record, some token =>
      match checkedWrite platform signed record with
      | .error error => ⟨.error error, moment.issuedAt, moment.people⟩
      | .ok write => putWrite platform limits moment write record token
  | _, _, _ => ⟨.error .malformed, moment.issuedAt, moment.people⟩

/-! ## Who may write -/

/-- The person key has signed the write, which is for this record of its own, over a challenge
that was fresh. -/
structure SignedByOwner (platform : Platform) (limits : Limits) (moment : PutMoment)
    (encodedWrite record : JsString) (write : PasskeyRecordWrite) : Prop where
  signed : ∃ signed, decodeSignedStatement encodedWrite = some signed ∧
    Challenges.passkeyRecordWrite? signed.payload = some write ∧
    verifyStatement platform signed write.personKey = true
  digest : write.record = passkeyRecordDigest platform record
  passkey : ∃ backup rpIdHash credentialId, parseBackupText record = .ok backup ∧
    backup.WellFormed ∧ backup.unlock = .passkey rpIdHash credentialId ∧
    toBase64Url backup.publicKey = write.personKey ∧
    toBase64Url credentialId = write.credentialId
  fresh : ∃ issuedTime, (write.challenge, issuedTime) ∈ moment.issuedAt ∧
    moment.now - issuedTime ≤ limits.ttlMs

/-- One entry of the roster has changed, in its records, and those in the one for the credential
id. -/
structure OneRecordStored (people after : List RosterEntry) (personKey : JsString)
    (stored : StoredPasskeyRecord) : Prop where
  others : others after personKey = others people personKey
  entry : ∃ entry records, findPerson people personKey = some entry ∧
    findPerson after personKey = some { entry with passkeyRecords := some records } ∧
    records.filter (fun held => held.credentialId = stored.credentialId) = [stored] ∧
    records.filter (fun held => held.credentialId ≠ stored.credentialId) =
      (entry.passkeyRecords.getD []).filter (fun held => held.credentialId ≠ stored.credentialId) ∧
    records.length ≤ maxRecordsPerPerson

structure OnlyByTheirKey (platform : Platform) (limits : Limits) (moment : PutMoment)
    (encodedWrite : JsString) (record token : JsValue) (done : PutDone) : Prop where
  refused : ∀ error, done.answer = .error error → done.people = moment.people
  changed : done.people ≠ moment.people → done.answer = .ok () ∧
    ∃ write recordText tokenText, record = .string recordText ∧ token = .string tokenText ∧
      SignedByOwner platform limits moment encodedWrite recordText write ∧
      OneRecordStored moment.people done.people write.personKey
        (recordToStore platform write.credentialId recordText tokenText moment.storedAt)

section

variable {platform : Platform} {limits : Limits} {moment : PutMoment} {write : PasskeyRecordWrite}
  {entry next : RosterEntry} {stored : StoredPasskeyRecord} {people : List RosterEntry}
  {personKey : JsString}

theorem of_isRecordFor {record : JsString} (right : isRecordFor write record = true) :
    ∃ backup rpIdHash credentialId, parseBackupText record = .ok backup ∧ backup.WellFormed ∧
      backup.unlock = .passkey rpIdHash credentialId ∧
      toBase64Url backup.publicKey = write.personKey ∧
      toBase64Url credentialId = write.credentialId := by
  unfold isRecordFor at right
  cases read : parseBackupText record with
  | error problem =>
      rw [read] at right
      cases right
  | ok backup =>
      rw [read] at right
      cases unlock : backup.unlock with
      | passphrase kdf =>
          simp only [unlock] at right
          cases right
      | passkey rpIdHash credentialId =>
          simp only [unlock, Bool.decide_and, Bool.and_eq_true, decide_eq_true_eq] at right
          exact ⟨backup, rpIdHash, credentialId, rfl, wellFormed_of_parseBackupText read, unlock,
            right.2, right.1⟩

theorem of_checkedWrite {signed : Signed JsValue} {record : JsString}
    (checked : checkedWrite platform signed record = .ok write) :
    Challenges.passkeyRecordWrite? signed.payload = some write ∧
      verifyStatement platform signed write.personKey = true ∧
      write.record = passkeyRecordDigest platform record := by
  have passed : checkPasskeyRecordWrite platform signed record = .ok write := by
    unfold checkedWrite at checked
    split at checked
    · cases checked
    · cases checked
    · cases checked
    · rename_i same
      cases checked
      exact same
  unfold checkPasskeyRecordWrite at passed
  cases shape : Challenges.passkeyRecordWrite? signed.payload with
  | none =>
      rw [shape] at passed
      cases passed
  | some held =>
      rw [shape] at passed
      dsimp only at passed
      split_ifs at passed with forged other
      cases passed
      exact ⟨rfl, by simpa using forged, not_not.mp other⟩

/-- The entry that the update writes: one record under the id, the others as they were. -/
theorem of_keepRecord (kept : keepRecord stored entry = some next) :
    ∃ records, next = { entry with passkeyRecords := some records } ∧
      records.filter (fun held => held.credentialId = stored.credentialId) = [stored] ∧
      records.filter (fun held => held.credentialId ≠ stored.credentialId) =
        (entry.passkeyRecords.getD []).filter
          (fun held => held.credentialId ≠ stored.credentialId) ∧
      records.length ≤ maxRecordsPerPerson := by
  unfold keepRecord at kept
  dsimp only at kept
  split_ifs at kept with full
  cases kept
  refine ⟨_, rfl, ?_, ?_, ?_⟩
  · rw [List.filter_append, List.filter_filter]
    simp
  · rw [List.filter_append, List.filter_filter]
    simp only [ne_eq, not_true_eq_false, decide_false, Bool.false_eq_true, not_false_eq_true,
      List.filter_cons_of_neg, List.filter_nil, List.append_nil]
    apply List.filter_congr
    intro held _
    by_cases same : held.credentialId = stored.credentialId <;> simp [same]
  · rw [List.length_append, List.length_singleton]
    omega

theorem oneRecordStored (found : findPerson people personKey = some entry)
    (kept : keepRecord stored entry = some next) :
    OneRecordStored people ((Task.update personKey (keepRecord stored)).apply people) personKey
      stored := by
  obtain ⟨records, rfl, own, rest, bounded⟩ := of_keepRecord kept
  have key := findPerson_key found
  have applied : (Task.update personKey (keepRecord stored)).apply people =
      replace people { entry with passkeyRecords := some records } := by
    simp only [Task.apply, Task.written, found, Option.bind_some, kept, Option.elim_some]
  rw [applied]
  constructor
  · rw [← key]
    exact others_replace people { entry with passkeyRecords := some records }
  · refine ⟨entry, records, found, ?_, own, rest, bounded⟩
    rw [← key]
    exact findPerson_replace_self people { entry with passkeyRecords := some records }

/-- The update changes the roster only where the put is answered ok. -/
theorem storeRecord_cases (people : List RosterEntry) (personKey : JsString)
    (stored : StoredPasskeyRecord) :
    (∃ error, storeRecord people personKey stored = (.error error, people)) ∨
      ∃ after, storeRecord people personKey stored = (.ok (), after) ∧
        OneRecordStored people after personKey stored := by
  unfold storeRecord
  cases found : findPerson people personKey with
  | none =>
      refine .inl ⟨.unknownPerson, ?_⟩
      simp [Task.apply, Task.written, found]
  | some entry =>
      cases kept : keepRecord stored entry with
      | none =>
          refine .inl ⟨.tooManyRecords, ?_⟩
          simp [Task.apply, Task.written, found, kept]
      | some next => exact .inr ⟨_, by simp [kept], oneRecordStored found kept⟩

/-- The put, its write checked, leaves the roster alone or stores the record. -/
theorem putWrite_cases (platform : Platform) (limits : Limits) (moment : PutMoment)
    (write : PasskeyRecordWrite) (record token : JsString) :
    (∃ error, (putWrite platform limits moment write record token).answer = .error error ∧
        (putWrite platform limits moment write record token).people = moment.people) ∨
      ((putWrite platform limits moment write record token).answer = .ok () ∧
        isRecordFor write record = true ∧
        (consume limits moment.issuedAt write.challenge moment.now).2 = true ∧
        OneRecordStored moment.people (putWrite platform limits moment write record token).people
          write.personKey
          (recordToStore platform write.credentialId record token moment.storedAt)) := by
  unfold putWrite
  dsimp only
  split_ifs with wrong stale other
  · exact .inl ⟨.badRecord, rfl, rfl⟩
  · exact .inl ⟨.staleChallenge, rfl, rfl⟩
  · exact .inl ⟨.notYours, rfl, rfl⟩
  · rcases storeRecord_cases moment.people write.personKey
        (recordToStore platform write.credentialId record token moment.storedAt) with
      ⟨error, refused⟩ | ⟨after, done, stored⟩
    · rw [refused]
      exact .inl ⟨error, rfl, rfl⟩
    · rw [done]
      exact .inr ⟨rfl, by simpa using wrong, by simpa using stale, stored⟩

theorem onlyByTheirKey_of_refused (encodedWrite : JsString) (record token : JsValue) {done : PutDone}
    (same : done.people = moment.people) :
    OnlyByTheirKey platform limits moment encodedWrite record token done where
  refused _ _ := same
  changed different := absurd same different

theorem string_of_string? {value : JsValue} {text : JsString} (read : value.string? = some text) :
    value = .string text := by
  cases value <;> cases read
  rfl

theorem only_their_key_changes_passkey_records (platform : Platform) (limits : Limits)
    (moment : PutMoment) (encodedWrite : JsString) (record token : JsValue) :
    OnlyByTheirKey platform limits moment encodedWrite record token
      (putRecord platform limits moment encodedWrite record token) := by
  unfold putRecord
  split
  · rename_i signed recordText tokenText decoded recordRead tokenRead
    cases checked : checkedWrite platform signed recordText with
    | error error => exact onlyByTheirKey_of_refused encodedWrite record token rfl
    | ok write =>
        dsimp only
        rcases putWrite_cases platform limits moment write recordText tokenText with
          ⟨error, _, same⟩ | ⟨done, right, fresh, stored⟩
        · exact onlyByTheirKey_of_refused encodedWrite record token same
        · obtain ⟨shape, verified, digest⟩ := of_checkedWrite checked
          have owner : SignedByOwner platform limits moment encodedWrite recordText write :=
            { signed := ⟨signed, decoded, shape, verified⟩
              digest
              passkey := of_isRecordFor right
              fresh := entry_of_consume fresh }
          constructor
          · intro error refused
            rw [done] at refused
            cases refused
          · intro _
            exact ⟨done, write, recordText, tokenText, string_of_string? recordRead,
              string_of_string? tokenRead, owner, stored⟩
  · exact onlyByTheirKey_of_refused encodedWrite record token rfl

end

end Tapes.Roster
