import Tapes.Provenance.Codec
import Tapes.Provenance.Statements

namespace Tapes.Provenance

open Tapes.Js

/-! Values that say the same have the same shape, so a statement that passed its check
passes it again when it is read back from its canonical bytes. -/

namespace Same

variable {left right : JsValue}

theorem get (same : Same left right) (key : JsString) : Same (left.get key) (right.get key) := by
  cases same with
  | object members => exact members key
  | undefined | null | boolean | number | string | array => exact .undefined

theorem string? (same : Same left right) : left.string? = right.string? := by
  cases same <;> rfl

theorem field (same : Same left right) (key : JsString) :
    (left.get key).string? = (right.get key).string? :=
  (same.get key).string?

theorem stringField (same : Same left right) (key : String) :
    stringField left key = stringField right key :=
  same.field (js key)

theorem hasType (same : Same left right) (type : JsString) :
    hasType left type = hasType right type := by
  simp only [Provenance.hasType, same.field]

theorem optionalStringField (same : Same left right) (key : String) :
    optionalStringField left key = optionalStringField right key := by
  have inner := same.get (js key)
  unfold Provenance.optionalStringField
  generalize left.get (js key) = here, right.get (js key) = there at inner
  cases inner <;> rfl

end Same

section

variable {left right : JsValue} (same : Same left right)

include same

theorem deviceCertificate?_same : deviceCertificate? left = deviceCertificate? right := by
  simp only [deviceCertificate?, same.hasType, same.stringField]

theorem deviceVouch?_same : deviceVouch? left = deviceVouch? right := by
  simp only [deviceVouch?, vouchMethod?, same.hasType, same.stringField, same.field]

/-- Of a claim only the sign of a zero size can differ. -/
theorem recordingClaim?_same {claim : RecordingClaim} (found : recordingClaim? left = some claim) :
    ∃ size, recordingClaim? right = some { claim with blob := ⟨claim.blob.hash, size⟩ } ∧
      claim.blob.size.strictEquals size = true := by
  have blob := same.get (js "blob")
  have sizes := blob.get (js "size")
  simp only [recordingClaim?, same.hasType, same.stringField, same.optionalStringField,
    blob.stringField, Option.bind_eq_bind, Option.bind_eq_some_iff] at found ⊢
  obtain ⟨tagged, isTagged, hash, isHash, size, isSize, mimeType, isMime, startedAt, isStart,
    endedAt, isEnd, sessionId, isSession, deviceKey, isKey, deviceCert, isCert, made⟩ := found
  cases made
  generalize (left.get (js "blob")).get (js "size") = here,
    (right.get (js "blob")).get (js "size") = there at sizes isSize ⊢
  cases sizes with
  | number equal =>
      cases isSize
      exact ⟨_, ⟨tagged, isTagged, hash, isHash, _, rfl, mimeType, isMime, startedAt, isStart,
        endedAt, isEnd, sessionId, isSession, deviceKey, isKey, deviceCert, isCert, rfl⟩, equal⟩
  | undefined | null | boolean | string | array | object => cases isSize

end

/-! ## Read back from its bytes -/

variable {platform : Platform} {signed again : Signed JsValue} {bytes : Bytes}

/-- `again` is the statement as its canonical bytes are read. -/
structure Reread (signed again : Signed JsValue) (bytes : Bytes) : Prop where
  read : parseSignedStatement bytes = some again
  canonical : statementBytes again = some bytes
  payload : Same signed.payload again.payload
  signature : again.signature = signed.signature
  valid : ∀ platform key, verifyStatement platform again key = verifyStatement platform signed key

theorem isData_of_written (parsed : Parsed signed.payload)
    (written : statementBytes signed = some bytes)
    (defined : signed.payload.isUndefined = false) :
    IsData signed.payload ∧ wellFormed signed.signature = true := by
  obtain ⟨payload, signature⟩ := payload_of_toValue (isData_of_statementBytes parsed written)
  refine ⟨payload.resolve_left ?_, signature⟩
  rw [defined]
  exact Bool.false_ne_true

mutual

theorem isData_normal {value : JsValue} (data : IsData value) : IsData (normal value) := by
  cases value with
  | undefined => exact absurd data id
  | null | boolean => trivial
  | number number =>
      cases number with
      | finite => trivial
      | nan | infinite => exact absurd data id
  | string text => exact data
  | array items => exact areData_normalItems data
  | object members =>
      have distinct := data.1.sublist (normalMembers_keys members)
      refine ⟨sortMembers_distinct distinct, membersData_iff.mpr fun member inside => ?_⟩
      apply membersData_iff.mp (membersData_normalMembers data.2)
      exact (perm_sortMembers _).mem_iff.mp inside

theorem areData_normalItems {items : List JsValue} (data : AreData items) :
    AreData (normalItems items) := by
  cases items with
  | nil => trivial
  | cons item rest => exact ⟨isData_normal data.1, areData_normalItems data.2⟩

theorem membersData_normalMembers {members : List (JsString × JsValue)}
    (data : MembersData members) : MembersData (normalMembers members) := by
  cases members with
  | nil => trivial
  | cons member rest =>
      obtain ⟨key, value⟩ := member
      obtain ⟨here, others⟩ := data
      rw [normalMembers]
      split
      · exact membersData_normalMembers others
      · rename_i defined
        obtain ⟨named, data⟩ := here.resolve_left defined
        exact ⟨.inr ⟨named, isData_normal data⟩, membersData_normalMembers others⟩

end

theorem exists_reread (data : IsData signed.payload) (signature : wellFormed signed.signature = true)
    (written : statementBytes signed = some bytes) : ∃ again, Reread signed again bytes := by
  obtain ⟨same, wrote, read⟩ := parseSignedStatement_statementBytes data signature
  rw [written] at wrote
  cases wrote
  have payload : Same (normal signed.payload) signed.payload := same_normal data
  have text := (canonicalJson_eq_iff (isData_normal data) data).mpr payload
  refine ⟨⟨normal signed.payload, signed.signature⟩, read, ?_, payload.symm, rfl, ?_⟩
  · let again : Signed JsValue := ⟨normal signed.payload, signed.signature⟩
    have whole : IsData again.toValue := isData_toValue (isData_normal data) signature
    have wrapped : canonicalJson again.toValue = canonicalJson signed.toValue := by
      apply (canonicalJson_eq_iff whole (isData_toValue data signature)).mpr
      apply Same.object
      intro key
      change Same (JsValue.lookup key (wrapperMembers _)) (JsValue.lookup key (wrapperMembers _))
      rw [lookup_wrapperMembers, lookup_wrapperMembers]
      split
      · exact payload
      · split
        · exact .string _
        · exact .undefined
    rw [statementBytes, wrapped]
    exact written
  · intro platform key
    simp only [verifyStatement, text]

namespace Reread

theorem check {shape : JsValue → Option α} {signer : α → JsString}
    (reread : Reread signed again bytes)
    (respects : ∀ left right, Same left right → shape left = shape right) :
    checkShapeAndSignature shape signer platform again =
      checkShapeAndSignature shape signer platform signed := by
  simp only [checkShapeAndSignature, respects _ _ reread.payload, reread.valid, reread.signature]

theorem statementType (reread : Reread signed again bytes) :
    (statementType again).string? = (statementType signed).string? :=
  (reread.payload.field (js "type")).symm

theorem checkRecordingClaim {blob : BlobDescriptor} {claim : Signed RecordingClaim}
    (reread : Reread signed again bytes)
    (passed : checkRecordingClaim platform signed blob = .ok claim) :
    ∃ size, Provenance.checkRecordingClaim platform again blob =
      .ok ⟨{ claim.payload with blob := ⟨claim.payload.blob.hash, size⟩ }, claim.signature⟩ := by
  obtain ⟨found, signature, hash, equal, valid⟩ := checkRecordingClaim_eq_ok_iff.mp passed
  obtain ⟨size, shape, same⟩ := recordingClaim?_same reread.payload found
  refine ⟨size, checkRecordingClaim_eq_ok_iff.mpr ⟨shape, ?_, hash, ?_, ?_⟩⟩
  · exact signature.trans reread.signature.symm
  · exact strictEquals_trans (strictEquals_symm same) equal
  · rw [reread.valid]
    exact valid

end Reread

end Tapes.Provenance
