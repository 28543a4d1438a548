import Tapes.Blobs.MetaTypes
import Tapes.Provenance.SameShape
import Tapes.Uploads.BlobHost
import Tapes.Uploads.HostAndReader

namespace Tapes.Uploads

open Tapes.Js Tapes.Provenance Tapes.Machine
open Tapes.Blobs (BlobMeta CallId Ingest Store TypesFrom)

/-! What is stored as JSON is a verified statement, as long as nothing else is cached under
that type. -/

/-! ## Verified statements -/

/-- The field that names the key a statement of the type is signed with. -/
def signerField : StatementType → JsString
  | .claim => js "deviceKey"
  | .certificate => js "personKey"
  | .revocation => js "signerKey"
  | .receipt | .session | .vouch => js "hostKey"

section

variable {platform : Platform} {hostKeys : List JsString} {bytes : Bytes}
  {signed : Signed JsValue} {type : StatementType} {view : StoreView}

/-- The signature verifies under the key that the statement names, or under one of the host's
own. -/
def Verifies (platform : Platform) (hostKeys : List JsString) (signed : Signed JsValue)
    (type : StatementType) : Prop :=
  ∃ key, verifyStatement platform signed key = true ∧
    (key ∈ hostKeys ∨ (signed.payload.get (signerField type)).string? = some key)

/-- The canonical JSON of a statement of a known type that verifies. -/
def VerifiedStatement (platform : Platform) (hostKeys : List JsString) (bytes : Bytes) : Prop :=
  ∃ signed type, IsStatement bytes signed ∧ statementTypeOf signed = some type ∧
    Verifies platform hostKeys signed type

theorem claimKey_of_shape {claim : RecordingClaim}
    (shape : recordingClaim? signed.payload = some claim) :
    (signed.payload.get (js "deviceKey")).string? = some claim.deviceKey := by
  simp only [recordingClaim?, stringField, Option.bind_eq_bind, Option.bind_eq_some_iff] at shape
  obtain ⟨_, -, _, -, _, -, _, -, _, -, _, -, _, -, _, isKey, _, -, made⟩ := shape
  cases made
  exact isKey

theorem receiptKey_of_shape {receipt : HostReceipt}
    (shape : hostReceipt? signed.payload = some receipt) :
    (signed.payload.get (js "hostKey")).string? = some receipt.hostKey := by
  simp only [hostReceipt?, stringField, Option.bind_eq_bind, Option.bind_eq_some_iff] at shape
  obtain ⟨_, -, _, -, _, -, _, isKey, made⟩ := shape
  cases made
  exact isKey

theorem sessionKey_of_shape {record : SessionRecord}
    (shape : sessionRecord? signed.payload = some record) :
    (signed.payload.get (js "hostKey")).string? = some record.hostKey := by
  simp only [sessionRecord?, stringField, Option.bind_eq_bind, Option.bind_eq_some_iff] at shape
  obtain ⟨_, -, _, -, _, -, _, -, _, isKey, _, -, _, -, _, -, _, -, made⟩ := shape
  cases made
  exact isKey

theorem certificateKey_of_shape {certificate : DeviceCertificate}
    (shape : deviceCertificate? signed.payload = some certificate) :
    (signed.payload.get (js "personKey")).string? = some certificate.personKey := by
  simp only [deviceCertificate?, stringField, Option.bind_eq_bind, Option.bind_eq_some_iff] at shape
  obtain ⟨_, -, _, isKey, _, -, _, -, _, -, made⟩ := shape
  cases made
  exact isKey

theorem vouchKey_of_shape {vouch : DeviceVouch}
    (shape : deviceVouch? signed.payload = some vouch) :
    (signed.payload.get (js "hostKey")).string? = some vouch.hostKey := by
  simp only [deviceVouch?, stringField, Option.bind_eq_bind, Option.bind_eq_some_iff] at shape
  obtain ⟨_, -, _, isKey, _, -, _, -, _, -, _, -, _, -, _, -, _, -, _, -, made⟩ := shape
  cases made
  exact isKey

theorem revocationKey_of_shape {revocation : DeviceRevocation}
    (shape : deviceRevocation? signed.payload = some revocation) :
    (signed.payload.get (js "signerKey")).string? = some revocation.signerKey := by
  simp only [deviceRevocation?, stringField, Option.bind_eq_bind, Option.bind_eq_some_iff] at shape
  obtain ⟨_, -, _, isKey, _, -, _, -, _, -, _, -, _, -, made⟩ := shape
  cases made
  exact isKey

theorem Verifies.of_check {shape : JsValue → Option α} {signer : α → JsString}
    {checked : Signed α} (passed : checkShapeAndSignature shape signer platform signed = .ok checked)
    (key : ∀ payload, shape signed.payload = some payload →
      (signed.payload.get (signerField type)).string? = some (signer payload)) :
    Verifies platform hostKeys signed type := by
  obtain ⟨found, -, valid⟩ := checkShapeAndSignature_eq_ok_iff.mp passed
  exact ⟨_, valid, .inr (key _ found)⟩

theorem Verifies.of_checkDeviceLink {link : DeviceLink} (typed : statementTypeOf signed = some type)
    (passed : checkDeviceLink platform signed = some (.ok link)) :
    Verifies platform hostKeys signed type := by
  unfold checkDeviceLink at passed
  rw [typed] at passed
  cases type with
  | certificate =>
      cases checked : checkDeviceCertificate platform signed with
      | ok certificate => exact .of_check checked fun _ => certificateKey_of_shape
      | error problem =>
          rw [checked] at passed
          cases passed
  | vouch =>
      cases checked : checkDeviceVouch platform signed with
      | ok vouch => exact .of_check checked fun _ => vouchKey_of_shape
      | error problem =>
          rw [checked] at passed
          cases passed
  | claim | receipt | session | revocation => cases passed

theorem checkDeviceLink_of_upload {address : JsString} {forClaim : Option JsString}
    (passed : checkDeviceLinkUpload platform view signed address forClaim = .ok ()) :
    ∃ link, checkDeviceLink platform signed = some (.ok link) := by
  unfold checkDeviceLinkUpload at passed
  split at passed
  · cases passed
  · cases passed
  · rename_i link checked
    exact ⟨link, checked⟩

/-- Whatever else an upload has to bind to, its signature is checked. -/
theorem verifies_of_checkByUploadType {address : JsString} {forClaim : Option JsString}
    (passed : checkByUploadType platform view signed address forClaim = .ok ()) :
    ∃ type, statementTypeOf signed = some type ∧ Verifies platform hostKeys signed type := by
  unfold checkByUploadType at passed
  split at passed
  · rename_i typed
    simp only [checkClaim] at passed
    split at passed
    · cases passed
    · split at passed
      · cases passed
      · rename_i claim checked
        obtain ⟨shape, -, -, -, valid⟩ := checkRecordingClaim_eq_ok_iff.mp checked
        exact ⟨.claim, typed, _, valid, .inr (claimKey_of_shape shape)⟩
  · rename_i typed
    simp only [checkReceipt] at passed
    split at passed
    · cases passed
    · rename_i checked
      exact ⟨.receipt, typed, .of_check checked fun _ => receiptKey_of_shape⟩
  · rename_i typed
    simp only [checkSession] at passed
    split at passed
    · cases passed
    · rename_i checked
      exact ⟨.session, typed, .of_check checked fun _ => sessionKey_of_shape⟩
  · rename_i typed
    exact ⟨.certificate, typed, .of_checkDeviceLink typed (checkDeviceLink_of_upload passed).choose_spec⟩
  · rename_i typed
    exact ⟨.vouch, typed, .of_checkDeviceLink typed (checkDeviceLink_of_upload passed).choose_spec⟩
  · rename_i typed
    simp only [checkRevocationUpload] at passed
    split at passed
    · cases passed
    · rename_i checked
      exact ⟨.revocation, typed, .of_check checked fun _ => revocationKey_of_shape⟩
  · cases passed

/-- Bytes that an upload takes as a statement. -/
theorem verifiedStatement_of_check {forClaim : Option JsString}
    (accepted : checkUploadedStatement platform bytes view forClaim = .ok ()) :
    VerifiedStatement platform hostKeys bytes := by
  obtain ⟨signed, is, checked⟩ := checkUploadedStatement_ok_iff.mp accepted
  obtain ⟨type, typed, verifies⟩ := verifies_of_checkByUploadType checked
  exact ⟨signed, type, is, typed, verifies⟩

/-- What is written of a statement is read back as one. -/
theorem exists_reread_of_written (parsed : Parsed signed.payload)
    (written : statementBytes signed = some bytes) : ∃ again, Reread signed again bytes := by
  have defined : signed.payload.isUndefined = false := by
    cases payload : signed.payload with
    | undefined =>
        rw [payload] at parsed
        exact absurd parsed id
    | null | boolean | number | string | array | object => rfl
  obtain ⟨data, signature⟩ := isData_of_written parsed written defined
  exact exists_reread data signature written

theorem statementTypeOf_reread {again : Signed JsValue} (reread : Reread signed again bytes) :
    statementTypeOf again = statementTypeOf signed := by
  simp only [statementTypeOf, reread.statementType]

theorem verifiedStatement_of_written (parsed : Parsed signed.payload)
    (written : statementBytes signed = some bytes) (typed : statementTypeOf signed = some type)
    (verifies : Verifies platform hostKeys signed type) :
    VerifiedStatement platform hostKeys bytes := by
  obtain ⟨again, reread⟩ := exists_reread_of_written parsed written
  obtain ⟨key, valid, signer⟩ := verifies
  refine ⟨again, type, ⟨reread.read, reread.canonical⟩, ?_, key, ?_, ?_⟩
  · rw [statementTypeOf_reread reread]
    exact typed
  · rw [reread.valid]
    exact valid
  · rw [← reread.payload.field]
    exact signer

end

/-! ## What each writer stores as JSON -/

section

variable {platform : Platform} {hostKeys : List JsString} {write : Write platform hostKeys}
  {offer : Offer}

theorem lookup_mem {entries : List (JsString × JsString)} {key value : JsString}
    (found : entries.lookup key = some value) : value ∈ entries.map Prod.snd := by
  obtain ⟨before, after, same, -⟩ := List.lookup_eq_some_iff.mp found
  simp [same]

/-- The type of a file is audio, or unknown. -/
theorem mimeTypeOfFile_ne (ext : JsString) : mimeTypeOfFile ext ≠ statementMimeType := by
  unfold mimeTypeOfFile
  cases found : mimeTypeByExtension.lookup ext with
  | none => decide
  | some value =>
      have listed := lookup_mem found
      have each : ∀ value ∈ mimeTypeByExtension.map Prod.snd, value ≠ statementMimeType := by
        decide
      exact each value listed

theorem handleUpload_cases {view : StoreView} {contentType docUrl : JsString} {bytes : Bytes}
    {forClaim : Option JsString}
    (offers : handleUpload platform view contentType bytes docUrl forClaim = some offer) :
    (contentType = statementMimeType ∧ offer.bytes = bytes ∧
      checkUploadedStatement platform bytes view forClaim = .ok ()) ∨
    (contentType ≠ statementMimeType ∧ offer = streamed bytes contentType [] docUrl) := by
  simp only [handleUpload] at offers
  split at offers
  · cases offers
  · split at offers
    · cases offers
    · split at offers
      · rename_i statement
        simp only [handleStatementUpload] at offers
        split at offers
        · split at offers <;> cases offers
          rename_i accepted
          exact .inl ⟨statement, rfl, accepted⟩
        · cases offers
      · rename_i other
        cases offers
        exact .inr ⟨other, rfl⟩

theorem verified_of_storeStatement {signed : Signed JsValue} {docUrl : JsString}
    {type : StatementType} (parsed : Parsed signed.payload)
    (stored : storeStatement signed docUrl = some offer)
    (typed : statementTypeOf signed = some type)
    (verifies : Verifies platform hostKeys signed type) :
    VerifiedStatement platform hostKeys offer.bytes := by
  obtain ⟨bytes, written, rfl⟩ := Option.map_eq_some_iff.mp stored
  exact verifiedStatement_of_written parsed written typed verifies

theorem claim_of_checkedClaim {encoded : JsString} {received : BlobDescriptor}
    {signed : Signed JsValue} {claim : RecordingClaim}
    (checked : checkedClaim platform encoded received = some (signed, claim)) :
    Parsed signed.payload ∧ recordingClaim? signed.payload = some claim ∧
      verifyStatement platform signed claim.deviceKey = true := by
  obtain ⟨decoded, read, passed⟩ := Option.bind_eq_some_iff.mp checked
  split at passed
  · cases passed
  · rename_i claim passes
    cases passed
    obtain ⟨shape, -, -, -, valid⟩ := checkRecordingClaim_eq_ok_iff.mp passes
    obtain ⟨raw, -, parsed⟩ := Option.bind_eq_some_iff.mp read
    exact ⟨parsed_of_parseSignedStatement parsed, shape, valid⟩

theorem link_of_certificateFor {claim : RecordingClaim} {encoded : JsString}
    {signed : Signed JsValue} (found : certificateFor platform claim encoded = some signed) :
    Parsed signed.payload ∧ ∃ link, checkDeviceLink platform signed = some (.ok link) := by
  obtain ⟨decoded, read, passed⟩ := Option.bind_eq_some_iff.mp found
  split at passed
  · rename_i link checked
    split at passed <;> cases passed
    obtain ⟨raw, -, parsed⟩ := Option.bind_eq_some_iff.mp read
    exact ⟨parsed_of_parseSignedStatement parsed, link, checked⟩
  · cases passed

theorem typed_of_checkDeviceLink {signed : Signed JsValue} {link : DeviceLink}
    (passed : checkDeviceLink platform signed = some (.ok link)) :
    ∃ type, statementTypeOf signed = some type := by
  unfold checkDeviceLink at passed
  split at passed
  · rename_i typed
    exact ⟨_, typed⟩
  · rename_i typed
    exact ⟨_, typed⟩
  · cases passed

/-- Only the cache takes bytes that nobody has verified as JSON. -/
def CachedAsJson (bytes : Bytes) : Write platform hostKeys → Prop
  | .cachePut mimeType cached _ => mimeType = statementMimeType ∧ cached = bytes
  | _ => False

theorem verified_of_offered (offers : offered write = some offer)
    (json : offer.ingest.metadata.mimeType = statementMimeType) :
    CachedAsJson offer.bytes write ∨ VerifiedStatement platform hostKeys offer.bytes := by
  cases write with
  | upload contentType bytes docUrl forClaim view =>
      right
      obtain ⟨-, rfl, accepted⟩ | ⟨other, rfl⟩ := handleUpload_cases offers
      · exact verifiedStatement_of_check accepted
      · exact absurd json other
  | claim encoded received docUrl =>
      right
      obtain ⟨⟨signed, claim⟩, checked, stored⟩ := Option.bind_eq_some_iff.mp offers
      obtain ⟨parsed, shape, valid⟩ := claim_of_checkedClaim checked
      exact verified_of_storeStatement parsed stored (claim_statementTypeOf shape)
        ⟨_, valid, .inr (claimKey_of_shape shape)⟩
  | certificate encoded received certificate docUrl =>
      right
      obtain ⟨⟨signed, claim⟩, checked, stored⟩ := Option.bind_eq_some_iff.mp offers
      obtain ⟨named, found, stored⟩ := Option.bind_eq_some_iff.mp stored
      obtain ⟨parsed, link, linked⟩ := link_of_certificateFor found
      obtain ⟨type, typed⟩ := typed_of_checkDeviceLink linked
      exact verified_of_storeStatement parsed stored typed (.of_checkDeviceLink typed linked)
  | hostStatement statement docUrl =>
      right
      have known : ∃ type, statementTypeOf statement.signed = some type := by
        have type := statement.type
        simp only [List.mem_cons, List.not_mem_nil, or_false] at type
        obtain receipt | session | revocation := type
        · exact ⟨_, receipt⟩
        · exact ⟨_, session⟩
        · exact ⟨_, revocation⟩
      obtain ⟨type, typed⟩ := known
      exact verified_of_storeStatement statement.plain offers typed
        ⟨_, statement.valid, .inl statement.own⟩
  | file ext copied bytes docUrl =>
      cases offers
      exact absurd json (mimeTypeOfFile_ne ext)
  | cachePut mimeType bytes docUrl =>
      left
      cases offers
      exact ⟨json, rfl⟩

end

/-! ## Whole runs -/

section

variable {platform : Platform} {hostKeys : List JsString} {content : JsString → Bytes}

/-- What is stored as JSON is a verified statement. -/
def JsonIsVerified (platform : Platform) (hostKeys : List JsString) (content : JsString → Bytes)
    (host : Host) : Prop :=
  ∀ hash metadata, (host hash).object = true → (host hash).metadata = some metadata →
    metadata.mimeType = statementMimeType → VerifiedStatement platform hostKeys (content hash)

/-- Bytes are cached as JSON only if they are a verified statement. -/
def CachesStatements (_ : Host) (action : HostAction platform hostKeys) : Prop :=
  ∀ call write bytes, action = .write call write → CachedAsJson bytes write →
    VerifiedStatement platform hostKeys bytes

/-- The type JSON is fine where the bytes are a verified statement. -/
def FineAt (platform : Platform) (hostKeys : List JsString) (content : JsString → Bytes)
    (hash mimeType : JsString) : Prop :=
  mimeType = statementMimeType → VerifiedStatement platform hostKeys (content hash)

def AllTypesFrom (platform : Platform) (hostKeys : List JsString) (content : JsString → Bytes)
    (host : Host) : Prop :=
  ∀ hash, TypesFrom (FineAt platform hostKeys content hash) (host hash)

theorem allTypesFrom_step {host next : Host} {action : HostAction platform hostKeys}
    (types : AllTypesFrom platform hostKeys content host) (caches : CachesStatements host action)
    (taken : hostStep content host action = some next) :
    AllTypesFrom platform hostKeys content next := by
  intro hash
  obtain ⟨here, storeAction, store, stepped, rfl, writes⟩ | ⟨-, rfl⟩ := hostStep_cases taken
  · by_cases same : hash = here
    · subst same
      rw [Function.update_self]
      refine (types hash).step ?_ stepped
      intro call ingest begins json
      obtain ⟨write, bytes, rfl, offers, rfl, named⟩ := writes call ingest begins
      rw [named]
      obtain cached | verified := verified_of_offered offers json
      · exact caches call write bytes rfl cached
      · exact verified
    · rw [Function.update_of_ne same]
      exact types hash
  · exact ⟨(types hash).metadata, Table.all_empty⟩

variable (platform hostKeys content) in
/-- In every state reached from an empty store, JSON is verified. -/
def JsonMeansVerified (guard : Host → HostAction platform hostKeys → Prop) : Prop :=
  ∀ host, Reaches (hostStep content) guard emptyHost host →
    JsonIsVerified platform hostKeys content host

theorem json_means_verified : JsonMeansVerified platform hostKeys content CachesStatements := by
  intro host reached
  have types : AllTypesFrom platform hostKeys content host :=
    reached.invariant _ (fun hash => ⟨nofun, Table.all_empty⟩)
      fun _ types caches taken => allTypesFrom_step types caches taken
  intro hash metadata _ present json
  exact (types hash).metadata metadata present json

end

/-! ## A claim that is uploaded and cached -/

def claimAddress : JsString := sha256Hex paddedPlatform (uploadedClaim "one")

/-- The claim is uploaded, and then fetched from a peer and cached once more. -/
def cachedAfterUpload : List (HostAction paddedPlatform []) :=
  .write 0 (.upload statementMimeType (uploadedClaim "one") (js "doc") none (sampleView [])) ::
    List.replicate 5 (.store claimAddress (.resume 0)) ++
  .write 1 (.cachePut statementMimeType (uploadedClaim "one") (js "other")) ::
    List.replicate 5 (.store claimAddress (.resume 1))

theorem cachedAfterUpload_stores :
    (run (hostStep fun _ => uploadedClaim "one") emptyHost cachedAfterUpload).any
      (fun host => (host claimAddress).object ∧ (host claimAddress).owed = [js "doc", js "other"] ∧
        ((host claimAddress).metadata.map BlobMeta.mimeType) = some statementMimeType) = true := by
  decide +kernel

theorem uploadedClaim_passes :
    checkUploadedStatement paddedPlatform (uploadedClaim "one") (sampleView []) none = .ok () := by
  decide +kernel

theorem cachesStatements_cachedAfterUpload (host : Host) :
    ∀ action ∈ cachedAfterUpload, CachesStatements host action := by
  have verified : VerifiedStatement paddedPlatform [] (uploadedClaim "one") :=
    verifiedStatement_of_check uploadedClaim_passes
  have resumes (call : CallId) : ∀ action ∈
      List.replicate 5 (.store claimAddress (.resume call) : HostAction paddedPlatform []),
      CachesStatements host action := by
    intro action member call write bytes same
    rw [List.eq_of_mem_replicate member] at same
    cases same
  have writes : CachesStatements host (.write 0
      (.upload statementMimeType (uploadedClaim "one") (js "doc") none (sampleView [])) :
      HostAction paddedPlatform []) ∧
      CachesStatements host (.write 1
        (.cachePut statementMimeType (uploadedClaim "one") (js "other")) :
        HostAction paddedPlatform []) := by
    constructor
    · intro call write bytes same json
      cases same
      cases json
    · intro call write bytes same json
      cases same
      exact json.2 ▸ verified
  exact List.forall_mem_append.mpr ⟨List.forall_mem_cons.mpr ⟨writes.1, resumes 0⟩,
    List.forall_mem_cons.mpr ⟨writes.2, resumes 1⟩⟩

/-- The claim is stored as JSON by both, and so it verifies. -/
theorem uploaded_claim_is_verified :
    ∃ host, Reaches (hostStep fun _ => uploadedClaim "one")
        (CachesStatements : Host → HostAction paddedPlatform [] → Prop) emptyHost host ∧
      (host claimAddress).owed = [js "doc", js "other"] ∧
      VerifiedStatement paddedPlatform [] (uploadedClaim "one") := by
  obtain ⟨host, ran, found⟩ := (Option.any_eq_true _ _).mp cachedAfterUpload_stores
  obtain ⟨object, owed, typed⟩ := of_decide_eq_true found
  obtain ⟨metadata, present, json⟩ := Option.map_eq_some_iff.mp typed
  have reached : Reaches (hostStep fun _ => uploadedClaim "one")
      (CachesStatements : Host → HostAction paddedPlatform [] → Prop) emptyHost host :=
    .of_run ran (meetsAlong_of_forall (fun action member host =>
      cachesStatements_cachedAfterUpload host action member) emptyHost)
  have verified := json_means_verified host reached claimAddress metadata object present json
  exact ⟨host, reached, owed, verified⟩

/-! ## Anything cached as JSON -/

/-- Nothing verifies. -/
def forgedPlatform : Platform := { paddedPlatform with verify := fun _ _ _ => false }

theorem not_verifiedStatement_forged (hostKeys : List JsString) (bytes : Bytes) :
    ¬ VerifiedStatement forgedPlatform hostKeys bytes := by
  rintro ⟨signed, type, -, -, key, valid, -⟩
  unfold verifyStatement at valid
  split at valid
  · simp [forgedPlatform] at valid
  · cases valid

def forgedAddress : JsString := sha256Hex forgedPlatform (uploadedClaim "one")

/-- A recording's document says that its audio is JSON, and its bytes are a claim. -/
def cacheForged : List (HostAction forgedPlatform []) :=
  .write 0 (.cachePut statementMimeType (uploadedClaim "one") (js "doc")) ::
    List.replicate 5 (.store forgedAddress (.resume 0))

theorem forged_claim_cached_as_json :
    ¬ JsonMeansVerified forgedPlatform [] (fun _ => uploadedClaim "one") anyAction := by
  intro means
  have stored : (run (hostStep fun _ => uploadedClaim "one") emptyHost cacheForged).any
      (fun host => (host forgedAddress).object ∧
        ((host forgedAddress).metadata.map BlobMeta.mimeType) = some statementMimeType) = true := by
    decide +kernel
  obtain ⟨host, ran, found⟩ := (Option.any_eq_true _ _).mp stored
  obtain ⟨object, typed⟩ := of_decide_eq_true found
  obtain ⟨metadata, present, json⟩ := Option.map_eq_some_iff.mp typed
  have reached := Reaches.of_run ran (meetsAlong_anyAction cacheForged _)
  exact not_verifiedStatement_forged [] _
    (means host reached forgedAddress metadata object present json)

end Tapes.Uploads
