import Tapes.Provenance.SameShape
import Tapes.Provenance.Shown
import Tapes.Uploads.StatementUpload

namespace Tapes.Uploads

open Tapes.Js Tapes.Provenance

/-! Two checkers of one set of statements: the host's, when a statement is uploaded, and
the reader's, over everything a recording lists. -/

variable {platform : Platform} {blob : BlobDescriptor} {view : StoreView}
  {bytes claimBytes linkBytes : Bytes} {signed claimSigned : Signed JsValue} {claim : RecordingClaim}
  {forClaim : Option JsString} {statements : List FetchedStatement}

/-! ## The reader's check of the types -/

/-- The reader's check of a statement at its own address. -/
theorem checkStatement_eq (is : IsStatement bytes signed) :
    checkStatement platform blob (sha256Hex platform bytes) bytes =
      checkByType platform blob signed := by
  simp only [checkStatement, is.read, isCanonical, is.canonical, ne_eq, not_true, if_false,
    decide_true, Bool.true_eq_false]

theorem checkByType_eq (signed : Signed JsValue) :
    checkByType platform blob signed =
      match statementTypeOf signed with
      | some .claim => .ofCheck .claim (checkRecordingClaim platform signed blob)
      | some .receipt => .ofCheck .receipt (checkHostReceipt platform signed)
      | some .session => .ofCheck .session (checkSessionRecord platform signed)
      | some .certificate => .ofCheck (.link ∘ .certificate) (checkDeviceCertificate platform signed)
      | some .vouch => .ofCheck (.link ∘ .vouch) (checkDeviceVouch platform signed)
      | some .revocation => .ofCheck .revocation (checkDeviceRevocation platform signed)
      | none => .unknown := by
  simp only [checkByType, statementTypeOf]
  split_ifs <;> rfl

theorem claim_statementTypeOf (shape : recordingClaim? signed.payload = some claim) :
    statementTypeOf signed = some .claim := by
  have tagged : hasType signed.payload recordingClaimType = true := by
    by_contra untagged
    simp [recordingClaim?, guard, untagged] at shape
  simp only [statementTypeOf, statementTypeOf_of_hasType tagged, if_true]

theorem checkDeviceLink_reads {link : DeviceLink}
    (passed : checkDeviceLink platform signed = some (.ok link)) :
    checkByType platform blob signed = .link link := by
  rw [checkByType_eq]
  unfold checkDeviceLink at passed
  split at passed
  · rename_i type
    rw [type]
    cases checked : checkDeviceCertificate platform signed with
    | error problem => simp [checked, Except.map] at passed
    | ok certificate =>
        simp only [checked, Except.map, Option.some.injEq, Except.ok.injEq] at passed
        rw [← passed]
        rfl
  · rename_i type
    rw [type]
    cases checked : checkDeviceVouch platform signed with
    | error problem => simp [checked, Except.map] at passed
    | ok vouch =>
        simp only [checked, Except.map, Option.some.injEq, Except.ok.injEq] at passed
        rw [← passed]
        rfl
  · cases passed

/-! ## The claim -/

/-- The host has checked the claim against the audio it holds, as an upload of its own or
next to the audio. The bytes are the ones it stores. -/
inductive ClaimPassed (platform : Platform) (blob : BlobDescriptor) (bytes : Bytes) : Prop
  | uploaded {view : StoreView} {forClaim : Option JsString} {signed : Signed JsValue}
      {claim : RecordingClaim} {audio : BlobStat}
      (read : parseSignedStatement bytes = some signed)
      (shape : recordingClaim? signed.payload = some claim)
      (held : view.stat claim.blob.hash = some audio) (same : audio.blob = blob)
      (accepted : checkUploadedStatement platform bytes view forClaim = .ok ())
  | ingested {encoded : JsString} {signed : Signed JsValue} {claim : Signed RecordingClaim}
      (decoded : decodeSignedStatement encoded = some signed)
      (checked : checkRecordingClaim platform signed blob = .ok claim)
      (stored : statementBytes signed = some bytes)

theorem claimHash_of_shape (shape : recordingClaim? signed.payload = some claim) :
    ((signed.payload.get (js "blob")).get (js "hash")).string? = some claim.blob.hash := by
  simp only [recordingClaim?, stringField, Option.bind_eq_bind, Option.bind_eq_some_iff] at shape
  obtain ⟨_, -, hash, isHash, _, -, _, -, _, -, _, -, _, -, _, -, _, -, made⟩ := shape
  cases made
  exact isHash

theorem isUndefined_of_claim (shape : recordingClaim? signed.payload = some claim) :
    signed.payload.isUndefined = false := by
  have hash := claimHash_of_shape shape
  cases held : signed.payload with
  | undefined =>
      rw [held] at hash
      cases hash
  | null | boolean | number | string | array | object => rfl

/-- The stored claim passes the same check against the same audio. -/
theorem ClaimPassed.checked (passed : ClaimPassed platform blob bytes) :
    ∃ signed claim, IsStatement bytes signed ∧
      checkRecordingClaim platform signed blob = .ok claim := by
  cases passed with
  | uploaded read shape held same accepted =>
      obtain ⟨signed, is, checked⟩ := checkUploadedStatement_ok_iff.mp accepted
      cases is.unique read
      rw [checkByUploadType, claim_statementTypeOf shape] at checked
      simp only [checkClaim, claimHash_of_shape shape, Option.bind_some, held, same] at checked
      split at checked
      · cases checked
      · rename_i claim passes
        exact ⟨_, claim, is, passes⟩
  | ingested decoded checked stored =>
      rename_i encoded signed claim
      obtain ⟨shape, -⟩ := checkRecordingClaim_eq_ok_iff.mp checked
      obtain ⟨raw, -, parsed⟩ := Option.bind_eq_some_iff.mp decoded
      have payload := parsed_of_parseSignedStatement parsed
      obtain ⟨data, signature⟩ := isData_of_written payload stored (isUndefined_of_claim shape)
      obtain ⟨again, reread⟩ := exists_reread data signature stored
      obtain ⟨size, passes⟩ := reread.checkRecordingClaim checked
      exact ⟨again, _, ⟨reread.read, reread.canonical⟩, passes⟩

theorem checkStatement_claim (is : IsStatement bytes signed) {claim : Signed RecordingClaim}
    (checked : checkRecordingClaim platform signed blob = .ok claim) :
    checkStatement platform blob (sha256Hex platform bytes) bytes = .claim claim.payload := by
  obtain ⟨shape, -⟩ := checkRecordingClaim_eq_ok_iff.mp checked
  rw [checkStatement_eq is, checkByType_eq, claim_statementTypeOf shape]
  simp only [checked, Checked.ofCheck]

/-! ## The statement -/

/-- The host accepted the link as one the claim names. The store held the claim. -/
structure LinkAccepted (platform : Platform) (claimBytes linkBytes : Bytes) (link : DeviceLink) :
    Prop where
  accepted : ∃ view : StoreView, view.object (sha256Hex platform claimBytes) = some claimBytes ∧
    checkUploadedStatement platform linkBytes view (some (sha256Hex platform claimBytes)) = .ok ()
  reads : ∃ signed, parseSignedStatement linkBytes = some signed ∧
    checkDeviceLink platform signed = some (.ok link)

/-- The host accepted the statement because of the claim, and of the link it needs. -/
inductive AcceptedFor (platform : Platform) (claimBytes bytes : Bytes) : Option Bytes → Prop
  | receipt {view : StoreView} {signed : Signed JsValue} {receipt : Signed HostReceipt}
      (accepted : checkUploadedStatement platform bytes view none = .ok ())
      (read : parseSignedStatement bytes = some signed)
      (type : statementTypeOf signed = some .receipt)
      (checked : checkHostReceipt platform signed = .ok receipt)
      (names : receipt.payload.claim = sha256Hex platform claimBytes) :
      AcceptedFor platform claimBytes bytes none
  | session {view : StoreView} {signed : Signed JsValue} {record : Signed SessionRecord}
      (accepted : checkUploadedStatement platform bytes view none = .ok ())
      (read : parseSignedStatement bytes = some signed)
      (type : statementTypeOf signed = some .session)
      (checked : checkSessionRecord platform signed = .ok record)
      (names : sha256Hex platform claimBytes ∈ record.payload.claims) :
      AcceptedFor platform claimBytes bytes none
  | link {link : DeviceLink} (accepted : LinkAccepted platform claimBytes bytes link) :
      AcceptedFor platform claimBytes bytes none
  | revocation {view : StoreView} {signed : Signed JsValue}
      {revocation : Signed DeviceRevocation} {linkBytes : Bytes} {link : DeviceLink}
      (accepted : checkUploadedStatement platform bytes view none = .ok ())
      (read : parseSignedStatement bytes = some signed)
      (type : statementTypeOf signed = some .revocation)
      (checked : checkDeviceRevocation platform signed = .ok revocation)
      (names : revocation.payload.deviceLink = sha256Hex platform linkBytes)
      (held : view.object (sha256Hex platform linkBytes) = some linkBytes)
      (needs : LinkAccepted platform claimBytes linkBytes link) :
      AcceptedFor platform claimBytes bytes (some linkBytes)

/-- What the reader reads the statement as. -/
def readsAs (platform : Platform) (blob : BlobDescriptor) (bytes : Bytes) : Checked :=
  checkStatement platform blob (sha256Hex platform bytes) bytes

theorem LinkAccepted.readsAs {link : DeviceLink}
    (accepted : LinkAccepted platform claimBytes linkBytes link) :
    readsAs platform blob linkBytes = .link link := by
  obtain ⟨view, -, passed⟩ := accepted.accepted
  obtain ⟨signed, read, checked⟩ := accepted.reads
  obtain ⟨is, -⟩ := IsStatement.of_accepted passed read
  rw [Uploads.readsAs, checkStatement_eq is, checkDeviceLink_reads checked]

theorem storedClaim_eq (is : IsStatement claimBytes claimSigned) {address : JsString}
    (held : view.object address = some claimBytes) {stored : Signed JsValue}
    (found : storedClaim view address = some stored) : stored = claimSigned := by
  unfold storedClaim at found
  split at found
  · obtain ⟨read, -⟩ := Option.filter_eq_some_iff.mp found
    unfold readStoredStatement at read
    split at read
    · rw [held, Option.bind_some] at read
      exact is.unique read
    · cases read
  · cases found

theorem deviceFields_of_shape (shape : recordingClaim? signed.payload = some claim) :
    optionalStringField signed.payload "deviceCert" = some claim.deviceCert ∧
      (signed.payload.get (js "deviceKey")).string? = some claim.deviceKey := by
  simp only [recordingClaim?, stringField, Option.bind_eq_bind, Option.bind_eq_some_iff] at shape
  obtain ⟨_, -, _, -, _, -, _, -, _, -, _, -, _, -, _, isKey, _, isCert, made⟩ := shape
  cases made
  exact ⟨isCert, isKey⟩

theorem deviceCert_of_string {address : JsString}
    (shape : recordingClaim? signed.payload = some claim)
    (names : (signed.payload.get (js "deviceCert")).string? = some address) :
    claim.deviceCert = some address := by
  have cert := (deviceFields_of_shape shape).1
  unfold optionalStringField at cert
  cases held : signed.payload.get (js "deviceCert") with
  | string text =>
      rw [held] at cert names
      rw [← Option.some.inj cert]
      exact names
  | undefined | null | boolean | number | array | object =>
      rw [held] at names
      cases names

/-- The claim names an accepted link for its own key. -/
theorem LinkAccepted.named {link : DeviceLink} (is : IsStatement claimBytes claimSigned)
    (shape : recordingClaim? claimSigned.payload = some claim)
    (accepted : LinkAccepted platform claimBytes linkBytes link) :
    claim.deviceCert = some (sha256Hex platform linkBytes) ∧ claim.deviceKey = link.deviceKey := by
  obtain ⟨view, held, passed⟩ := accepted.accepted
  obtain ⟨signed, read, checked⟩ := accepted.reads
  obtain ⟨-, bound⟩ := IsStatement.of_accepted passed read
  have uploaded : checkDeviceLinkUpload platform view signed (sha256Hex platform linkBytes)
      (some (sha256Hex platform claimBytes)) = .ok () := by
    unfold checkDeviceLink at checked
    unfold checkByUploadType at bound
    split at checked
    · rename_i type
      simpa only [type] using bound
    · rename_i type
      simpa only [type] using bound
    · cases checked
  simp only [checkDeviceLinkUpload, checked] at uploaded
  split at uploaded
  · cases uploaded
  · rename_i stored found
    split at uploaded
    · rename_i names
      obtain ⟨address, kept, stored⟩ := Option.bind_eq_some_iff.mp found
      obtain ⟨same, -⟩ := Option.filter_eq_some_iff.mp kept
      cases same
      cases storedClaim_eq is held stored
      simp only [claimNames, Bool.and_eq_true, decide_eq_true_eq] at names
      refine ⟨deviceCert_of_string shape names.1, ?_⟩
      have key := (deviceFields_of_shape shape).2
      rw [names.2, Option.some.injEq] at key
      exact key.symm
    · cases uploaded

/-! ## The failures of one listed statement -/

/-- The statement is listed, and these are the bytes that were fetched for it. -/
def Listed (platform : Platform) (statements : List FetchedStatement) (bytes : Bytes) : Prop :=
  (sha256Hex platform bytes, some bytes) ∈ (uniqueStatements statements).entries

instance : Decidable (Listed platform statements bytes) :=
  inferInstanceAs (Decidable (_ ∈ _))

theorem mem_passing_of_listed (listed : Listed platform statements bytes)
    {select : Checked → Option α} {value : α} :
    (sha256Hex platform bytes, value) ∈
        passing platform blob select (uniqueStatements statements).entries ↔
      select (readsAs platform blob bytes) = some value := by
  rw [mem_passing]
  constructor
  · rintro ⟨other, member, selected⟩
    have here := OrderedMap.get?_eq_some_iff.mpr listed
    have also := OrderedMap.get?_eq_some_iff.mpr member
    rw [here, Option.some.injEq, Option.some.injEq] at also
    subst also
    exact selected
  · intro selected
    exact ⟨bytes, listed, selected⟩

/-- Entries that are all named by their own address fail only through their own problem. -/
theorem mem_filterMap_named {entries : List (JsString × α)}
    {fails : JsString × α → Option (JsString × StatementProblem)} {address : JsString}
    (named : ∀ entry failure, fails entry = some failure → failure.1 = entry.1) :
    (∃ problem, (address, problem) ∈ entries.filterMap fails) ↔
      ∃ value, (address, value) ∈ entries ∧ fails (address, value) ≠ none := by
  simp only [List.mem_filterMap]
  constructor
  · rintro ⟨problem, ⟨name, value⟩, member, failed⟩
    have same : address = name := named (name, value) _ failed
    subst same
    exact ⟨value, member, by simp [failed]⟩
  · rintro ⟨value, member, failed⟩
    obtain ⟨⟨name, problem⟩, found⟩ := Option.ne_none_iff_exists'.mp failed
    have same : name = address := named (address, value) _ found
    subst same
    exact ⟨problem, _, member, found⟩

/-- The reader finds something wrong with the statement at this address. -/
def Fails (platform : Platform) (blob : BlobDescriptor) (statements : List FetchedStatement)
    (address : JsString) : Prop :=
  ∃ failures problem,
    verifyRecordingStatements platform blob statements = some (.failed failures) ∧
      (address, problem) ∈ failures

theorem failed_iff {failures : List (JsString × StatementProblem)} :
    verifyRecordingStatements platform blob statements = some (.failed failures) ↔
      allFailures (collect platform blob statements) = failures ∧ failures ≠ [] := by
  unfold verifyRecordingStatements
  dsimp only
  split_ifs with refused missing
  · grind
  · grind
  · rw [not_not] at refused
    constructor
    · intro verified
      split at verified
      · split at verified <;> cases verified
      · split at verified <;> cases verified
    · rintro ⟨rfl, some⟩
      exact absurd refused some

theorem fails_iff_mem_allFailures {address : JsString} :
    Fails platform blob statements address ↔
      ∃ problem, (address, problem) ∈ allFailures (collect platform blob statements) := by
  constructor
  · rintro ⟨failures, problem, failed, member⟩
    rw [← (failed_iff.mp failed).1] at member
    exact ⟨problem, member⟩
  · rintro ⟨problem, member⟩
    exact ⟨_, problem, failed_iff.mpr ⟨rfl, List.ne_nil_of_mem member⟩, member⟩

/-- What the reader asks of the listed statements for one that it reads like this. -/
def Binds (platform : Platform) (blob : BlobDescriptor) (statements : List FetchedStatement)
    (address : JsString) : Checked → Prop
  | .receipt receipt => ∃ claim, (receipt.claim, claim) ∈ claimsOf platform blob statements
  | .session record =>
      ∃ claim ∈ claimsOf platform blob statements,
        claim.2.sessionId = record.sessionId ∧ claim.1 ∈ record.claims
  | .link link =>
      (∃ claim ∈ claimsOf platform blob statements, claim.2.deviceCert = some address) ∧
      ∀ claim ∈ claimsOf platform blob statements,
        claim.2.deviceCert = some address → claim.2.deviceKey = link.deviceKey
  | .revocation revocation =>
      ∃ link, (revocation.deviceLink, link) ∈ linksOf platform blob statements ∧
        revocationCovers revocation link revocation.deviceLink = true
  | .claim _ | .unknown => True
  | .failed _ => False

section

variable {address : JsString}

/-- A pass over the entries of one type, as the checks of the listed bytes see it. -/
theorem mem_filterMap_passing {select : Checked → Option α}
    {fails : JsString × α → Option (JsString × StatementProblem)}
    (named : ∀ entry failure, fails entry = some failure → failure.1 = entry.1) :
    (∃ problem, (address, problem) ∈
        (passing platform blob select (uniqueStatements statements).entries).filterMap fails) ↔
      ∃ bytes, (address, some bytes) ∈ (uniqueStatements statements).entries ∧
        ∃ value, select (checkStatement platform blob address bytes) = some value ∧
          fails (address, value) ≠ none := by
  rw [mem_filterMap_named named]
  constructor
  · rintro ⟨value, member, failed⟩
    obtain ⟨bytes, listed, selected⟩ := mem_passing.mp member
    exact ⟨bytes, listed, value, selected, failed⟩
  · rintro ⟨bytes, listed, value, selected, failed⟩
    exact ⟨value, mem_passing.mpr ⟨bytes, listed, selected⟩, failed⟩

theorem mem_failures_iff :
    (∃ problem, (address, problem) ∈ (collect platform blob statements).failures) ↔
      ∃ bytes, (address, some bytes) ∈ (uniqueStatements statements).entries ∧
        ∃ problem, checkStatement platform blob address bytes = .failed problem := by
  rw [(collect_spec platform blob statements).failures]
  simp only [mem_passing]
  rw [exists_comm]
  apply exists_congr
  intro bytes
  rw [exists_and_left]
  cases checkStatement platform blob address bytes <;> simp [Checked.problem?]

theorem mem_receiptFailures_iff :
    (∃ problem, (address, problem) ∈ receiptFailures (collect platform blob statements)) ↔
      ∃ bytes, (address, some bytes) ∈ (uniqueStatements statements).entries ∧
        ∃ receipt, checkStatement platform blob address bytes = .receipt receipt ∧
          ¬ Binds platform blob statements address (.receipt receipt) := by
  have spec := collect_spec platform blob statements
  have bound : ∀ receipt : HostReceipt,
      (collect platform blob statements).claims.has receipt.claim = true ↔
        ∃ claim, (receipt.claim, claim) ∈ claimsOf platform blob statements := by
    intro receipt
    simp only [OrderedMap.has_iff, OrderedMap.get?_eq_some_iff, spec.claims, claimsOf]
  unfold receiptFailures
  rw [spec.receipts, mem_filterMap_passing]
  · simp only [Binds, ← bound]
    apply exists_congr
    intro bytes
    cases checkStatement platform blob address bytes <;> simp [Checked.receipt?]
  · rintro ⟨name, receipt⟩ failure
    grind

theorem mem_sessionFailures_iff :
    (∃ problem, (address, problem) ∈ sessionFailures (collect platform blob statements)) ↔
      ∃ bytes, (address, some bytes) ∈ (uniqueStatements statements).entries ∧
        ∃ record, checkStatement platform blob address bytes = .session record ∧
          ¬ Binds platform blob statements address (.session record) := by
  have spec := collect_spec platform blob statements
  unfold sessionFailures
  rw [spec.sessions, mem_filterMap_passing]
  · simp only [ne_eq, Option.map_eq_none_iff, sessionProblem_eq_none_iff, spec.claims, Binds,
      claimsOf]
    apply exists_congr
    intro bytes
    cases checkStatement platform blob address bytes <;> simp [Checked.session?]
  · rintro ⟨name, record⟩ failure failed
    obtain ⟨problem, -, rfl⟩ := Option.map_eq_some_iff.mp failed
    rfl

theorem mem_linkFailures_iff :
    (∃ problem, (address, problem) ∈ linkFailures (collect platform blob statements)) ↔
      ∃ bytes, (address, some bytes) ∈ (uniqueStatements statements).entries ∧
        ∃ link, checkStatement platform blob address bytes = .link link ∧
          ¬ Binds platform blob statements address (.link link) := by
  have spec := collect_spec platform blob statements
  unfold linkFailures
  rw [spec.links, mem_filterMap_passing]
  · apply exists_congr
    intro bytes
    apply and_congr_right
    intro
    apply exists_congr
    intro link
    apply and_congr
    · cases checkStatement platform blob address bytes <;> simp [Checked.link?]
    · exact not_congr (linkFailure_eq_none_iff _ link)
  · rintro ⟨name, link⟩ failure
    grind

theorem mem_revocationFailures_iff :
    (∃ problem, (address, problem) ∈ revocationFailures (collect platform blob statements)) ↔
      ∃ bytes, (address, some bytes) ∈ (uniqueStatements statements).entries ∧
        ∃ revocation, checkStatement platform blob address bytes = .revocation revocation ∧
          ¬ Binds platform blob statements address (.revocation revocation) := by
  have spec := collect_spec platform blob statements
  have member : ∀ address link,
      (collect platform blob statements).links.get? address = some link ↔
        (address, link) ∈ linksOf platform blob statements := by
    intro address link
    rw [OrderedMap.get?_eq_some_iff, spec.links, linksOf]
  unfold revocationFailures
  rw [spec.revocations, mem_filterMap_passing]
  · simp only [Binds, ← member]
    apply exists_congr
    intro bytes
    cases checkStatement platform blob address bytes <;> simp [Checked.revocation?]
    intro
    split <;> simp [*]
  · rintro ⟨name, revocation⟩ failure
    grind

/-- The reader refuses exactly the listed statements that do not bind. -/
theorem fails_iff :
    Fails platform blob statements address ↔
      ∃ bytes, (address, some bytes) ∈ (uniqueStatements statements).entries ∧
        ¬ Binds platform blob statements address (checkStatement platform blob address bytes) := by
  rw [fails_iff_mem_allFailures]
  simp only [allFailures, List.mem_append, exists_or]
  rw [mem_failures_iff, mem_receiptFailures_iff, mem_sessionFailures_iff, mem_linkFailures_iff,
    mem_revocationFailures_iff]
  simp only [← exists_or, ← and_or_left]
  apply exists_congr
  intro bytes
  apply and_congr_right
  intro
  cases checkStatement platform blob address bytes <;> simp [Binds]

theorem fails_listed_iff (listed : Listed platform statements bytes) :
    Fails platform blob statements (sha256Hex platform bytes) ↔
      ¬ Binds platform blob statements (sha256Hex platform bytes)
        (readsAs platform blob bytes) := by
  rw [fails_iff]
  constructor
  · rintro ⟨other, member, unbound⟩
    have here := OrderedMap.get?_eq_some_iff.mpr listed
    have also := OrderedMap.get?_eq_some_iff.mpr member
    rw [here, Option.some.injEq, Option.some.injEq] at also
    subst also
    exact unbound
  · intro unbound
    exact ⟨bytes, listed, unbound⟩

end

/-! ## What the acceptance says to the reader -/

theorem readsAs_of_type {view : StoreView}
    (accepted : checkUploadedStatement platform bytes view none = .ok ())
    (read : parseSignedStatement bytes = some signed) :
    readsAs platform blob bytes = checkByType platform blob signed :=
  checkStatement_eq (IsStatement.of_accepted accepted read).1

/-- The claim is among the listed ones that pass. -/
theorem ClaimPassed.mem_claimsOf (passed : ClaimPassed platform blob claimBytes)
    (listed : Listed platform statements claimBytes) :
    ∃ signed claim, IsStatement claimBytes signed ∧
      recordingClaim? signed.payload = some claim ∧
      readsAs platform blob claimBytes = .claim claim ∧
      (sha256Hex platform claimBytes, claim) ∈ claimsOf platform blob statements := by
  obtain ⟨signed, claim, is, checked⟩ := passed.checked
  have reads : readsAs platform blob claimBytes = .claim claim.payload :=
    checkStatement_claim is checked
  obtain ⟨shape, -⟩ := checkRecordingClaim_eq_ok_iff.mp checked
  refine ⟨signed, claim.payload, is, shape, reads, ?_⟩
  rw [claimsOf, mem_passing_of_listed listed, reads]
  rfl

theorem LinkAccepted.mem_linksOf {link : DeviceLink}
    (accepted : LinkAccepted platform claimBytes linkBytes link)
    (listed : Listed platform statements linkBytes) :
    (sha256Hex platform linkBytes, link) ∈ linksOf platform blob statements := by
  rw [linksOf, mem_passing_of_listed listed, accepted.readsAs]
  rfl

theorem LinkAccepted.storedLink_eq {link stored : DeviceLink}
    (accepted : LinkAccepted platform claimBytes linkBytes link)
    (held : view.object (sha256Hex platform linkBytes) = some linkBytes)
    (found : storedLink platform view (sha256Hex platform linkBytes) = some stored) :
    stored = link := by
  obtain ⟨signed, read, checked⟩ := accepted.reads
  unfold storedLink readStoredStatement at found
  split at found
  · split at found
    · rename_i again reread
      split at reread
      · rw [held, Option.bind_some, read, Option.bind_some, checked] at reread
        cases reread
        exact (Option.some.inj found).symm
      · cases reread
    · cases found
  · cases found

/-- What the reader still asks of a statement that the host took because of the claim. -/
def BindsBeside (platform : Platform) (blob : BlobDescriptor) (statements : List FetchedStatement)
    (bytes : Bytes) : Prop :=
  match readsAs platform blob bytes with
  | .session record =>
      ∃ claim ∈ claimsOf platform blob statements,
        claim.1 ∈ record.claims ∧ claim.2.sessionId = record.sessionId
  | .link link =>
      ∀ claim ∈ claimsOf platform blob statements,
        claim.2.deviceCert = some (sha256Hex platform bytes) →
          claim.2.deviceKey = link.deviceKey
  | _ => True

/-- The statement is not a record of another session than the claim's. -/
def SameSession (platform : Platform) (blob : BlobDescriptor) (claimBytes bytes : Bytes) : Prop :=
  ∀ claim record, readsAs platform blob claimBytes = .claim claim →
    readsAs platform blob bytes = .session record → claim.sessionId = record.sessionId

/-- Nothing else is listed. -/
def OnlyListed (platform : Platform) (statements : List FetchedStatement)
    (all : List Bytes) : Prop :=
  ∀ entry ∈ (uniqueStatements statements).entries, entry.1 ∈ all.map (sha256Hex platform)

instance {all : List Bytes} : Decidable (OnlyListed platform statements all) :=
  inferInstanceAs (Decidable (∀ entry ∈ _, _))

section

variable {needs : Option Bytes} (passed : ClaimPassed platform blob claimBytes)
  (accepted : AcceptedFor platform claimBytes bytes needs)
  (claimListed : Listed platform statements claimBytes)

include passed accepted claimListed

theorem AcceptedFor.binds_iff (needListed : ∀ link ∈ needs, Listed platform statements link) :
    Binds platform blob statements (sha256Hex platform bytes) (readsAs platform blob bytes) ↔
      BindsBeside platform blob statements bytes := by
  obtain ⟨claimSigned, claim, is, shape, -, member⟩ := passed.mem_claimsOf claimListed
  unfold BindsBeside
  cases accepted with
  | receipt accepted read type checked names =>
      rw [readsAs_of_type accepted read, checkByType_eq, type]
      simp only [checked, Checked.ofCheck, Binds, iff_true]
      rw [names]
      exact ⟨claim, member⟩
  | session accepted read type checked names =>
      rw [readsAs_of_type accepted read, checkByType_eq, type]
      simp only [checked, Checked.ofCheck, Binds, and_comm]
  | link accepted =>
      obtain ⟨cert, key⟩ := accepted.named is shape
      rw [accepted.readsAs]
      simp only [Binds, and_iff_right_iff_imp]
      intro
      exact ⟨_, member, cert⟩
  | revocation accepted read type checked names held needed =>
      rename_i view signed revocation linkBytes link
      rw [readsAs_of_type accepted read, checkByType_eq, type]
      simp only [checked, Checked.ofCheck, Binds, iff_true]
      rw [names]
      have linked : _ ∈ linksOf platform blob _ := needed.mem_linksOf (needListed linkBytes rfl)
      obtain ⟨-, bound⟩ := IsStatement.of_accepted accepted read
      rw [checkByUploadType, type] at bound
      simp only [checkRevocationUpload, checked, names] at bound
      split at bound
      · cases bound
      · rename_i stored found
        rw [needed.storedLink_eq held found] at bound
        exact ⟨link, linked, by simpa using bound⟩

theorem AcceptedFor.not_fails_iff (statementListed : Listed platform statements bytes)
    (needListed : ∀ link ∈ needs, Listed platform statements link) :
    ¬ Fails platform blob statements (sha256Hex platform bytes) ↔
      BindsBeside platform blob statements bytes := by
  rw [fails_listed_iff statementListed, not_not]
  exact accepted.binds_iff passed claimListed needListed

omit passed claimListed in
theorem AcceptedFor.not_claim : (readsAs platform blob bytes).claim? = none := by
  cases accepted with
  | receipt accepted read type checked names =>
      rw [readsAs_of_type accepted read, checkByType_eq, type]
      simp only [checked, Checked.ofCheck, Checked.claim?]
  | session accepted read type checked names =>
      rw [readsAs_of_type accepted read, checkByType_eq, type]
      simp only [checked, Checked.ofCheck, Checked.claim?]
  | link accepted =>
      rw [accepted.readsAs]
      rfl
  | revocation accepted read type checked names held needed =>
      rw [readsAs_of_type accepted read, checkByType_eq, type]
      simp only [checked, Checked.ofCheck, Checked.claim?]

omit passed claimListed in
theorem AcceptedFor.need_not_claim : ∀ link ∈ needs, (readsAs platform blob link).claim? = none := by
  intro link needed
  cases accepted with
  | receipt | session | link => cases needed
  | revocation accepted read type checked names held linked =>
      cases needed
      rw [linked.readsAs]
      rfl

omit passed in
/-- With nothing else listed, the claim is the only one that passes. -/
theorem AcceptedFor.claim_alone (statementListed : Listed platform statements bytes)
    (needListed : ∀ link ∈ needs, Listed platform statements link)
    (only : OnlyListed platform statements (claimBytes :: bytes :: needs.toList))
    {claim : RecordingClaim} (reads : readsAs platform blob claimBytes = .claim claim) :
    ∀ entry ∈ claimsOf platform blob statements,
      entry = (sha256Hex platform claimBytes, claim) := by
  rintro ⟨address, other⟩ member
  have nowhere : ∀ {bytes : Bytes}, Listed platform statements bytes →
      (readsAs platform blob bytes).claim? = none → address ≠ sha256Hex platform bytes := by
    rintro bytes listed no rfl
    rw [claimsOf, mem_passing_of_listed listed, no] at member
    cases member
  have key : address ∈ (uniqueStatements statements).entries.map Prod.fst :=
    passing_keys_subset (List.mem_map_of_mem (f := Prod.fst) member)
  obtain ⟨entry, inside, rfl⟩ := List.mem_map.mp key
  obtain same | same | ⟨link, needed, same⟩ :
      entry.1 = sha256Hex platform claimBytes ∨ entry.1 = sha256Hex platform bytes ∨
        ∃ link ∈ needs, sha256Hex platform link = entry.1 := by
    simpa using only entry inside
  · rw [same, claimsOf, mem_passing_of_listed claimListed, reads] at member
    cases member
    rw [same]
  · exact absurd same (nowhere statementListed accepted.not_claim)
  · exact absurd same.symm (nowhere (needListed link needed) (accepted.need_not_claim link needed))

theorem AcceptedFor.bindsBeside_alone_iff (statementListed : Listed platform statements bytes)
    (needListed : ∀ link ∈ needs, Listed platform statements link)
    (only : OnlyListed platform statements (claimBytes :: bytes :: needs.toList)) :
    BindsBeside platform blob statements bytes ↔ SameSession platform blob claimBytes bytes := by
  obtain ⟨claimSigned, claim, is, shape, reads, member⟩ := passed.mem_claimsOf claimListed
  have alone : ∀ entry ∈ claimsOf platform blob statements,
      entry = (sha256Hex platform claimBytes, claim) :=
    accepted.claim_alone claimListed statementListed needListed only reads
  have each : ∀ property : JsString × RecordingClaim → Prop,
      (∀ entry ∈ claimsOf platform blob statements, property entry) ↔
        property (sha256Hex platform claimBytes, claim) := by
    intro property
    constructor
    · intro every
      exact every _ member
    · intro here entry inside
      rw [alone entry inside]
      exact here
  have some : ∀ property : JsString × RecordingClaim → Prop,
      (∃ entry ∈ claimsOf platform blob statements, property entry) ↔
        property (sha256Hex platform claimBytes, claim) := by
    intro property
    constructor
    · rintro ⟨entry, inside, here⟩
      rw [alone entry inside] at here
      exact here
    · intro here
      exact ⟨_, member, here⟩
  unfold BindsBeside SameSession
  cases accepted with
  | receipt accepted read type checked names =>
      rw [readsAs_of_type accepted read, checkByType_eq, type]
      simp [checked, Checked.ofCheck]
  | session accepted read type checked names =>
      rw [readsAs_of_type accepted read, checkByType_eq, type, reads]
      simp [checked, Checked.ofCheck, some, names]
  | link accepted =>
      obtain ⟨cert, key⟩ := accepted.named is shape
      rw [accepted.readsAs]
      simp only [reduceCtorEq, false_implies, implies_true, iff_true]
      rw [each]
      exact fun _ => key
  | revocation accepted read type checked names held needed =>
      rw [readsAs_of_type accepted read, checkByType_eq, type]
      simp [checked, Checked.ofCheck]

omit passed accepted in
theorem listed_cases (statementListed : Listed platform statements bytes)
    (needListed : ∀ link ∈ needs, Listed platform statements link)
    (only : OnlyListed platform statements (claimBytes :: bytes :: needs.toList))
    {address : JsString} (fails : Fails platform blob statements address) :
    ∃ listed, (listed = claimBytes ∨ listed = bytes ∨ listed ∈ needs) ∧
      address = sha256Hex platform listed ∧ Listed platform statements listed := by
  obtain ⟨found, member, -⟩ := fails_iff.mp fails
  obtain same | same | ⟨link, needed, same⟩ :
      address = sha256Hex platform claimBytes ∨ address = sha256Hex platform bytes ∨
        ∃ link ∈ needs, sha256Hex platform link = address := by
    simpa using only _ member
  · exact ⟨claimBytes, .inl rfl, same, claimListed⟩
  · exact ⟨bytes, .inr (.inl rfl), same, statementListed⟩
  · exact ⟨link, .inr (.inr needed), same.symm, needListed link needed⟩

/-- The claim never fails, nor does the link that a revocation withdraws. -/
theorem AcceptedFor.rest_binds (statementListed : Listed platform statements bytes)
    (needListed : ∀ link ∈ needs, Listed platform statements link)
    (only : OnlyListed platform statements (claimBytes :: bytes :: needs.toList))
    {listed : Bytes} (rest : listed = claimBytes ∨ listed ∈ needs) :
    Binds platform blob statements (sha256Hex platform listed) (readsAs platform blob listed) := by
  obtain ⟨claimSigned, claim, is, shape, reads, member⟩ := passed.mem_claimsOf claimListed
  obtain rfl | needed := rest
  · rw [reads]
    trivial
  · have alone := accepted.claim_alone claimListed statementListed needListed only reads
    cases accepted with
    | receipt | session | link => cases needed
    | revocation accepted read type checked names held linked =>
        cases needed
        obtain ⟨cert, key⟩ := linked.named is shape
        rw [linked.readsAs]
        refine ⟨⟨_, member, cert⟩, ?_⟩
        intro entry inside _
        rw [alone entry inside]
        exact key

theorem AcceptedFor.failed_alone_iff (statementListed : Listed platform statements bytes)
    (needListed : ∀ link ∈ needs, Listed platform statements link)
    (only : OnlyListed platform statements (claimBytes :: bytes :: needs.toList)) :
    (∃ failures, verifyRecordingStatements platform blob statements = some (.failed failures)) ↔
      Fails platform blob statements (sha256Hex platform bytes) := by
  constructor
  · rintro ⟨failures, failed⟩
    obtain ⟨⟨address, problem⟩, member⟩ := List.exists_mem_of_ne_nil _ (failed_iff.mp failed).2
    have fails : Fails platform blob statements address := ⟨failures, problem, failed, member⟩
    obtain ⟨listed, which, rfl, here⟩ :=
      listed_cases claimListed statementListed needListed only fails
    have unbound := (fails_listed_iff here).mp fails
    obtain claim | same | needed := which
    · exact absurd (accepted.rest_binds passed claimListed statementListed needListed only
        (.inl claim)) unbound
    · rw [← same]
      exact fails
    · exact absurd (accepted.rest_binds passed claimListed statementListed needListed only
        (.inr needed)) unbound
  · rintro ⟨failures, problem, failed, -⟩
    exact ⟨failures, failed⟩

/-- The reader agrees with the host about a statement unless it is a record of a session that no
listed claim in it is of, or a link that another listed claim names for another key. Of these,
the first needs nothing else in the list. -/
theorem host_and_reader_agree_iff (statementListed : Listed platform statements bytes)
    (needListed : ∀ link ∈ needs, Listed platform statements link) :
    (¬ Fails platform blob statements (sha256Hex platform bytes) ↔
      BindsBeside platform blob statements bytes) ∧
    (OnlyListed platform statements (claimBytes :: bytes :: needs.toList) →
      (¬ Fails platform blob statements (sha256Hex platform bytes) ↔
        SameSession platform blob claimBytes bytes) ∧
      ((∃ failures, verifyRecordingStatements platform blob statements =
          some (.failed failures)) ↔ ¬ SameSession platform blob claimBytes bytes)) := by
  have agree := accepted.not_fails_iff passed claimListed statementListed needListed
  refine ⟨agree, ?_⟩
  intro only
  have same := accepted.bindsBeside_alone_iff passed claimListed statementListed needListed only
  refine ⟨agree.trans same, ?_⟩
  rw [accepted.failed_alone_iff passed claimListed statementListed needListed only]
  exact not_iff_comm.mp (agree.trans same) |>.symm

end

/-! ## Sample uploads

The digest of the earlier samples, padded to the length of a blob address. The audio is one
byte, and everything is listed at its own address. -/

def paddedPlatform : Platform :=
  { lengthPlatform with
    sha256 := fun bytes => List.replicate 30 0 ++ lengthPlatform.sha256 bytes }

def heldAudio : Bytes := [0]

def heldBlob : BlobDescriptor := ⟨sha256Hex paddedPlatform heldAudio, sizeOfBytes heldAudio⟩

def fetched (bytes : Bytes) : FetchedStatement := ⟨sha256Hex paddedPlatform bytes, some bytes⟩

def uploadedClaim (sessionId : String) : Bytes :=
  (sampleStatement [("type", .string recordingClaimType),
    ("blob", .object [(js "hash", .string heldBlob.hash), (js "size", .number heldBlob.size),
      (js "mimeType", .string (js "audio/wav"))]),
    ("startedAt", .string (js "t0")), ("endedAt", .string (js "t1")),
    ("sessionId", .string (js sessionId)),
    ("deviceKey", .string (sampleKey 0x41))]).bytes.getD []

def uploadedSession (sessionId : String) (claim : Bytes) : Bytes :=
  (sessionOf sessionId (sha256Hex paddedPlatform claim)).bytes.getD []

/-- The store holds the audio, and the statements as JSON. -/
def sampleView (statements : List Bytes) : StoreView where
  object hash :=
    if hash = heldBlob.hash then some heldAudio
    else statements.find? fun bytes => sha256Hex paddedPlatform bytes = hash
  mimeType hash := some (if hash = heldBlob.hash then js "audio/wav" else statementMimeType)

theorem uploadedClaim_passed :
    ClaimPassed paddedPlatform heldBlob (uploadedClaim "one") := by
  have accepted : checkUploadedStatement paddedPlatform (uploadedClaim "one") (sampleView []) none =
      .ok () := by decide +kernel
  have hash : ((parseSignedStatement (uploadedClaim "one")).bind fun signed =>
      (recordingClaim? signed.payload).map fun claim => claim.blob.hash) =
      some heldBlob.hash := by decide +kernel
  obtain ⟨signed, read, found⟩ := Option.bind_eq_some_iff.mp hash
  obtain ⟨claim, shape, names⟩ := Option.map_eq_some_iff.mp found
  have held : (sampleView []).stat claim.blob.hash = some ⟨heldBlob, js "audio/wav"⟩ := by
    rw [names]
    decide +kernel
  exact .uploaded read shape held rfl accepted

theorem acceptedFor_session (view : StoreView)
    (accepted : checkUploadedStatement platform bytes view none = .ok ())
    (names : ((parseSignedStatement bytes).bind fun signed =>
      ((checkSessionRecord platform signed).toOption).map fun record =>
        decide (statementTypeOf signed = some .session ∧
          sha256Hex platform claimBytes ∈ record.payload.claims)) = some true) :
    AcceptedFor platform claimBytes bytes none := by
  obtain ⟨signed, read, found⟩ := Option.bind_eq_some_iff.mp names
  obtain ⟨record, passed, listed⟩ := Option.map_eq_some_iff.mp found
  obtain ⟨type, inside⟩ := of_decide_eq_true listed
  cases checked : checkSessionRecord platform signed with
  | error problem =>
      rw [checked] at passed
      cases passed
  | ok other =>
      rw [checked] at passed
      cases passed
      exact .session accepted read type checked inside

def claimAndSession (sessionId : String) : List FetchedStatement :=
  [fetched (uploadedClaim "one"), fetched (uploadedSession sessionId (uploadedClaim "one"))]

/-- A record of the claim's own session is accepted, and passes. -/
theorem own_session_record_passes :
    ¬ Fails paddedPlatform heldBlob (claimAndSession "one")
      (sha256Hex paddedPlatform (uploadedSession "one" (uploadedClaim "one"))) := by
  have accepted : AcceptedFor paddedPlatform (uploadedClaim "one")
      (uploadedSession "one" (uploadedClaim "one")) none :=
    acceptedFor_session (sampleView [uploadedClaim "one"]) (by decide +kernel)
      (by decide +kernel)
  apply ((host_and_reader_agree_iff uploadedClaim_passed accepted (by decide +kernel)
    (by decide +kernel) (by simp)).2 (by decide +kernel)).1.mpr
  intro claim record isClaim isSession
  have same : (readsAs paddedPlatform heldBlob (uploadedClaim "one")).claim?.map
        RecordingClaim.sessionId =
      (readsAs paddedPlatform heldBlob
        (uploadedSession "one" (uploadedClaim "one"))).session?.map SessionRecord.sessionId := by
    decide +kernel
  rw [isClaim, isSession] at same
  exact Option.some.inj same

/-- The record lists the claim but is of another session. The host takes it, and the recording
fails for every reader. -/
theorem foreign_session_record_fails :
    ClaimPassed paddedPlatform heldBlob (uploadedClaim "one") ∧
    AcceptedFor paddedPlatform (uploadedClaim "one")
      (uploadedSession "two" (uploadedClaim "one")) none ∧
    Listed paddedPlatform (claimAndSession "two") (uploadedClaim "one") ∧
    Listed paddedPlatform (claimAndSession "two") (uploadedSession "two" (uploadedClaim "one")) ∧
    OnlyListed paddedPlatform (claimAndSession "two")
      [uploadedClaim "one", uploadedSession "two" (uploadedClaim "one")] ∧
    Fails paddedPlatform heldBlob (claimAndSession "two")
      (sha256Hex paddedPlatform (uploadedSession "two" (uploadedClaim "one"))) := by
  have accepted : AcceptedFor paddedPlatform (uploadedClaim "one")
      (uploadedSession "two" (uploadedClaim "one")) none :=
    acceptedFor_session (sampleView [uploadedClaim "one"]) (by decide +kernel)
      (by decide +kernel)
  refine ⟨uploadedClaim_passed, accepted, by decide +kernel, by decide +kernel,
    by decide +kernel, ?_⟩
  rw [fails_iff_mem_allFailures]
  exact ⟨.sessionMismatch, by decide +kernel⟩

end Tapes.Uploads
