import Tapes.Provenance.Passes

namespace Tapes.Provenance

open Tapes.Js

/-! What the result of `verifyRecordingStatements` says about the listed
statements. -/

section

variable {platform : Platform} {α : Type}

theorem firstByTime_mem {timeText : α → JsString} {items : List α} {first : α}
    (found : firstByTime platform timeText items = some first) : first ∈ items := by
  unfold firstByTime at found
  exact (List.mem_insertionSort _).mp (List.mem_of_head? found)

theorem firstByTime_eq_none_iff {timeText : α → JsString} {items : List α} :
    firstByTime platform timeText items = none ↔ items = [] := by
  unfold firstByTime
  rw [List.head?_eq_none_iff, ← List.length_eq_zero_iff, List.length_insertionSort,
    List.length_eq_zero_iff]

end

section

variable (platform : Platform) (blob : BlobDescriptor) (statements : List FetchedStatement)

/-- The passing receipt with the earliest time. -/
def shownReceipt : Option HostReceipt :=
  firstByTime platform HostReceipt.receivedAt
    ((receiptsOf platform blob statements).map Prod.snd)

/-- The claim the earliest passing receipt names or, with no receipt, the first
passing claim. -/
def shownClaim : Option (JsString × RecordingClaim) :=
  match shownReceipt platform blob statements with
  | some receipt => (claimsOf platform blob statements).find? (·.1 = receipt.claim)
  | none => (claimsOf platform blob statements).head?

/-- The first passing session record. -/
def shownSession : Option (JsString × SessionRecord) := (sessionsOf platform blob statements).head?

variable {platform blob statements}

theorem earliestReceipt_collect :
    earliestReceipt platform (collect platform blob statements) =
      shownReceipt platform blob statements := by
  rw [earliestReceipt, (collect_spec _ _ statements).receipts]
  rfl

theorem claims_collect_get? (address : JsString) :
    (collect platform blob statements).claims.get? address =
      ((claimsOf platform blob statements).find? (·.1 = address)).map Prod.snd := by
  rw [OrderedMap.get?, (collect_spec _ _ statements).claims]
  rfl

theorem links_collect_get? {address : JsString} {link : DeviceLink} :
    (collect platform blob statements).links.get? address = some link ↔
      (address, link) ∈ linksOf platform blob statements := by
  rw [OrderedMap.get?_eq_some_iff, (collect_spec _ _ statements).links]
  rfl

theorem shownReceipt_mem {receipt : HostReceipt}
    (shown : shownReceipt platform blob statements = some receipt) :
    ∃ hash, (hash, receipt) ∈ receiptsOf platform blob statements := by
  obtain ⟨⟨hash, held⟩, member, rfl⟩ := List.mem_map.mp (firstByTime_mem shown)
  exact ⟨hash, member⟩

theorem shownClaim_mem {address : JsString} {claim : RecordingClaim}
    (shown : shownClaim platform blob statements = some (address, claim)) :
    (address, claim) ∈ claimsOf platform blob statements := by
  unfold shownClaim at shown
  split at shown
  · exact List.mem_of_find?_eq_some shown
  · exact List.mem_of_head? shown

theorem shownClaim_of_receipt {receipt : HostReceipt} {address : JsString}
    {claim : RecordingClaim} (earliest : shownReceipt platform blob statements = some receipt)
    (shown : shownClaim platform blob statements = some (address, claim)) :
    address = receipt.claim := by
  simp only [shownClaim, earliest] at shown
  simpa using List.find?_some shown

/-- A list that does not pass whole is refused or reported unavailable. -/
theorem verifyRecordingStatements_not_allPass
    (refused : ¬ AllPass platform blob statements) :
    ∃ result, verifyRecordingStatements platform blob statements = some result ∧
      result.claimed? = none := by
  rw [allPass_iff, not_and_or] at refused
  unfold verifyRecordingStatements
  dsimp only
  by_cases failures : allFailures (collect platform blob statements) = []
  · rw [if_neg (not_not.mpr failures), if_pos (refused.resolve_left (not_not.mpr failures))]
    exact ⟨_, rfl, rfl⟩
  · rw [if_pos failures]
    exact ⟨_, rfl, rfl⟩

/-- A list that passes whole shows its claim, with the receipt that chose it. -/
theorem verifyRecordingStatements_allPass (pass : AllPass platform blob statements) :
    verifyRecordingStatements platform blob statements =
      some (match shownReceipt platform blob statements, shownClaim platform blob statements with
        | some receipt, some (_, claim) =>
            .verified (claimed platform (collect platform blob statements) claim)
              receipt.receivedAt (receipt.hostKey = claim.deviceKey)
        | none, some (_, claim) =>
            .deviceOnly (claimed platform (collect platform blob statements) claim)
        | _, none => .unverified) := by
  obtain ⟨failures, missing⟩ := allPass_iff.mp pass
  unfold verifyRecordingStatements
  dsimp only
  rw [if_neg (not_not.mpr failures), if_neg (not_not.mpr missing), earliestReceipt_collect]
  cases shown : shownReceipt platform blob statements with
  | none =>
      simp only [shownClaim, shown, OrderedMap.values, (collect_spec _ _ statements).claims, claimsOf]
      cases passing platform blob Checked.claim? (uniqueStatements statements).entries <;> rfl
  | some receipt =>
      obtain ⟨hash, member⟩ := shownReceipt_mem shown
      obtain ⟨claim, listed⟩ := pass.receipts _ member
      obtain ⟨entry, found⟩ : ∃ entry,
          (claimsOf platform blob statements).find? (·.1 = receipt.claim) = some entry := by
        rw [← Option.isSome_iff_exists, List.find?_isSome]
        exact ⟨_, listed, by simp⟩
      simp only [shownClaim, shown, claims_collect_get?, found, Option.map_some]

/-- The function never reads a claim that is not there. -/
theorem verifyRecordingStatements_isSome :
    (verifyRecordingStatements platform blob statements).isSome = true := by
  by_cases pass : AllPass platform blob statements
  · rw [verifyRecordingStatements_allPass pass]
    rfl
  · obtain ⟨result, same, _⟩ := verifyRecordingStatements_not_allPass pass
    rw [same]
    rfl

theorem claimed?_eq_some_iff {shown : ClaimedRecording} :
    (∃ result, verifyRecordingStatements platform blob statements = some result ∧
        result.claimed? = some shown) ↔
      AllPass platform blob statements ∧
      ∃ address claim, shownClaim platform blob statements = some (address, claim) ∧
        shown = claimed platform (collect platform blob statements) claim := by
  by_cases pass : AllPass platform blob statements
  · rw [verifyRecordingStatements_allPass pass]
    cases claim : shownClaim platform blob statements with
    | none =>
        cases shownReceipt platform blob statements <;> simp [RecordingProvenance.claimed?]
    | some entry =>
        obtain ⟨address, claim⟩ := entry
        cases shownReceipt platform blob statements <;>
          simp [RecordingProvenance.claimed?, pass, eq_comm]
  · obtain ⟨result, same, none⟩ := verifyRecordingStatements_not_allPass pass
    simp [same, none, pass]

/-! ## What a passing statement is -/

variable (platform statements) in
/-- The list holds, at its own address, the canonical JSON of the statement. -/
def ListedStatement (address : JsString) (signed : Signed JsValue) : Prop :=
  ∃ bytes, ⟨address, some bytes⟩ ∈ statements ∧ sha256Hex platform bytes = address ∧
    statementBytes signed = some bytes

variable (platform statements) in
/-- A listed statement of the given shape, signed by the key it names. -/
def ListedAs (shape : JsValue → Option α) (signer : α → JsString) (address : JsString)
    (value : α) : Prop :=
  ∃ signed, ListedStatement platform statements address signed ∧
    shape signed.payload = some value ∧ verifyStatement platform signed (signer value) = true

variable (platform blob statements) in
/-- A listed claim about exactly this audio, signed by its own device key. -/
def ListedClaim (address : JsString) (claim : RecordingClaim) : Prop :=
  ListedAs platform statements recordingClaim? RecordingClaim.deviceKey address claim ∧
    claim.blob.hash = blob.hash ∧ claim.blob.size.strictEquals blob.size = true

variable (platform statements) in
def ListedReceipt := ListedAs platform statements hostReceipt? HostReceipt.hostKey

variable (platform statements) in
def ListedSession := ListedAs platform statements sessionRecord? SessionRecord.hostKey

variable (platform statements) in
def ListedRevocation :=
  ListedAs platform statements deviceRevocation? DeviceRevocation.signerKey

variable (platform statements) in
def ListedLink (address : JsString) : DeviceLink → Prop
  | .certificate statement =>
      ListedAs platform statements deviceCertificate? DeviceCertificate.personKey address statement
  | .vouch statement =>
      ListedAs platform statements deviceVouch? DeviceVouch.hostKey address statement

variable (platform blob) in
/-- What the check of a statement established, by its outcome. -/
def Checked.Justified (signed : Signed JsValue) : Checked → Prop
  | .claim value => checkRecordingClaim platform signed blob = .ok ⟨value, signed.signature⟩
  | .receipt value => checkHostReceipt platform signed = .ok ⟨value, signed.signature⟩
  | .session value => checkSessionRecord platform signed = .ok ⟨value, signed.signature⟩
  | .link (.certificate value) =>
      checkDeviceCertificate platform signed = .ok ⟨value, signed.signature⟩
  | .link (.vouch value) => checkDeviceVouch platform signed = .ok ⟨value, signed.signature⟩
  | .revocation value => checkDeviceRevocation platform signed = .ok ⟨value, signed.signature⟩
  | .unknown => True
  | .failed _ => True

theorem checkByType_justified (signed : Signed JsValue) :
    (checkByType platform blob signed).Justified platform blob signed := by
  have signature : ∀ {α : Type} {shape : JsValue → Option α} {signer : α → JsString}
      {checked : Signed α}, checkShapeAndSignature shape signer platform signed = .ok checked →
      checkShapeAndSignature shape signer platform signed =
        .ok ⟨checked.payload, signed.signature⟩ := by
    intro α shape signer checked ok
    rw [ok, ← (checkShapeAndSignature_eq_ok_iff.mp ok).2.1]
  unfold checkByType
  dsimp only
  split_ifs
  · cases check : checkRecordingClaim platform signed blob with
    | error problem => trivial
    | ok checked =>
        change checkRecordingClaim platform signed blob = _
        rw [check, ← (checkRecordingClaim_eq_ok_iff.mp check).2.1]
  · cases check : checkHostReceipt platform signed with
    | error problem => trivial
    | ok checked => exact signature check
  · cases check : checkSessionRecord platform signed with
    | error problem => trivial
    | ok checked => exact signature check
  · cases check : checkDeviceCertificate platform signed with
    | error problem => trivial
    | ok checked => exact signature check
  · cases check : checkDeviceVouch platform signed with
    | error problem => trivial
    | ok checked => exact signature check
  · cases check : checkDeviceRevocation platform signed with
    | error problem => trivial
    | ok checked => exact signature check
  · trivial

/-- A statement that neither fails nor is of a later type hashes to its
address, is canonical, and passed the check of its type. -/
theorem checkStatement_cases {hash : JsString} {bytes : Bytes} {checked : Checked}
    (outcome : checkStatement platform blob hash bytes = checked)
    (passed : checked.problem? = none) :
    sha256Hex platform bytes = hash ∧ ∃ signed, parseSignedStatement bytes = some signed ∧
      statementBytes signed = some bytes ∧ checkByType platform blob signed = checked ∧
      checked.Justified platform blob signed := by
  unfold checkStatement at outcome
  split_ifs at outcome with address
  · subst outcome
    cases passed
  · cases parsed : parseSignedStatement bytes with
    | none =>
        simp only [parsed] at outcome
        subst outcome
        cases passed
    | some signed =>
        simp only [parsed] at outcome
        split_ifs at outcome with canonical
        · subst outcome
          cases passed
        · refine ⟨not_not.mp address, signed, rfl, by simpa [isCanonical] using canonical,
            outcome, ?_⟩
          rw [← outcome]
          exact checkByType_justified signed

theorem listed_of_mem {select : Checked → Option α} {hash : JsString} {value : α}
    (member : (hash, value) ∈ passing platform blob select (uniqueStatements statements).entries)
    (passed : ∀ checked, select checked = some value → checked.problem? = none) :
    ∃ checked signed, select checked = some value ∧
      ListedStatement platform statements hash signed ∧
      checked.Justified platform blob signed := by
  obtain ⟨bytes, entry, selected⟩ := mem_passing.mp member
  obtain ⟨address, signed, _, canonical, _, justified⟩ :=
    checkStatement_cases rfl (passed _ selected)
  obtain ⟨statement, listed, same⟩ := List.mem_map.mp (OrderedMap.mem_of_mem_ofList entry)
  obtain ⟨rfl, served⟩ := Prod.mk.inj same
  refine ⟨_, signed, selected, ⟨bytes, ?_, address, canonical⟩, justified⟩
  rw [← served]
  exact listed

theorem listedAs_of_mem {select : Checked → Option α} {shape : JsValue → Option α}
    {signer : α → JsString} {hash : JsString} {value : α}
    (member : (hash, value) ∈ passing platform blob select (uniqueStatements statements).entries)
    (meaning : ∀ checked, select checked = some value → checked.problem? = none ∧
      ∀ signed, checked.Justified platform blob signed →
        checkShapeAndSignature shape signer platform signed = .ok ⟨value, signed.signature⟩) :
    ListedAs platform statements shape signer hash value := by
  obtain ⟨checked, signed, selected, listed, justified⟩ :=
    listed_of_mem member fun checked selected => (meaning checked selected).1
  obtain ⟨found, _, valid⟩ :=
    checkShapeAndSignature_eq_ok_iff.mp ((meaning checked selected).2 signed justified)
  exact ⟨signed, listed, found, valid⟩

theorem listedReceipt_of_mem {address : JsString} {receipt : HostReceipt}
    (member : (address, receipt) ∈ receiptsOf platform blob statements) :
    ListedReceipt platform statements address receipt :=
  listedAs_of_mem member fun
    | .receipt _, rfl => ⟨rfl, fun _ justified => justified⟩

theorem listedSession_of_mem {address : JsString} {record : SessionRecord}
    (member : (address, record) ∈ sessionsOf platform blob statements) :
    ListedSession platform statements address record := by
  refine listedAs_of_mem member ?_
  intro checked selected
  cases checked <;> cases selected
  exact ⟨rfl, fun _ justified => justified⟩

theorem listedRevocation_of_mem {address : JsString} {revocation : DeviceRevocation}
    (member : (address, revocation) ∈ revocationsOf platform blob statements) :
    ListedRevocation platform statements address revocation :=
  listedAs_of_mem member fun
    | .revocation _, rfl => ⟨rfl, fun _ justified => justified⟩

theorem listedLink_of_mem {address : JsString} {link : DeviceLink}
    (member : (address, link) ∈ linksOf platform blob statements) :
    ListedLink platform statements address link := by
  obtain ⟨checked, signed, selected, listed, justified⟩ :=
    listed_of_mem member fun | .link _, rfl => rfl
  obtain rfl : checked = .link link := by
    cases checked <;> simp_all [Checked.link?]
  cases link with
  | certificate statement =>
      obtain ⟨found, _, valid⟩ := checkShapeAndSignature_eq_ok_iff.mp justified
      exact ⟨signed, listed, found, valid⟩
  | vouch statement =>
      obtain ⟨found, _, valid⟩ := checkShapeAndSignature_eq_ok_iff.mp justified
      exact ⟨signed, listed, found, valid⟩

theorem listedClaim_of_mem {address : JsString} {claim : RecordingClaim}
    (member : (address, claim) ∈ claimsOf platform blob statements) :
    ListedClaim platform blob statements address claim := by
  obtain ⟨checked, signed, selected, listed, justified⟩ :=
    listed_of_mem member fun | .claim _, rfl => rfl
  obtain rfl : checked = .claim claim := by
    cases checked <;> simp_all [Checked.claim?]
  obtain ⟨shape, _, hash, size, valid⟩ := checkRecordingClaim_eq_ok_iff.mp justified
  exact ⟨⟨signed, listed, shape, valid⟩, hash, size⟩

end

end Tapes.Provenance
