import Tapes.Provenance.Soundness

namespace Tapes.Provenance

open Tapes.Js

/-! Where each field of a shown recording comes from. -/

/-! ## Sample statements

The digest of the samples is the length of the bytes, and every signature
verifies.  A key is thirty-two bytes in base64url, told apart by its first
character. -/

def lengthPlatform : Platform where
  sha256 bytes := [(bytes.length / 256).toUInt8, (bytes.length % 256).toUInt8]
  importKey _ := true
  verify _ _ _ := true
  dateParse text := some text.length

def sampleKey (first : UInt16) : JsString := first :: List.replicate 42 0x41

def sampleStatement (fields : List (String × JsValue)) : FetchedStatement :=
  let signed : Signed JsValue :=
    ⟨.object (fields.map fun field => (js field.1, field.2)), List.replicate 86 0x41⟩
  let bytes := (statementBytes signed).getD []
  ⟨sha256Hex lengthPlatform bytes, some bytes⟩

def sampleBlob : BlobDescriptor :=
  ⟨js "00", .finite false .one⟩

def sampleClaim (deviceKey : JsString) (sessionId : String) (extra : List (String × JsValue)) :
    FetchedStatement :=
  sampleStatement ([("type", .string recordingClaimType),
    ("blob", .object [(js "hash", .string sampleBlob.hash), (js "size", .number sampleBlob.size),
      (js "mimeType", .string (js "audio/wav"))]),
    ("startedAt", .string (js "t0")), ("endedAt", .string (js "t1")),
    ("sessionId", .string (js sessionId)), ("deviceKey", .string deviceKey)] ++ extra)

def firstClaim : FetchedStatement := sampleClaim (sampleKey 0x41) "one" []

def secondClaim : FetchedStatement := sampleClaim (sampleKey 0x42) "second" []

def certificateOfFirst : FetchedStatement :=
  sampleStatement [("type", .string deviceCertificateType), ("personKey", .string (sampleKey 0x50)),
    ("deviceKey", .string (sampleKey 0x41)), ("deviceLabel", .string (js "phone")),
    ("issuedAt", .string (js "t"))]

/-- A claim of the first device that names the statement at `address`. -/
def claimNaming (address : JsString) : FetchedStatement :=
  sampleClaim (sampleKey 0x41) "one" [("deviceCert", .string address)]

def receiptOf (claim : JsString) : FetchedStatement :=
  sampleStatement [("type", .string hostReceiptType), ("claim", .string claim),
    ("receivedAt", .string (js "t2")), ("hostKey", .string (sampleKey 0x48))]

def sessionOf (sessionId : String) (claim : JsString) : FetchedStatement :=
  sampleStatement [("type", .string sessionRecordType), ("sessionId", .string (js sessionId)),
    ("openedAt", .string (js "t0")), ("closedAt", .string (js "t3")), ("devices", .array []),
    ("claims", .array [.string claim]), ("hostKey", .string (sampleKey 0x48))]

section

variable {platform : Platform} {blob : BlobDescriptor} {statements : List FetchedStatement}

theorem namedLink_collect {claim : RecordingClaim} {address : JsString} {link : DeviceLink} :
    namedLink (collect platform blob statements) claim = some (address, link) ↔
      claim.deviceCert = some address ∧ (address, link) ∈ linksOf platform blob statements := by
  simp only [namedLink, Option.bind_eq_some_iff, Option.map_eq_some_iff, Prod.mk.injEq,
    links_collect_get?]
  grind

theorem session_collect {claim : RecordingClaim} :
    (claimed platform (collect platform blob statements) claim).session =
      (shownSession platform blob statements).map fun entry => verifiedSession entry.2 := by
  simp only [claimed, (collect_spec _ _ statements).sessions]
  rfl

/-- A named link that passes is for the key of every claim that names it. -/
theorem AllPass.link_deviceKey (pass : AllPass platform blob statements) {name : JsString}
    {claim : RecordingClaim} (listed : (name, claim) ∈ claimsOf platform blob statements)
    {address : JsString} {link : DeviceLink} (named : claim.deviceCert = some address)
    (passing : (address, link) ∈ linksOf platform blob statements) :
    link.deviceKey = claim.deviceKey :=
  ((pass.links _ passing).2 _ listed named).symm

theorem firstRevocation_mem {address : JsString} {link : DeviceLink}
    {revocation : DeviceRevocation}
    (found : firstRevocation platform address link
      (collect platform blob statements).revocations = some revocation) :
    (∃ hash, (hash, revocation) ∈ revocationsOf platform blob statements) ∧
      revocationCovers revocation link address = true := by
  have member := firstByTime_mem found
  rw [List.mem_filter, OrderedMap.values, (collect_spec _ _ statements).revocations] at member
  obtain ⟨listed, covers⟩ := member
  obtain ⟨⟨hash, held⟩, entry, rfl⟩ := List.mem_map.mp listed
  exact ⟨⟨hash, entry⟩, covers⟩

/-- What a verified or device-only result says of the recording, its receipt, its person and a
revocation is taken from listed statements that passed their checks and bind to the claim shown.
The session is traced below. -/
theorem shown_fields_come_from_passing_statements (result : RecordingProvenance)
    (shown : ClaimedRecording)
    (returned : verifyRecordingStatements platform blob statements = some result)
    (shows : result.claimed? = some shown) :
    ∃ address claim, ListedClaim platform blob statements address claim ∧
      shown.deviceKey = claim.deviceKey ∧ shown.startedAt = claim.startedAt ∧
      shown.endedAt = claim.endedAt ∧ shown.sessionId = claim.sessionId ∧
      (∀ receivedAt recordedByHost, result = .verified shown receivedAt recordedByHost →
        ∃ receiptAddress receipt, ListedReceipt platform statements receiptAddress receipt ∧
          receipt.claim = address ∧ receivedAt = receipt.receivedAt ∧
          (recordedByHost = true ↔ receipt.hostKey = claim.deviceKey)) ∧
      (∀ person, shown.person = some person →
        ∃ linkAddress link, claim.deviceCert = some linkAddress ∧
          shown.deviceLink = some linkAddress ∧
          ListedLink platform statements linkAddress link ∧
          link.deviceKey = claim.deviceKey ∧ person = verifiedPerson link) ∧
      (∀ revoked, shown.revocation = some revoked →
        ∃ linkAddress link revocationAddress revocation, claim.deviceCert = some linkAddress ∧
          ListedLink platform statements linkAddress link ∧
          ListedRevocation platform statements revocationAddress revocation ∧
          revocationCovers revocation link linkAddress = true ∧
          revoked.signerKey = revocation.signerKey ∧ revoked.signedBy = revocation.signedBy ∧
          revoked.reason = revocation.reason ∧ revoked.revokedAt = revocation.revokedAt) := by
  obtain ⟨pass, address, claim, first, same⟩ := claimed?_eq_some_iff.mp ⟨result, returned, shows⟩
  have listed := shownClaim_mem first
  subst same
  refine ⟨address, claim, listedClaim_of_mem listed, rfl, rfl, rfl, rfl, ?receipt, ?person,
    ?revocation⟩
  case receipt =>
    intro receivedAt recordedByHost verified
    rw [verifyRecordingStatements_allPass pass, verified] at returned
    cases earliest : shownReceipt platform blob statements with
    | none => simp [earliest, first] at returned
    | some receipt =>
        obtain ⟨hash, member⟩ := shownReceipt_mem earliest
        simp only [earliest, first, Option.some.injEq,
          RecordingProvenance.verified.injEq] at returned
        obtain ⟨_, time, byHost⟩ := returned
        exact ⟨hash, receipt, listedReceipt_of_mem member,
          (shownClaim_of_receipt earliest first).symm, time.symm, by simp [← byHost]⟩
  case person =>
    intro person found
    obtain ⟨⟨linkAddress, link⟩, named, rfl⟩ := Option.map_eq_some_iff.mp found
    obtain ⟨names, passing⟩ := namedLink_collect.mp named
    exact ⟨linkAddress, link, names, by simp [claimed, named], listedLink_of_mem passing,
      pass.link_deviceKey listed names passing, rfl⟩
  case revocation =>
    intro revoked found
    obtain ⟨⟨linkAddress, link⟩, named, found⟩ := Option.bind_eq_some_iff.mp found
    obtain ⟨revocation, first, same⟩ := Option.bind_eq_some_iff.mp found
    obtain ⟨names, passing⟩ := namedLink_collect.mp named
    obtain ⟨⟨hash, member⟩, covers⟩ := firstRevocation_mem first
    cases same
    exact ⟨linkAddress, link, hash, revocation, names, listedLink_of_mem passing,
      listedRevocation_of_mem member, covers, rfl, rfl, rfl, rfl⟩

/-- A received take of a certified device. -/
def receivedStatements : List FetchedStatement :=
  [certificateOfFirst, claimNaming certificateOfFirst.hash,
    receiptOf (claimNaming certificateOfFirst.hash).hash]

theorem received_take_comes_from_its_claim :
    ∃ result shown,
      verifyRecordingStatements lengthPlatform sampleBlob receivedStatements = some result ∧
      result.claimed? = some shown ∧
      ∃ address claim, ListedClaim lengthPlatform sampleBlob receivedStatements address claim ∧
        shown.deviceKey = claim.deviceKey := by
  have evaluated : ((verifyRecordingStatements lengthPlatform sampleBlob
      receivedStatements).bind RecordingProvenance.claimed?).isSome = true := by decide +kernel
  obtain ⟨shown, found⟩ := Option.isSome_iff_exists.mp evaluated
  obtain ⟨result, returned, shows⟩ := Option.bind_eq_some_iff.mp found
  obtain ⟨address, claim, listed, key, _⟩ :=
    shown_fields_come_from_passing_statements result shown returned shows
  exact ⟨result, shown, returned, shows, address, claim, listed, key⟩

end

/-! ## The session shown -/

section

variable (platform : Platform) (blob : BlobDescriptor) (statements : List FetchedStatement)

/-- The recording fields were taken from this listed claim. -/
def ShownFrom (shown : ClaimedRecording) (address : JsString) (claim : RecordingClaim) : Prop :=
  shownClaim platform blob statements = some (address, claim) ∧
    shown = claimed platform (collect platform blob statements) claim

/-- A session is shown only from a record of the shown claim's session that
lists the shown claim. -/
def ShownSessionBelongs : Prop :=
  ∀ result shown session, verifyRecordingStatements platform blob statements = some result →
    result.claimed? = some shown → shown.session = some session →
    ∃ address claim recordAddress record, ShownFrom platform blob statements shown address claim ∧
      shownSession platform blob statements = some (recordAddress, record) ∧
      session = verifiedSession record ∧ record.sessionId = shown.sessionId ∧
      address ∈ record.claims

/-- Among statements that all pass, the first session record is of the session
of the claim with the earliest receipt (the first claim, without receipts) and
lists it. -/
def FirstSessionCoversShownClaim : Prop :=
  AllPass platform blob statements → ∀ address claim recordAddress record,
    shownClaim platform blob statements = some (address, claim) →
    shownSession platform blob statements = some (recordAddress, record) →
    record.sessionId = claim.sessionId ∧ address ∈ record.claims

variable {platform blob statements}

/-- The record that a session is taken from is listed, passes its check and lists a passing claim of
its own session. That claim need not be the one shown. -/
theorem shown_session_is_listed {result : RecordingProvenance} {shown : ClaimedRecording}
    {session : VerifiedSession}
    (returned : verifyRecordingStatements platform blob statements = some result)
    (shows : result.claimed? = some shown) (found : shown.session = some session) :
    ∃ recordAddress record, ListedSession platform statements recordAddress record ∧
      session = verifiedSession record ∧
      ∃ address claim, ListedClaim platform blob statements address claim ∧
        claim.sessionId = record.sessionId ∧ address ∈ record.claims := by
  obtain ⟨pass, _, claim, _, same⟩ := claimed?_eq_some_iff.mp ⟨result, returned, shows⟩
  rw [same, session_collect] at found
  obtain ⟨⟨recordAddress, record⟩, first, taken⟩ := Option.map_eq_some_iff.mp found
  have member : (recordAddress, record) ∈ sessionsOf platform blob statements :=
    List.mem_of_head? first
  obtain ⟨⟨address, covered⟩, listed, sessionId, lists⟩ := pass.sessions _ member
  exact ⟨recordAddress, record, listedSession_of_mem member, taken.symm, address, covered,
    listedClaim_of_mem listed, sessionId, lists⟩

theorem firstSessionCovers_of_belongs (belongs : ShownSessionBelongs platform blob statements) :
    FirstSessionCoversShownClaim platform blob statements := by
  intro pass address claim recordAddress record first session
  obtain ⟨result, returned, shows⟩ := claimed?_eq_some_iff.mpr ⟨pass, address, claim, first, rfl⟩
  obtain ⟨address', claim', recordAddress', record', ⟨firstPassing, _⟩, taken, _, same, lists⟩ :=
    belongs result _ (verifiedSession record) returned shows (by simp [session_collect, session])
  rw [first] at firstPassing
  rw [session] at taken
  cases firstPassing
  cases taken
  exact ⟨same, lists⟩

theorem belongs_of_firstSessionCovers
    (covers : FirstSessionCoversShownClaim platform blob statements) :
    ShownSessionBelongs platform blob statements := by
  intro result shown session returned shows found
  obtain ⟨pass, address, claim, first, same⟩ := claimed?_eq_some_iff.mp ⟨result, returned, shows⟩
  subst same
  rw [session_collect] at found
  obtain ⟨⟨recordAddress, record⟩, taken, rfl⟩ := Option.map_eq_some_iff.mp found
  obtain ⟨same, lists⟩ := covers pass _ _ _ _ first taken
  exact ⟨address, claim, recordAddress, record, ⟨first, rfl⟩, taken, rfl, same, lists⟩

theorem shownSessionBelongs_iff :
    ShownSessionBelongs platform blob statements ↔
      FirstSessionCoversShownClaim platform blob statements :=
  ⟨firstSessionCovers_of_belongs, belongs_of_firstSessionCovers⟩

/-- Two devices claim the same audio, and the one session record listed covers
the second.  The first claim is shown with it. -/
theorem shown_session_of_another_claim :
    ¬ ShownSessionBelongs lengthPlatform sampleBlob
      [firstClaim, secondClaim, sessionOf "second" secondClaim.hash] := by
  intro belongs
  have pass : AllPass lengthPlatform sampleBlob
      [firstClaim, secondClaim, sessionOf "second" secondClaim.hash] :=
    allPass_iff.mpr (by decide +kernel)
  have evaluated :
      ((shownClaim lengthPlatform sampleBlob
        [firstClaim, secondClaim, sessionOf "second" secondClaim.hash]).bind fun claim =>
      (shownSession lengthPlatform sampleBlob
        [firstClaim, secondClaim, sessionOf "second" secondClaim.hash]).map fun record =>
      decide (record.2.sessionId = claim.2.sessionId)) = some false := by decide +kernel
  obtain ⟨⟨address, claim⟩, first, found⟩ := Option.bind_eq_some_iff.mp evaluated
  obtain ⟨⟨recordAddress, record⟩, session, different⟩ := Option.map_eq_some_iff.mp found
  exact of_decide_eq_false different
    (firstSessionCovers_of_belongs belongs pass _ _ _ _ first session).1

/-! ## The person shown -/

variable (platform blob statements) in
/-- A shown claim that names a certificate or vouch is shown with its person. -/
def NamedPersonShown : Prop :=
  ∀ result shown address claim linkAddress,
    verifyRecordingStatements platform blob statements = some result →
    result.claimed? = some shown → ShownFrom platform blob statements shown address claim →
    claim.deviceCert = some linkAddress →
    ∃ link, ListedLink platform statements linkAddress link ∧
      shown.person = some (verifiedPerson link) ∧ shown.deviceLink = some linkAddress

variable (platform blob statements) in
/-- The address the shown claim names holds a passing statement of another
kind: a claim, receipt, session record, revocation or unknown type. -/
def OtherStatementNamed : Prop :=
  ∃ address claim linkAddress bytes,
    shownClaim platform blob statements = some (address, claim) ∧
    claim.deviceCert = some linkAddress ∧
    (linkAddress, some bytes) ∈ (uniqueStatements statements).entries ∧
    (checkStatement platform blob linkAddress bytes).link? = none

theorem not_namedPersonShown (pass : AllPass platform blob statements)
    (other : OtherStatementNamed platform blob statements) :
    ¬ NamedPersonShown platform blob statements := by
  intro personShown
  obtain ⟨address, claim, linkAddress, bytes, first, named, entry, other⟩ := other
  obtain ⟨result, returned, shows⟩ := claimed?_eq_some_iff.mpr ⟨pass, address, claim, first, rfl⟩
  obtain ⟨link, _, person, _⟩ :=
    personShown result _ address claim linkAddress returned shows ⟨first, rfl⟩ named
  obtain ⟨⟨linkAddress', held⟩, found, _⟩ := Option.map_eq_some_iff.mp person
  obtain ⟨names, passing⟩ := namedLink_collect.mp found
  cases named.symm.trans names
  obtain ⟨bytes', entry', outcome⟩ := mem_passing.mp passing
  have same := (OrderedMap.get?_eq_some_iff.mpr entry).symm.trans
    (OrderedMap.get?_eq_some_iff.mpr entry')
  cases same
  rw [other] at outcome
  contradiction

theorem namedPersonShown_of_not_other
    (noOther : ¬ (AllPass platform blob statements ∧
      OtherStatementNamed platform blob statements)) :
    NamedPersonShown platform blob statements := by
  intro result shown address claim linkAddress returned shows shownFrom named
  obtain ⟨first, same⟩ := shownFrom
  obtain ⟨pass, _⟩ := claimed?_eq_some_iff.mp ⟨result, returned, shows⟩
  obtain ⟨bytes, entry⟩ := OrderedMap.mem_keys.mp
    (pass.named _ (shownClaim_mem first) linkAddress named)
  rw [OrderedMap.get?_eq_some_iff] at entry
  cases bytes with
  | none => exact absurd entry (pass.served linkAddress)
  | some bytes =>
      cases outcome : (checkStatement platform blob linkAddress bytes).link? with
      | none =>
          exact absurd ⟨pass, address, claim, linkAddress, bytes, first, named, entry, outcome⟩
            noOther
      | some link =>
          have passing : (linkAddress, link) ∈ linksOf platform blob statements :=
            mem_passing.mpr ⟨bytes, entry, outcome⟩
          have found := namedLink_collect.mpr ⟨named, passing⟩
          subst same
          exact ⟨link, listedLink_of_mem passing, by simp [claimed, found],
            by simp [claimed, found]⟩

theorem namedPersonShown_iff :
    NamedPersonShown platform blob statements ↔
      ¬ (AllPass platform blob statements ∧ OtherStatementNamed platform blob statements) :=
  ⟨fun shown both => not_namedPersonShown both.1 both.2 shown, namedPersonShown_of_not_other⟩

/-- The claim shown names the address of another passing claim about the same
audio, so nothing is missing and nobody is shown. -/
theorem named_person_dropped :
    ¬ NamedPersonShown lengthPlatform sampleBlob [claimNaming secondClaim.hash, secondClaim] := by
  have pass : AllPass lengthPlatform sampleBlob [claimNaming secondClaim.hash, secondClaim] :=
    allPass_iff.mpr (by decide +kernel)
  apply not_namedPersonShown pass
  have evaluated :
      ((shownClaim lengthPlatform sampleBlob
        [claimNaming secondClaim.hash, secondClaim]).map fun claim => claim.2.deviceCert) =
      some (some secondClaim.hash) := by decide +kernel
  obtain ⟨⟨address, claim⟩, first, named⟩ := Option.map_eq_some_iff.mp evaluated
  have entry : (uniqueStatements [claimNaming secondClaim.hash, secondClaim]).get?
      secondClaim.hash = some (some (secondClaim.bytes.getD [])) := by decide +kernel
  exact ⟨address, claim, secondClaim.hash, secondClaim.bytes.getD [], first, named,
    OrderedMap.get?_eq_some_iff.mp entry, by decide +kernel⟩

end

end Tapes.Provenance
