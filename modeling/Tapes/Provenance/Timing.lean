import Mathlib.Data.Int.ConditionallyCompleteOrder
import Mathlib.Order.WithBot
import Tapes.Provenance.Shown

namespace Tapes.Provenance

open Tapes.Js

/-! Which of several receipts and revocations a result goes by. -/

section

variable {platform : Platform} {α : Type} {timeText : α → JsString} {items : List α} {first : α}

variable (platform) in
/-- The instant of a time string. One that does not parse is later than all others. -/
def timeOf (text : JsString) : WithTop Int :=
  match platform.dateParse text with
  | some time => time
  | none => ⊤

theorem timeOf_parsed {text : JsString} {time : Int} (parses : platform.dateParse text = some time) :
    timeOf platform text = time := by
  rw [timeOf, parses]

theorem timeOrder_iff {left right : JsString} :
    timeOrder platform left right = true ↔ timeOf platform left ≤ timeOf platform right := by
  rw [timeOrder, timeOf, timeOf]
  cases platform.dateParse left <;> cases platform.dateParse right <;> simp

instance : Std.Total fun left right : α =>
    timeOrder platform (timeText left) (timeText right) = true := by
  refine ⟨fun left right => ?_⟩
  rw [timeOrder_iff, timeOrder_iff]
  exact le_total _ _

instance : IsTrans α fun left right =>
    timeOrder platform (timeText left) (timeText right) = true := by
  refine ⟨fun left middle right first second => ?_⟩
  rw [timeOrder_iff] at first second ⊢
  exact first.trans second

/-- The first item by time is a minimum. -/
theorem firstByTime_le (found : firstByTime platform timeText items = some first) {item : α}
    (member : item ∈ items) :
    timeOf platform (timeText first) ≤ timeOf platform (timeText item) := by
  have sorted := List.pairwise_insertionSort
    (fun left right => timeOrder platform (timeText left) (timeText right) = true) items
  have inside := (List.mem_insertionSort
    (fun left right => timeOrder platform (timeText left) (timeText right) = true)).mpr member
  rw [firstByTime] at found
  generalize items.insertionSort
    (fun left right => timeOrder platform (timeText left) (timeText right) = true) = order at *
  cases order with
  | nil => cases found
  | cons head rest =>
      obtain rfl := Option.some.inj found
      rcases List.mem_cons.mp inside with rfl | later
      · exact le_refl _
      · exact timeOrder_iff.mp ((List.pairwise_cons.mp sorted).1 item later)

end

section

variable {platform : Platform} {blob : BlobDescriptor} {statements : List FetchedStatement}

theorem shownReceipt_le {shown : HostReceipt}
    (earliest : shownReceipt platform blob statements = some shown)
    {entry : JsString × HostReceipt} (member : entry ∈ receiptsOf platform blob statements) :
    timeOf platform shown.receivedAt ≤ timeOf platform entry.2.receivedAt :=
  firstByTime_le earliest (List.mem_map_of_mem member)

/-- The first revocation of a link is a minimum of all that are listed for it. -/
theorem AllPass.firstRevocation_le (pass : AllPass platform blob statements) {address : JsString}
    {link : DeviceLink} (listed : (address, link) ∈ linksOf platform blob statements)
    {first : DeviceRevocation}
    (found : firstRevocation platform address link
      (collect platform blob statements).revocations = some first)
    {entry : JsString × DeviceRevocation} (member : entry ∈ revocationsOf platform blob statements)
    (withdraws : entry.2.deviceLink = address) :
    timeOf platform first.revokedAt ≤ timeOf platform entry.2.revokedAt := by
  obtain ⟨other, otherListed, covers⟩ := pass.revocations entry member
  rw [withdraws] at otherListed covers
  have same : some other = some link := by
    rw [← links_collect_get?.mpr otherListed, ← links_collect_get?.mpr listed]
  obtain rfl := Option.some.inj same
  refine firstByTime_le found (List.mem_filter.mpr ⟨?_, covers⟩)
  rw [OrderedMap.values, (collect_spec _ _ statements).revocations]
  exact List.mem_map_of_mem member

variable (platform blob statements) in
/-- A receipt of the claim that is earlier than every revocation of the link. -/
def ReceivedFirst (address linkAddress : JsString) : Prop :=
  ∃ receipt ∈ receiptsOf platform blob statements, receipt.2.claim = address ∧
    ∃ received, platform.dateParse receipt.2.receivedAt = some received ∧
      (∃ revocation ∈ revocationsOf platform blob statements,
        revocation.2.deviceLink = linkAddress ∧
          (platform.dateParse revocation.2.revokedAt).isSome) ∧
      ∀ revocation ∈ revocationsOf platform blob statements,
        revocation.2.deviceLink = linkAddress → ∀ revoked,
          platform.dateParse revocation.2.revokedAt = some revoked → received < revoked

theorem AllPass.receivedFirst (pass : AllPass platform blob statements) {address linkAddress : JsString}
    {claim : RecordingClaim} {link : DeviceLink} {revocation : DeviceRevocation}
    (shown : shownClaim platform blob statements = some (address, claim))
    (listed : (linkAddress, link) ∈ linksOf platform blob statements)
    (first : firstRevocation platform linkAddress link
      (collect platform blob statements).revocations = some revocation)
    (before : (revokedDeviceLink platform revocation ((earliestReceipt platform
      (collect platform blob statements)).map HostReceipt.receivedAt)).receivedBeforeRevocation =
        true) :
    ReceivedFirst platform blob statements address linkAddress := by
  rw [earliestReceipt_collect] at before
  cases earliest : shownReceipt platform blob statements with
  | none => simp [revokedDeviceLink, earliest] at before
  | some receipt =>
      simp only [revokedDeviceLink, earliest, Option.map_some, Option.bind_some] at before
      cases receivedAt : platform.dateParse receipt.receivedAt with
      | none => simp [receivedAt] at before
      | some received =>
          cases revokedAt : platform.dateParse revocation.revokedAt with
          | none => simp [receivedAt, revokedAt] at before
          | some revoked =>
              have earlier : received < revoked := by simpa [receivedAt, revokedAt] using before
              obtain ⟨hash, member⟩ := shownReceipt_mem earliest
              obtain ⟨⟨name, withdrawn⟩, covers⟩ := firstRevocation_mem first
              have same : revocation.deviceLink = linkAddress := by
                by_contra different
                simp [revocationCovers, different] at covers
              refine ⟨(hash, receipt), member, (shownClaim_of_receipt earliest shown).symm,
                received, receivedAt, ⟨_, withdrawn, same, by simp [revokedAt]⟩, ?_⟩
              intro entry inside withdraws time parses
              have least := pass.firstRevocation_le listed first inside withdraws
              rw [timeOf_parsed revokedAt, timeOf_parsed parses, WithTop.coe_le_coe] at least
              omega

/-- A device's recording is shown as received before the device was revoked only when a
receipt of it is earlier than every revocation, and the receipt shown is the earliest. -/
theorem revocation_timing_is_conservative (result : RecordingProvenance) (shown : ClaimedRecording)
    (returned : verifyRecordingStatements platform blob statements = some result)
    (shows : result.claimed? = some shown) :
    (∀ revoked, shown.revocation = some revoked → revoked.receivedBeforeRevocation = true →
      ∃ address claim linkAddress, ShownFrom platform blob statements shown address claim ∧
        ListedClaim platform blob statements address claim ∧
        claim.deviceCert = some linkAddress ∧ shown.deviceLink = some linkAddress ∧
        ReceivedFirst platform blob statements address linkAddress) ∧
    ∀ receivedAt recordedByHost, result = .verified shown receivedAt recordedByHost →
      (∃ receipt ∈ receiptsOf platform blob statements, receipt.2.receivedAt = receivedAt) ∧
      ∀ receipt ∈ receiptsOf platform blob statements,
        timeOf platform receivedAt ≤ timeOf platform receipt.2.receivedAt := by
  obtain ⟨pass, address, claim, first, same⟩ := claimed?_eq_some_iff.mp ⟨result, returned, shows⟩
  refine ⟨?revocation, ?receipt⟩
  case revocation =>
    intro revoked found before
    have shownRevocation := found
    rw [same] at found
    obtain ⟨⟨linkAddress, link⟩, named, found⟩ := Option.bind_eq_some_iff.mp found
    obtain ⟨revocation, earliest, record⟩ := Option.bind_eq_some_iff.mp found
    obtain ⟨names, listed⟩ := namedLink_collect.mp named
    obtain rfl := Option.some.inj record
    exact ⟨address, claim, linkAddress, ⟨first, same⟩, listedClaim_of_mem (shownClaim_mem first),
      names, by simp [same, claimed, named], pass.receivedFirst first listed earliest before⟩
  case receipt =>
    intro receivedAt recordedByHost verified
    rw [verifyRecordingStatements_allPass pass, verified] at returned
    cases earliest : shownReceipt platform blob statements with
    | none => simp [earliest, first] at returned
    | some receipt =>
        obtain ⟨hash, member⟩ := shownReceipt_mem earliest
        simp only [earliest, first, Option.some.injEq,
          RecordingProvenance.verified.injEq] at returned
        obtain ⟨-, time, -⟩ := returned
        subst time
        exact ⟨⟨_, member, rfl⟩, fun entry inside => shownReceipt_le earliest inside⟩

end

def revocationOf (address : JsString) (revokedAt : String) : FetchedStatement :=
  sampleStatement [("type", .string deviceRevocationType), ("signerKey", .string (sampleKey 0x50)),
    ("signedBy", .string (js "person")), ("deviceKey", .string (sampleKey 0x41)),
    ("deviceLink", .string address), ("reason", .string (js "lost")),
    ("revokedAt", .string (js revokedAt))]

/-- A receipt at time 2, then revocations of the device's certificate at times 5 and 7. -/
def withdrawnStatements : List FetchedStatement :=
  [claimNaming certificateOfFirst.hash, certificateOfFirst,
    receiptOf (claimNaming certificateOfFirst.hash).hash,
    revocationOf certificateOfFirst.hash "t.later", revocationOf certificateOfFirst.hash "later"]

theorem withdrawn_device_received_first :
    ∃ address linkAddress,
      ReceivedFirst lengthPlatform sampleBlob withdrawnStatements address linkAddress := by
  have shows : ((verifyRecordingStatements lengthPlatform sampleBlob withdrawnStatements).bind
      fun result => result.claimed?.bind fun shown =>
        shown.revocation.map RevokedDeviceLink.receivedBeforeRevocation) = some true := by
    decide +kernel
  obtain ⟨result, returned, shows⟩ := Option.bind_eq_some_iff.mp shows
  obtain ⟨shown, claimed, shows⟩ := Option.bind_eq_some_iff.mp shows
  obtain ⟨revoked, found, before⟩ := Option.map_eq_some_iff.mp shows
  obtain ⟨address, -, linkAddress, -, -, -, -, first⟩ :=
    (revocation_timing_is_conservative result shown returned claimed).1 revoked found before
  exact ⟨address, linkAddress, first⟩

end Tapes.Provenance
