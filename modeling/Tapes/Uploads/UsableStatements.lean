import Tapes.Blobs.Calm
import Tapes.Blobs.TypedOwners
import Tapes.Provenance.SameShape
import Tapes.Uploads.BlobHost
import Tapes.Uploads.HostAndReader
import Tapes.Uploads.VerifiedType

namespace Tapes.Uploads

open Tapes.Js Tapes.Provenance Tapes.Machine
open Tapes.Blobs (BlobMeta Call CallId Calm HasType Ingest Kept KeepsType Store TypeKept Undisturbed
  accept)

/-! An acknowledged statement can be named by later ones, unless its bytes were in the store
under another type or are taken away under it. -/

variable {platform : Platform} {hostKeys : List JsString} {content : JsString → Bytes}
  {view : StoreView} {address : JsString} {bytes : Bytes} {signed : Signed JsValue}

/-! ## Statements in the store -/

/-- The address holds the bytes as JSON. -/
structure HeldAsJson (view : StoreView) (address : JsString) (bytes : Bytes) : Prop where
  valid : isValidBlobHash address = true
  object : view.object address = some bytes
  type : view.mimeType address = some statementMimeType

theorem HeldAsJson.stat (held : HeldAsJson view address bytes) :
    (view.stat address).any (fun stat => stat.mimeType = statementMimeType) = true := by
  simp [StoreView.stat, held.valid, held.object, held.type]

theorem HeldAsJson.read (held : HeldAsJson view address bytes) (is : IsStatement bytes signed) :
    readStoredStatement view address = some signed := by
  simp [readStoredStatement, StoreView.has, held.valid, held.object, is.read]

theorem HeldAsJson.storedClaim (held : HeldAsJson view address bytes)
    (is : IsStatement bytes signed) (claim : statementTypeOf signed = some .claim) :
    storedClaim view address = some signed := by
  simp [Uploads.storedClaim, held.stat, held.read is, claim]

theorem HeldAsJson.storedLink {link : DeviceLink} (held : HeldAsJson view address bytes)
    (is : IsStatement bytes signed) (linked : checkDeviceLink platform signed = some (.ok link)) :
    storedLink platform view address = some link := by
  simp [Uploads.storedLink, held.stat, held.read is, linked]

/-- A digest of thirty-two bytes is a blob address in hexadecimal. -/
theorem isValidBlobHash_sha256Hex (digest : (platform.sha256 bytes).length = 32) :
    isValidBlobHash (sha256Hex platform bytes) = true := by
  have digits : ∀ value < 16, isHexUnit (hexDigit value) = true := by decide
  have length : (sha256Hex platform bytes).length = 64 := by
    simp [sha256Hex, List.length_flatMap, hexByte, digest]
  have hex : (sha256Hex platform bytes).all isHexUnit = true := by
    rw [List.all_eq_true]
    intro unit member
    obtain ⟨byte, -, inside⟩ := List.mem_flatMap.mp member
    have small := byte.toNat_lt
    simp only [hexByte, List.mem_cons, List.not_mem_nil, or_false] at inside
    obtain rfl | rfl := inside
    · exact digits _ (by omega)
    · exact digits _ (by omega)
  simp [isValidBlobHash, length, hex]

/-- A claim that is found binds what names it. -/
structure ClaimBinds (platform : Platform) (view : StoreView) (address : JsString)
    (signed : Signed JsValue) : Prop where
  found : storedClaim view address = some signed
  receipt : ∀ bytes other receipt, IsStatement bytes other →
    statementTypeOf other = some .receipt → checkHostReceipt platform other = .ok receipt →
    receipt.payload.claim = address → checkUploadedStatement platform bytes view none = .ok ()
  session : ∀ bytes other record, IsStatement bytes other →
    statementTypeOf other = some .session → checkSessionRecord platform other = .ok record →
    address ∈ record.payload.claims → checkUploadedStatement platform bytes view none = .ok ()
  link : ∀ bytes other link, IsStatement bytes other →
    checkDeviceLink platform other = some (.ok link) →
    claimNames signed (sha256Hex platform bytes) link = true →
    checkUploadedStatement platform bytes view (some address) = .ok ()

/-- A certificate or vouch that is found binds the revocations of it. -/
structure LinkBinds (platform : Platform) (view : StoreView) (address : JsString)
    (link : DeviceLink) : Prop where
  found : storedLink platform view address = some link
  revocation : ∀ bytes other revocation, IsStatement bytes other →
    statementTypeOf other = some .revocation →
    checkDeviceRevocation platform other = .ok revocation →
    revocation.payload.deviceLink = address →
    revocationCovers revocation.payload link address = true →
    checkUploadedStatement platform bytes view none = .ok ()

theorem claimBinds_of_found (found : storedClaim view address = some signed)
    (valid : isValidBlobHash address = true) : ClaimBinds platform view address signed := by
  have holds : holdsClaim view address = true := by simp [holdsClaim, found]
  refine ⟨found, ?_, ?_, ?_⟩
  · intro bytes other receipt is typed checked names
    simp [checkUploadedStatement_eq is, checkByUploadType, typed, checkReceipt, checked, names, holds]
  · intro bytes other record is typed checked names
    have any : record.payload.claims.any (holdsClaim view) = true :=
      List.any_eq_true.mpr ⟨address, names, holds⟩
    simp [checkUploadedStatement_eq is, checkByUploadType, typed, checkSession, checked, any]
  · intro bytes other link is linked names
    have nonempty : address ≠ [] := by
      rintro rfl
      cases valid
    have kept : (some address).filter (· ≠ []) = some address := by
      simp [Option.filter, nonempty]
    have bound : checkDeviceLinkUpload platform view other (sha256Hex platform bytes)
        (some address) = .ok () := by
      simp only [checkDeviceLinkUpload, linked, kept, Option.bind_some, found, names, if_true]
    rw [checkUploadedStatement_eq is]
    unfold checkDeviceLink at linked
    unfold checkByUploadType
    split at linked
    · rename_i typed
      simpa only [typed] using bound
    · rename_i typed
      simpa only [typed] using bound
    · cases linked

theorem linkBinds_of_found {link : DeviceLink}
    (found : storedLink platform view address = some link) :
    LinkBinds platform view address link := by
  refine ⟨found, ?_⟩
  intro bytes other revocation is typed checked names covers
  simp [checkUploadedStatement_eq is, checkByUploadType, typed, checkRevocationUpload, checked,
    names, found, covers]

/-- The store finds the statement, and takes what names it. -/
structure Usable (platform : Platform) (view : StoreView) (bytes : Bytes)
    (signed : Signed JsValue) : Prop where
  claim : statementTypeOf signed = some .claim →
    ClaimBinds platform view (sha256Hex platform bytes) signed
  link : statementTypeOf signed = some .certificate ∨ statementTypeOf signed = some .vouch →
    ∃ link, checkDeviceLink platform signed = some (.ok link) ∧
      LinkBinds platform view (sha256Hex platform bytes) link

/-! ## Writers of statements -/

/-- The writers that check what they store as a statement. -/
def Write.ofStatement : Write platform hostKeys → Bool
  | .upload contentType _ _ _ _ => contentType = statementMimeType
  | .claim _ _ _ | .certificate _ _ _ _ | .hostStatement _ _ => true
  | .file _ _ _ _ | .cachePut _ _ _ => false

variable (platform hostKeys) in
def OfferedAsStatement (bytes : Bytes) : Prop :=
  ∃ write : Write platform hostKeys, ∃ offer, write.ofStatement = true ∧
    offered write = some offer ∧ offer.bytes = bytes

/-- An upload that is small enough and passes its check. -/
theorem offeredAsStatement_of_check {forClaim : Option JsString}
    (small : bytes.length ≤ maxStatementBytes)
    (accepted : checkUploadedStatement platform bytes view forClaim = .ok ()) :
    OfferedAsStatement platform hostKeys bytes := by
  let upload : Write platform hostKeys :=
    .upload statementMimeType bytes (js "doc") forClaim view
  have owned : js "doc" ≠ [] := by decide
  have offers : offered upload =
      some (streamed bytes statementMimeType (js ".json") (js "doc")) := by
    simp [upload, offered, handleUpload, handleStatementUpload, owned, small, accepted]
  refine ⟨upload, _, ?_, offers, streamed_bytes ..⟩
  simp only [upload, Write.ofStatement, decide_true]

theorem checkDeviceLink_reread {again : Signed JsValue} (reread : Reread signed again bytes) :
    checkDeviceLink platform again = checkDeviceLink platform signed := by
  have certificate : checkDeviceCertificate platform again = checkDeviceCertificate platform signed :=
    reread.check fun _ _ same => deviceCertificate?_same same
  have vouch : checkDeviceVouch platform again = checkDeviceVouch platform signed :=
    reread.check fun _ _ same => deviceVouch?_same same
  simp only [checkDeviceLink, statementTypeOf_reread reread, certificate, vouch]

variable (platform) in
theorem reread_of_storeStatement {docUrl : JsString} {offer : Offer}
    (parsed : Parsed signed.payload) (stored : storeStatement signed docUrl = some offer) :
    ∃ again, IsStatement offer.bytes again ∧ statementTypeOf again = statementTypeOf signed ∧
      checkDeviceLink platform again = checkDeviceLink platform signed := by
  obtain ⟨bytes, written, rfl⟩ := Option.map_eq_some_iff.mp stored
  obtain ⟨again, reread⟩ := exists_reread_of_written parsed written
  exact ⟨again, ⟨reread.read, reread.canonical⟩, statementTypeOf_reread reread,
    checkDeviceLink_reread reread⟩

theorem linked_of_offered (statement : OfferedAsStatement platform hostKeys bytes) :
    ∃ signed, IsStatement bytes signed ∧
      (statementTypeOf signed = some .certificate ∨ statementTypeOf signed = some .vouch →
        ∃ link, checkDeviceLink platform signed = some (.ok link)) := by
  obtain ⟨write, offer, ours, offers, rfl⟩ := statement
  cases write with
  | upload contentType bytes docUrl forClaim view =>
      obtain ⟨-, rfl, accepted⟩ | ⟨other, -⟩ := handleUpload_cases offers
      · obtain ⟨signed, is, checked⟩ := checkUploadedStatement_ok_iff.mp accepted
        refine ⟨signed, is, ?_⟩
        rintro (typed | typed)
        · rw [checkByUploadType, typed] at checked
          exact checkDeviceLink_of_upload checked
        · rw [checkByUploadType, typed] at checked
          exact checkDeviceLink_of_upload checked
      · exact absurd (of_decide_eq_true ours) other
  | claim encoded received docUrl =>
      obtain ⟨⟨signed, claim⟩, checked, stored⟩ := Option.bind_eq_some_iff.mp offers
      obtain ⟨parsed, shape, -⟩ := claim_of_checkedClaim checked
      obtain ⟨again, is, typed, -⟩ := reread_of_storeStatement platform parsed stored
      refine ⟨again, is, ?_⟩
      rw [typed, claim_statementTypeOf shape]
      rintro (other | other) <;> cases other
  | certificate encoded received certificate docUrl =>
      obtain ⟨⟨claimSigned, claim⟩, checked, stored⟩ := Option.bind_eq_some_iff.mp offers
      obtain ⟨signed, found, stored⟩ := Option.bind_eq_some_iff.mp stored
      obtain ⟨parsed, link, linked⟩ := link_of_certificateFor found
      obtain ⟨again, is, typed, same⟩ := reread_of_storeStatement platform parsed stored
      refine ⟨again, is, ?_⟩
      intro
      exact ⟨link, same.trans linked⟩
  | hostStatement statement docUrl =>
      obtain ⟨again, is, typed, -⟩ :=
        reread_of_storeStatement platform statement.plain offers
      refine ⟨again, is, ?_⟩
      have own := statement.type
      rw [typed]
      rintro (other | other) <;> simp [other] at own
  | file | cachePut => cases ours

/-! ## The host and what it has acknowledged -/

/-- `accepted` are the documents whose ingest of a statement at the address was answered and
that are still owed its bytes. -/
structure Promises where
  host : Host
  accepted : JsString → List JsString

def noPromises : Promises := ⟨emptyHost, fun _ => []⟩

def acceptedAfter (state : Promises) (next : Host) :
    HostAction platform hostKeys → JsString → List JsString
  | .store here action, hash =>
      if here = hash then
        accept statementMimeType (state.accepted hash) (state.host hash) (next hash) action
      else state.accepted hash
  | .write _ _, hash | .restart, hash => state.accepted hash

def promisedStep (content : JsString → Bytes) (state : Promises)
    (action : HostAction platform hostKeys) : Option Promises :=
  (hostStep content state.host action).map fun next => ⟨next, acceptedAfter state next action⟩

/-- At this address, no file is taken from an ingest that counts on it, and no ingest of a
statement meets a meta file of another type. -/
def KeptAt (hash : JsString) (state : Promises) : HostAction platform hostKeys → Prop
  | .store here action => here = hash →
      Undisturbed (state.host hash) action ∧
        KeepsType statementMimeType (state.host hash) (state.accepted hash) action
  | .write _ _ | .restart => True

def TypeKeptAt (hash : JsString) (state : Promises) : Prop :=
  TypeKept statementMimeType (state.host hash) (state.accepted hash)

section

variable {hash : JsString} {state next : Promises} {action : HostAction platform hostKeys}

theorem typeKept_reopened {store : Store} {accepted : List JsString}
    (types : TypeKept statementMimeType store accepted) :
    TypeKept statementMimeType (reopened store) accepted :=
  ⟨⟨Table.all_empty, Table.all_empty, types.kept.owed, fun _ _ => Table.all_empty⟩, types.owed,
    types.accepted, Table.all_empty⟩

theorem update_of_storeStep {host next : Host} {here : JsString} {storeAction : Blobs.Action}
    (taken : hostStep content host
      (.store here storeAction : HostAction platform hostKeys) = some next) :
    ∃ store, Blobs.step (host here) storeAction = some store ∧
      next = Function.update host here store := by
  cases storeAction with
  | ingest call ingest => cases taken
  | addRef | releaseRef | remove | resume | removePiece | fail =>
      obtain ⟨store, stepped, rfl⟩ := Option.map_eq_some_iff.mp taken
      exact ⟨store, stepped, rfl⟩

theorem typeKeptAt_step (types : TypeKeptAt hash state) (keeps : KeptAt hash state action)
    (taken : promisedStep content state action = some next) : TypeKeptAt hash next := by
  obtain ⟨host, stepped, rfl⟩ := Option.map_eq_some_iff.mp taken
  cases action with
  | write call write =>
      obtain ⟨offer, -, began⟩ := Option.bind_eq_some_iff.mp stepped
      simp only [beginIngest] at began
      split at began
      · obtain ⟨store, begun, rfl⟩ := Option.map_eq_some_iff.mp began
        unfold TypeKeptAt
        by_cases same : hash = sha256Hex platform offer.bytes
        · subst same
          simp only [Function.update_self]
          exact types.begin begun
        · simp only [Function.update_of_ne same]
          exact types
      · cases began
  | store here action =>
      obtain ⟨store, storeStepped, rfl⟩ := update_of_storeStep stepped
      unfold TypeKeptAt
      by_cases same : here = hash
      · subst same
        obtain ⟨undisturbed, keepsType⟩ := keeps rfl
        simp only [Function.update_self, acceptedAfter, if_true]
        exact types.step undisturbed keepsType storeStepped
      · simp only [Function.update_of_ne (Ne.symm same), acceptedAfter, if_neg same]
        exact types
  | restart =>
      cases stepped
      exact typeKept_reopened types

/-! ## Whole runs -/

variable (platform hostKeys content) in
/-- In every state reached, a statement that was acknowledged to a document that is still owed
its bytes is usable. -/
def AcceptedIsUsable (guard : JsString → Promises → HostAction platform hostKeys → Prop) : Prop :=
  ∀ bytes state docUrl, content (sha256Hex platform bytes) = bytes →
    OfferedAsStatement platform hostKeys bytes →
    Reaches (promisedStep content) (guard (sha256Hex platform bytes)) noPromises state →
    docUrl ∈ state.accepted (sha256Hex platform bytes) →
    ∃ signed, IsStatement bytes signed ∧ Usable platform (state.host.view content) bytes signed

theorem heldAsJson_of_typeKept {docUrl : JsString}
    (digest : (platform.sha256 bytes).length = 32)
    (named : content (sha256Hex platform bytes) = bytes)
    (types : TypeKeptAt (sha256Hex platform bytes) state)
    (accepted : docUrl ∈ state.accepted (sha256Hex platform bytes)) :
    HeldAsJson (state.host.view content) (sha256Hex platform bytes) bytes := by
  obtain ⟨object, type⟩ := types.found accepted
  refine ⟨isValidBlobHash_sha256Hex digest, ?_, type⟩
  simp only [Host.view, object, if_true, named]

theorem HeldAsJson.usable (held : HeldAsJson view (sha256Hex platform bytes) bytes)
    (is : IsStatement bytes signed)
    (linked : statementTypeOf signed = some .certificate ∨ statementTypeOf signed = some .vouch →
      ∃ link, checkDeviceLink platform signed = some (.ok link)) :
    Usable platform view bytes signed := by
  constructor
  · intro claim
    exact claimBinds_of_found (held.storedClaim is claim) held.valid
  · intro typed
    obtain ⟨link, checked⟩ := linked typed
    exact ⟨link, checked, linkBinds_of_found (held.storedLink is checked)⟩

/-- An acknowledged statement stays usable while no meta file of another type is met or written
under it, and no file is taken from an ingest that counts on it. -/
theorem accepted_is_usable (digest : ∀ bytes, (platform.sha256 bytes).length = 32) :
    AcceptedIsUsable platform hostKeys content KeptAt := by
  intro bytes state docUrl named statement reached accepted
  have types : TypeKeptAt (sha256Hex platform bytes) state :=
    reached.invariant _ (Blobs.typeKept_opened false none none)
      fun _ types keeps taken => typeKeptAt_step types keeps taken
  obtain ⟨signed, is, linked⟩ := linked_of_offered statement
  exact ⟨signed, is, (heldAsJson_of_typeKept (digest bytes) named types accepted).usable is linked⟩

end

/-! ## An upload of which nothing is taken -/

/-- The ingest is of the type, and what it finds is too. -/
def keepsType (type : JsString) : Call → Bool
  | .statting ingest existing => ingest.metadata.mimeType ≠ type || existing.mimeType = type
  | .describing ingest _ | .repairing ingest => ingest.metadata.mimeType = type
  | _ => true

/-- The address sees ingests only. -/
def ingestsOnly {platform : Platform} {hostKeys : List JsString} (hash : JsString)
    (state : Promises) : HostAction platform hostKeys → Bool
  | .write _ _ => true
  | .store here (.resume call) =>
      here = hash && ((state.host hash).calls call).all (keepsType statementMimeType)
  | _ => false

section

variable {platform : Platform} {hostKeys : List JsString} {content : JsString → Bytes}
  {hash : JsString} {state next : Promises} {action : HostAction platform hostKeys}

theorem calm_ingestsOnly (calm : Calm (state.host hash)) (only : ingestsOnly hash state action = true)
    (taken : promisedStep content state action = some next) : Calm (next.host hash) := by
  obtain ⟨host, stepped, rfl⟩ := Option.map_eq_some_iff.mp taken
  cases action with
  | write call write =>
      obtain ⟨offer, -, began⟩ := Option.bind_eq_some_iff.mp stepped
      simp only [beginIngest] at began
      split at began
      · obtain ⟨store, begun, rfl⟩ := Option.map_eq_some_iff.mp began
        by_cases same : hash = sha256Hex platform offer.bytes
        · subst same
          simp only [Function.update_self]
          exact (calm.begin begun).1
        · simp only [Function.update_of_ne same]
          exact calm
      · cases began
  | store here action =>
      obtain ⟨store, storeStepped, rfl⟩ := update_of_storeStep stepped
      cases action with
      | resume call =>
          obtain ⟨same, -⟩ := Bool.and_eq_true_iff.mp only
          obtain rfl := of_decide_eq_true same
          simp only [Function.update_self]
          exact (calm.resume storeStepped).1
      | _ => cases only
  | restart => cases only

theorem keptAt_ingestsOnly (calm : Calm (state.host hash))
    (only : ingestsOnly hash state action = true) : KeptAt hash state action := by
  cases action with
  | write | restart => trivial
  | store here action =>
      intro
      cases action with
      | resume call =>
          obtain ⟨-, typed⟩ := Bool.and_eq_true_iff.mp only
          refine ⟨calm.undisturbed call, ?_⟩
          intro phase found
          rw [found, Option.all_some] at typed
          cases phase with
          | statting ingest existing =>
              intro own
              simpa [keepsType, own] using typed
          | describing ingest deduped | repairing ingest =>
              intro other
              exact absurd (of_decide_eq_true typed) other
          | _ => trivial
      | _ => cases only

end

def uploaded (call : CallId) (contentType : JsString) (bytes : Bytes) (docUrl : JsString) :
    List (HostAction paddedPlatform []) :=
  .write call (.upload contentType bytes docUrl none (sampleView [])) ::
    List.replicate 5 (.store (sha256Hex paddedPlatform bytes) (.resume call))

theorem uploadedClaim_isOffered : OfferedAsStatement paddedPlatform [] (uploadedClaim "one") := by
  have small : (uploadedClaim "one").length ≤ maxStatementBytes := by decide +kernel
  exact offeredAsStatement_of_check small uploadedClaim_passes

theorem uploadedClaim_type :
    (parseSignedStatement (uploadedClaim "one")).map statementTypeOf = some (some .claim) := by
  decide +kernel

/-- The claim is uploaded to an empty host. -/
theorem uploaded_accepts :
    (run (guarded (ingestsOnly claimAddress · ·) (promisedStep fun _ => uploadedClaim "one"))
      noPromises (uploaded 0 statementMimeType (uploadedClaim "one") (js "doc"))).any
        (fun state => js "doc" ∈ state.accepted claimAddress) = true := by
  decide +kernel

/-- Whatever names the claim binds to it. -/
theorem uploaded_claim_is_usable :
    ∃ state, Reaches (promisedStep fun _ => uploadedClaim "one")
        (KeptAt claimAddress : Promises → HostAction paddedPlatform [] → Prop) noPromises state ∧
      js "doc" ∈ state.accepted claimAddress ∧
      ∃ signed, IsStatement (uploadedClaim "one") signed ∧
        ClaimBinds paddedPlatform (state.host.view fun _ => uploadedClaim "one") claimAddress signed := by
  have digest (bytes : Bytes) : (paddedPlatform.sha256 bytes).length = 32 := by
    simp [paddedPlatform, lengthPlatform]
  have type := uploadedClaim_type
  obtain ⟨state, ran, accepted⟩ := (Option.any_eq_true _ _).mp uploaded_accepts
  have owed : js "doc" ∈ state.accepted claimAddress := of_decide_eq_true accepted
  have reached : Reaches (promisedStep fun _ => uploadedClaim "one")
      (KeptAt claimAddress : Promises → HostAction paddedPlatform [] → Prop) noPromises state := by
    refine .of_checked_run ran fun state action before _ only => ?_
    have calm : Calm (state.host claimAddress) :=
      before.invariant (fun state => Calm (state.host claimAddress))
        (Blobs.calm_opened false none none) fun _ calm only taken => calm_ingestsOnly calm only taken
    exact keptAt_ingestsOnly calm only
  have usable : AcceptedIsUsable paddedPlatform [] (fun _ => uploadedClaim "one") KeptAt :=
    accepted_is_usable digest
  have named : (fun _ : JsString => uploadedClaim "one") claimAddress = uploadedClaim "one" := rfl
  obtain ⟨signed, is, use⟩ :=
    usable (uploadedClaim "one") state (js "doc") named uploadedClaim_isOffered reached owed
  rw [is.read, Option.map_some, Option.some.injEq] at type
  exact ⟨state, reached, owed, signed, is, use.claim type⟩

/-! ## A statement that was uploaded as audio before -/

def audioAndClaim (hash : JsString) : Bytes :=
  if hash = heldBlob.hash then heldAudio else uploadedClaim "one"

/-- The audio, then the claim's bytes as audio of another document, then the claim. -/
def uploadedTwice : List (HostAction paddedPlatform []) :=
  uploaded 0 (js "audio/wav") heldAudio (js "doc") ++
    uploaded 1 (js "audio/wav") (uploadedClaim "one") (js "other") ++
    uploaded 2 statementMimeType (uploadedClaim "one") (js "doc")

/-- The upload of the claim is answered as a duplicate, and no receipt can name it. -/
theorem claim_uploaded_as_audio_is_not_found :
    ¬ AcceptedIsUsable paddedPlatform [] audioAndClaim fun _ => anyAction := by
  intro usable
  have ran : (run (promisedStep audioAndClaim) noPromises uploadedTwice).any
      (fun state => js "doc" ∈ state.accepted claimAddress ∧
        (storedClaim (state.host.view audioAndClaim) claimAddress).isNone) = true := by
    decide +kernel
  have named : audioAndClaim claimAddress = uploadedClaim "one" := by decide +kernel
  have type := uploadedClaim_type
  obtain ⟨state, ran, found⟩ := (Option.any_eq_true _ _).mp ran
  obtain ⟨accepted, missing⟩ := of_decide_eq_true found
  have reached := Reaches.of_run ran (meetsAlong_anyAction uploadedTwice _)
  obtain ⟨signed, is, use⟩ :=
    usable (uploadedClaim "one") state (js "doc") named uploadedClaim_isOffered reached accepted
  rw [is.read, Option.map_some, Option.some.injEq] at type
  have found := (use.claim type).found
  rw [claimAddress, found] at missing
  cases missing

end Tapes.Uploads
