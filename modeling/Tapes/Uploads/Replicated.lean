import Tapes.Uploads.HostAndReader
import Tapes.Uploads.Replication
import Tapes.Uploads.UsableStatements

namespace Tapes.Uploads

open Tapes.Js Tapes.Provenance

/-! Which statements an empty host takes, and so when a copy of a recording is complete. -/

variable {platform : Platform} {audio : Bytes} {view : StoreView} {held : Fetched → Prop}
  {statement other : Fetched} {signed : Signed JsValue}

/-! ## What the host holds -/

def audioAddress (platform : Platform) (audio : Bytes) : JsString := sha256Hex platform audio

/-- The statement sits at its address. -/
structure Addressed (platform : Platform) (statement : Fetched) (signed : Signed JsValue) : Prop where
  hash : sha256Hex platform statement.bytes = statement.hash
  is : IsStatement statement.bytes signed
  payload : statement.payload = readPayload statement.bytes

/-- The host holds the audio as such, and elsewhere exactly these statements as JSON. -/
structure HoldsExactly (platform : Platform) (audio : Bytes) (view : StoreView)
    (held : Fetched → Prop) : Prop where
  audioObject : view.object (audioAddress platform audio) = some audio
  audioType : ∃ type, type ≠ statementMimeType ∧
    view.mimeType (audioAddress platform audio) = some type
  object : ∀ hash bytes, hash ≠ audioAddress platform audio →
    (view.object hash = some bytes ↔ ∃ statement, held statement ∧ statement.hash = hash ∧
      statement.bytes = bytes)
  type : ∀ hash bytes, hash ≠ audioAddress platform audio → view.object hash = some bytes →
    view.mimeType hash = some statementMimeType

theorem HoldsExactly.congr {same : Fetched → Prop} (exactly : HoldsExactly platform audio view held)
    (equal : ∀ statement, held statement ↔ same statement) :
    HoldsExactly platform audio view same := by
  have rewritten : held = same := funext fun statement => propext (equal statement)
  rw [← rewritten]
  exact exactly

theorem HoldsExactly.ingest {ext docUrl : JsString}
    (exactly : HoldsExactly platform audio view held) (addressed : Addressed platform statement signed)
    (once : ∀ other, held other → other.hash = statement.hash → other = statement) :
    HoldsExactly platform audio
      (ingestStream platform view (streamed statement.bytes statementMimeType ext docUrl))
      (fun other => held other ∨ other = statement) := by
  obtain ⟨type, notJson, typed⟩ := exactly.audioType
  simp only [ingestStream, streamed, addressed.hash]
  by_cases here : statement.hash = audioAddress platform audio
  · simp only [here, exactly.audioObject, typed, Option.isSome_some, if_true]
    refine ⟨exactly.audioObject, exactly.audioType, ?_, exactly.type⟩
    intro hash bytes elsewhere
    rw [exactly.object hash bytes elsewhere]
    grind
  · cases found : view.object statement.hash with
    | some bytes =>
        obtain ⟨same, isHeld, sameHash, rfl⟩ := (exactly.object _ _ here).mp found
        cases once same isHeld sameHash
        simp only [exactly.type _ _ here found, Option.isSome_some, if_true]
        apply exactly.congr
        grind
    | none =>
        simp only [Option.isSome_none, Bool.false_eq_true, if_false]
        refine ⟨?_, ?_, ?_, ?_⟩
        · dsimp only
          rw [Function.update_of_ne (Ne.symm here)]
          exact exactly.audioObject
        · refine ⟨type, notJson, ?_⟩
          dsimp only
          rw [Function.update_of_ne (Ne.symm here)]
          exact typed
        · intro hash bytes elsewhere
          dsimp only
          by_cases same : hash = statement.hash
          · subst same
            have unheld : ∀ other, held other → other.hash ≠ statement.hash := by
              intro other isHeld sameHash
              have present := (exactly.object _ other.bytes here).mpr ⟨other, isHeld, sameHash, rfl⟩
              rw [found] at present
              cases present
            simp only [Function.update_self, Option.some.injEq]
            grind
          · rw [Function.update_of_ne same, exactly.object hash bytes elsewhere]
            grind
        · intro hash bytes elsewhere present
          dsimp only at present ⊢
          by_cases same : hash = statement.hash
          · subst same
            exact Function.update_self ..
          · rw [Function.update_of_ne same] at present ⊢
            exact exactly.type hash bytes elsewhere present

/-! ## What a check finds there -/

section

variable (exactly : HoldsExactly platform audio view held)
  (digest : ∀ bytes, (platform.sha256 bytes).length = 32)
  (addressed : ∀ statement, held statement → ∃ signed, Addressed platform statement signed)

include exactly digest

theorem stat_audio : ∃ type, view.stat (audioAddress platform audio) =
    some ⟨⟨audioAddress platform audio, sizeOfBytes audio⟩, type⟩ ∧ type ≠ statementMimeType := by
  obtain ⟨type, notJson, typed⟩ := exactly.audioType
  have valid : isValidBlobHash (audioAddress platform audio) = true :=
    isValidBlobHash_sha256Hex (digest audio)
  refine ⟨type, ?_, notJson⟩
  simp [StoreView.stat, valid, typed, exactly.audioObject]

include addressed

theorem heldAsJson_of_held (isHeld : held statement)
    (elsewhere : statement.hash ≠ audioAddress platform audio) :
    HeldAsJson view statement.hash statement.bytes := by
  obtain ⟨signed, here⟩ := addressed statement isHeld
  have object := (exactly.object _ _ elsewhere).mpr ⟨statement, isHeld, rfl, rfl⟩
  refine ⟨?_, object, exactly.type _ _ elsewhere object⟩
  rw [← here.hash]
  exact isValidBlobHash_sha256Hex (digest statement.bytes)

omit digest addressed in
theorem held_of_stat {hash : JsString} {stat : BlobStat} (found : view.stat hash = some stat)
    (elsewhere : hash ≠ audioAddress platform audio) :
    ∃ statement, held statement ∧ statement.hash = hash ∧
      stat = ⟨⟨hash, sizeOfBytes statement.bytes⟩, statementMimeType⟩ := by
  unfold StoreView.stat at found
  split at found
  · split at found
    · rename_i type bytes typed object
      cases found
      obtain ⟨statement, isHeld, sameHash, rfl⟩ := (exactly.object _ _ elsewhere).mp object
      rw [exactly.type _ _ elsewhere object] at typed
      cases typed
      exact ⟨statement, isHeld, sameHash, rfl⟩
    · cases found
  · cases found

theorem storedClaim_iff {hash : JsString} :
    storedClaim view hash = some signed ↔
      hash ≠ audioAddress platform audio ∧ ∃ statement, held statement ∧ statement.hash = hash ∧
        IsStatement statement.bytes signed ∧ statementTypeOf signed = some .claim := by
  constructor
  · intro found
    unfold storedClaim at found
    split at found
    · rename_i json
      obtain ⟨read, typed⟩ := Option.filter_eq_some_iff.mp found
      obtain ⟨stat, present, isJson⟩ := (Option.any_eq_true _ _).mp json
      have elsewhere : hash ≠ audioAddress platform audio := by
        rintro rfl
        obtain ⟨type, audioStat, notJson⟩ := stat_audio exactly digest
        rw [audioStat, Option.some.injEq] at present
        rw [← present] at isJson
        exact notJson (of_decide_eq_true isJson)
      obtain ⟨statement, isHeld, sameHash, -⟩ := held_of_stat exactly present elsewhere
      subst sameHash
      have asJson := heldAsJson_of_held exactly digest addressed isHeld elsewhere
      obtain ⟨own, here⟩ := addressed statement isHeld
      rw [asJson.read here.is, Option.some.injEq] at read
      subst read
      exact ⟨elsewhere, statement, isHeld, rfl, here.is, by simpa using typed⟩
    · cases found
  · rintro ⟨elsewhere, statement, isHeld, rfl, is, typed⟩
    exact (heldAsJson_of_held exactly digest addressed isHeld elsewhere).storedClaim is typed

theorem storedLink_iff {hash : JsString} {link : DeviceLink} :
    storedLink platform view hash = some link ↔
      hash ≠ audioAddress platform audio ∧ ∃ statement, held statement ∧ statement.hash = hash ∧
        ∃ signed, IsStatement statement.bytes signed ∧
          checkDeviceLink platform signed = some (.ok link) := by
  constructor
  · intro found
    unfold storedLink at found
    split at found
    · rename_i json
      obtain ⟨stat, present, isJson⟩ := (Option.any_eq_true _ _).mp json
      have elsewhere : hash ≠ audioAddress platform audio := by
        rintro rfl
        obtain ⟨type, audioStat, notJson⟩ := stat_audio exactly digest
        rw [audioStat, Option.some.injEq] at present
        rw [← present] at isJson
        exact notJson (of_decide_eq_true isJson)
      obtain ⟨statement, isHeld, sameHash, -⟩ := held_of_stat exactly present elsewhere
      subst sameHash
      have asJson := heldAsJson_of_held exactly digest addressed isHeld elsewhere
      obtain ⟨own, here⟩ := addressed statement isHeld
      rw [asJson.read here.is, Option.bind_some] at found
      split at found
      · rename_i link checked
        cases found
        exact ⟨elsewhere, statement, isHeld, rfl, own, here.is, checked⟩
      · cases found
    · cases found
  · rintro ⟨elsewhere, statement, isHeld, rfl, signed, is, checked⟩
    exact (heldAsJson_of_held exactly digest addressed isHeld elsewhere).storedLink is checked

end

/-! ## When a statement is taken -/

/-- The statement at the address is a held claim. -/
def HeldClaim (platform : Platform) (audio : Bytes) (held : Fetched → Prop) (address : JsString)
    (signed : Signed JsValue) : Prop :=
  address ≠ audioAddress platform audio ∧ ∃ statement, held statement ∧ statement.hash = address ∧
    IsStatement statement.bytes signed ∧ statementTypeOf signed = some .claim

def HeldLink (platform : Platform) (audio : Bytes) (held : Fetched → Prop) (address : JsString)
    (link : DeviceLink) : Prop :=
  address ≠ audioAddress platform audio ∧ ∃ statement, held statement ∧ statement.hash = address ∧
    ∃ signed, IsStatement statement.bytes signed ∧
      checkDeviceLink platform signed = some (.ok link)

/-- The claim is about these bytes. -/
def ClaimsBytes (platform : Platform) (signed : Signed JsValue) (address : JsString)
    (bytes : Bytes) : Prop :=
  ∃ claim, checkRecordingClaim platform signed ⟨address, sizeOfBytes bytes⟩ = .ok claim

/-- What a statement binds to on a host that holds these. -/
def Binding (platform : Platform) (audio : Bytes) (held : Fetched → Prop) (signed : Signed JsValue)
    (address : JsString) (forClaim : Option JsString) : Prop :=
  match statementTypeOf signed with
  | some .claim =>
      ClaimsBytes platform signed (audioAddress platform audio) audio ∨
      ∃ earlier, held earlier ∧ earlier.hash ≠ audioAddress platform audio ∧
        ClaimsBytes platform signed earlier.hash earlier.bytes
  | some .receipt =>
      ∃ receipt claim, checkHostReceipt platform signed = .ok receipt ∧
        HeldClaim platform audio held receipt.payload.claim claim
  | some .session =>
      ∃ record listed claim, checkSessionRecord platform signed = .ok record ∧
        listed ∈ record.payload.claims ∧ HeldClaim platform audio held listed claim
  | some .certificate | some .vouch =>
      ∃ link named claim, checkDeviceLink platform signed = some (.ok link) ∧
        forClaim = some named ∧ HeldClaim platform audio held named claim ∧
        claimNames claim address link = true
  | some .revocation =>
      ∃ revocation link, checkDeviceRevocation platform signed = .ok revocation ∧
        HeldLink platform audio held revocation.payload.deviceLink link ∧
        revocationCovers revocation.payload link revocation.payload.deviceLink = true
  | none => False

def Accepted (platform : Platform) (view : StoreView) (item : Fetched × Option JsString) : Prop :=
  item.1.bytes.length ≤ maxStatementBytes ∧
    checkUploadedStatement platform item.1.bytes view item.2 = .ok ()

section

variable (exactly : HoldsExactly platform audio view held)
  (digest : ∀ bytes, (platform.sha256 bytes).length = 32)
  (addressed : ∀ statement, held statement → ∃ signed, Addressed platform statement signed)
  {forClaim : Option JsString}

include exactly digest addressed

theorem holdsClaim_iff {hash : JsString} :
    holdsClaim view hash = true ↔ ∃ claim, HeldClaim platform audio held hash claim := by
  rw [holdsClaim, Option.isSome_iff_exists]
  exact exists_congr fun _ => storedClaim_iff exactly digest addressed

theorem checkClaim_iff (typed : statementTypeOf signed = some .claim) {address : JsString} :
    checkClaim platform view signed = .ok () ↔
      Binding platform audio held signed address forClaim := by
  obtain ⟨type, audioStat, -⟩ := stat_audio exactly digest
  simp only [Binding, typed]
  unfold checkClaim
  constructor
  · intro passed
    split at passed
    · cases passed
    · rename_i stat found
      split at passed
      · cases passed
      · rename_i claim checked
        obtain ⟨hash, -, found⟩ := Option.bind_eq_some_iff.mp found
        by_cases here : hash = audioAddress platform audio
        · subst here
          rw [audioStat, Option.some.injEq] at found
          subst found
          exact .inl ⟨claim, checked⟩
        · obtain ⟨earlier, isHeld, rfl, rfl⟩ := held_of_stat exactly found here
          exact .inr ⟨earlier, isHeld, here, claim, checked⟩
  · rintro (⟨claim, checked⟩ | ⟨earlier, isHeld, elsewhere, claim, checked⟩)
    · obtain ⟨shape, -, hash, -, -⟩ := checkRecordingClaim_eq_ok_iff.mp checked
      rw [claimHash_of_shape shape, hash, Option.bind_some, audioStat]
      simp only [checked]
    · have asJson := heldAsJson_of_held exactly digest addressed isHeld elsewhere
      have earlierStat : view.stat earlier.hash =
          some ⟨⟨earlier.hash, sizeOfBytes earlier.bytes⟩, statementMimeType⟩ := by
        simp [StoreView.stat, asJson.valid, asJson.object, asJson.type]
      obtain ⟨shape, -, hash, -, -⟩ := checkRecordingClaim_eq_ok_iff.mp checked
      rw [claimHash_of_shape shape, hash, Option.bind_some, earlierStat]
      simp only [checked]

theorem checkDeviceLinkUpload_iff {address : JsString} :
    checkDeviceLinkUpload platform view signed address forClaim = .ok () ↔
      ∃ link named claim, checkDeviceLink platform signed = some (.ok link) ∧
        forClaim = some named ∧ HeldClaim platform audio held named claim ∧
        claimNames claim address link = true := by
  unfold checkDeviceLinkUpload
  constructor
  · intro passed
    split at passed
    · cases passed
    · cases passed
    · rename_i link checked
      split at passed
      · cases passed
      · rename_i claim found
        obtain ⟨named, given, stored⟩ := Option.bind_eq_some_iff.mp found
        obtain ⟨given, -⟩ := Option.filter_eq_some_iff.mp given
        split at passed
        · rename_i names
          exact ⟨link, named, claim, checked, given,
            (storedClaim_iff exactly digest addressed).mp stored, names⟩
        · cases passed
  · rintro ⟨link, named, claim, checked, rfl, isHeld, names⟩
    have stored := (storedClaim_iff exactly digest addressed).mpr isHeld
    have nonempty : named ≠ [] := by
      obtain ⟨elsewhere, other, otherHeld, rfl, -⟩ := isHeld
      have valid := (heldAsJson_of_held exactly digest addressed otherHeld elsewhere).valid
      intro empty
      rw [empty] at valid
      cases valid
    have kept : (some named).filter (· ≠ []) = some named := by
      simp [Option.filter, nonempty]
    simp only [checked, kept, Option.bind_some, stored, names, if_true]

theorem accepted_iff (is : IsStatement statement.bytes signed) :
    Accepted platform view (statement, forClaim) ↔
      statement.bytes.length ≤ maxStatementBytes ∧
        Binding platform audio held signed (sha256Hex platform statement.bytes) forClaim := by
  apply and_congr_right
  intro
  rw [checkUploadedStatement_eq is, checkByUploadType]
  cases typed : statementTypeOf signed with
  | none => simp [Binding, typed]
  | some type =>
      cases type with
      | claim => exact checkClaim_iff exactly digest addressed typed
      | receipt =>
          simp only [Binding, typed, checkReceipt]
          cases checked : checkHostReceipt platform signed with
          | error problem => simp
          | ok receipt =>
              simp only [Except.ok.injEq, exists_and_left, exists_eq_left']
              rw [← holdsClaim_iff exactly digest addressed]
              split <;> simp [*]
      | session =>
          simp only [Binding, typed, checkSession]
          cases checked : checkSessionRecord platform signed with
          | error problem => simp
          | ok record =>
              simp only [Except.ok.injEq, exists_and_left, exists_eq_left']
              simp only [← holdsClaim_iff exactly digest addressed]
              rw [← List.any_eq_true]
              split <;> simp [*]
      | certificate =>
          simp only [Binding, typed]
          exact checkDeviceLinkUpload_iff exactly digest addressed
      | vouch =>
          simp only [Binding, typed]
          exact checkDeviceLinkUpload_iff exactly digest addressed
      | revocation =>
          simp only [Binding, typed, checkRevocationUpload]
          cases checked : checkDeviceRevocation platform signed with
          | error problem => simp
          | ok revocation =>
              simp only [Except.ok.injEq, exists_and_left, exists_eq_left']
              have found : ∀ link, HeldLink platform audio held revocation.payload.deviceLink link ↔
                  storedLink platform view revocation.payload.deviceLink = some link :=
                fun link => (storedLink_iff exactly digest addressed).symm
              simp only [found]
              cases storedLink platform view revocation.payload.deviceLink with
              | none => simp
              | some link =>
                  simp only [Option.some.injEq, exists_eq_left']
                  split <;> simp [*]

end

/-! ## One statement after the other -/

/-- The host takes the statement while it holds these. -/
def Takes (platform : Platform) (audio : Bytes) (held : Fetched → Prop)
    (item : Fetched × Option JsString) : Prop :=
  ∃ signed, IsStatement item.1.bytes signed ∧ item.1.bytes.length ≤ maxStatementBytes ∧
    Binding platform audio held signed item.1.hash item.2

def heldAfter (platform : Platform) (audio : Bytes) (held : Fetched → Prop) :
    List (Fetched × Option JsString) → Fetched → Prop
  | [] => held
  | item :: rest =>
      heldAfter platform audio
        (fun other => held other ∨ (other = item.1 ∧ Takes platform audio held item)) rest

theorem copyStatement_of_accepted {docUrl : JsString} (named : docUrl ≠ [])
    {item : Fetched × Option JsString} (accepted : Accepted platform view item) :
    copyStatement platform docUrl view item =
      ingestStream platform view
        (streamed item.1.bytes statementMimeType (js ".json") docUrl) := by
  obtain ⟨small, passed⟩ := accepted
  simp [copyStatement, copyBlob, handleUpload, handleStatementUpload, named, small, passed]

theorem copyStatement_of_refused {docUrl : JsString} {item : Fetched × Option JsString}
    (refused : ¬ Accepted platform view item) : copyStatement platform docUrl view item = view := by
  unfold copyStatement copyBlob
  cases offers : handleUpload platform view statementMimeType item.1.bytes docUrl item.2 with
  | none => rfl
  | some offer =>
      simp only [handleUpload, handleStatementUpload] at offers
      split at offers
      · cases offers
      · split at offers
        · cases offers
        · split at offers
          · split at offers
            · rename_i small
              split at offers
              · cases offers
              · rename_i passed
                exact absurd ⟨small, passed⟩ refused
            · cases offers
          · rename_i other
            exact absurd trivial other

/-- The statements that are sent: each at its address, one at an address. -/
structure Sent (platform : Platform) (sent : List Fetched) : Prop where
  addressed : ∀ statement ∈ sent, ∃ signed, Addressed platform statement signed
  once : ∀ statement ∈ sent, ∀ other ∈ sent, other.hash = statement.hash → other = statement

variable {sent : List Fetched} {docUrl : JsString}

theorem holdsExactly_copyStatement (digest : ∀ bytes, (platform.sha256 bytes).length = 32)
    (named : docUrl ≠ []) (all : Sent platform sent)
    (exactly : HoldsExactly platform audio view held)
    (fromSent : ∀ statement, held statement → statement ∈ sent)
    {item : Fetched × Option JsString} (isSent : item.1 ∈ sent) :
    HoldsExactly platform audio (copyStatement platform docUrl view item)
      (fun other => held other ∨ (other = item.1 ∧ Takes platform audio held item)) := by
  obtain ⟨signed, addressed⟩ := all.addressed item.1 isSent
  have accepts : Accepted platform view item ↔ _ := accepted_iff exactly digest
    (fun statement isHeld => all.addressed statement (fromSent statement isHeld)) addressed.is
  rw [addressed.hash] at accepts
  have takes : Takes platform audio held item ↔ Accepted platform view item := by
    rw [accepts]
    constructor
    · rintro ⟨other, is, small, binding⟩
      cases addressed.is.unique is.read
      exact ⟨small, binding⟩
    · rintro ⟨small, binding⟩
      exact ⟨signed, addressed.is, small, binding⟩
  by_cases accepted : Accepted platform view item
  · rw [copyStatement_of_accepted named accepted]
    have once : ∀ other, held other → other.hash = item.1.hash → other = item.1 :=
      fun other isHeld => all.once item.1 isSent other (fromSent other isHeld)
    apply (exactly.ingest addressed once).congr
    intro other
    rw [takes]
    grind
  · rw [copyStatement_of_refused accepted]
    apply exactly.congr
    intro other
    rw [takes]
    grind

theorem holdsExactly_foldl (digest : ∀ bytes, (platform.sha256 bytes).length = 32)
    (named : docUrl ≠ []) (all : Sent platform sent)
    (items : List (Fetched × Option JsString)) (areSent : ∀ item ∈ items, item.1 ∈ sent)
    (exactly : HoldsExactly platform audio view held)
    (fromSent : ∀ statement, held statement → statement ∈ sent) :
    HoldsExactly platform audio (items.foldl (copyStatement platform docUrl) view)
      (heldAfter platform audio held items) := by
  induction items generalizing view held with
  | nil => exact exactly
  | cons item rest induction =>
      have isSent := areSent item List.mem_cons_self
      apply induction fun other member => areSent other (List.mem_cons_of_mem _ member)
      · exact holdsExactly_copyStatement digest named all exactly fromSent isSent
      · rintro statement (isHeld | ⟨rfl, -⟩)
        · exact fromSent statement isHeld
        · exact isSent

theorem heldAfter_append (before after : List (Fetched × Option JsString)) :
    heldAfter platform audio held (before ++ after) =
      heldAfter platform audio (heldAfter platform audio held before) after := by
  induction before generalizing held with
  | nil => rfl
  | cons item rest induction => exact induction

/-! ## Statements of one rank -/

variable {more : Fetched → Prop} {items : List (Fetched × Option JsString)}

theorem Binding.mono {address : JsString} {forClaim : Option JsString}
    (other : statementTypeOf signed ≠ some .claim)
    (claims : ∀ address claim, HeldClaim platform audio held address claim →
      HeldClaim platform audio more address claim)
    (links : statementTypeOf signed = some .revocation → ∀ address link,
      HeldLink platform audio held address link → HeldLink platform audio more address link)
    (binding : Binding platform audio held signed address forClaim) :
    Binding platform audio more signed address forClaim := by
  unfold Binding at binding ⊢
  cases typed : statementTypeOf signed with
  | none => simp [typed] at binding
  | some type =>
      simp only [typed] at binding ⊢
      cases type with
      | claim => exact absurd typed other
      | receipt =>
          obtain ⟨receipt, claim, checked, isHeld⟩ := binding
          exact ⟨receipt, claim, checked, claims _ _ isHeld⟩
      | session =>
          obtain ⟨record, listed, claim, checked, inside, isHeld⟩ := binding
          exact ⟨record, listed, claim, checked, inside, claims _ _ isHeld⟩
      | certificate | vouch =>
          obtain ⟨link, named, claim, checked, given, isHeld, names⟩ := binding
          exact ⟨link, named, claim, checked, given, claims _ _ isHeld, names⟩
      | revocation =>
          obtain ⟨revocation, link, checked, isHeld, covers⟩ := binding
          exact ⟨revocation, link, checked, links typed _ _ isHeld, covers⟩

theorem HeldClaim.mono {address : JsString} (grows : ∀ statement, held statement → more statement)
    (claim : HeldClaim platform audio held address signed) :
    HeldClaim platform audio more address signed := by
  obtain ⟨elsewhere, statement, isHeld, rest⟩ := claim
  exact ⟨elsewhere, statement, grows statement isHeld, rest⟩

theorem HeldLink.mono {address : JsString} {link : DeviceLink}
    (grows : ∀ statement, held statement → more statement)
    (isLink : HeldLink platform audio held address link) :
    HeldLink platform audio more address link := by
  obtain ⟨elsewhere, statement, isHeld, rest⟩ := isLink
  exact ⟨elsewhere, statement, grows statement isHeld, rest⟩

/-- Every statement of the list has one of these types. -/
def OfTypes (items : List (Fetched × Option JsString)) (types : Option StatementType → Prop) : Prop :=
  ∀ item ∈ items, ∀ signed, IsStatement item.1.bytes signed → types (statementTypeOf signed)

/-- With only these statements besides. -/
structure Between (held more : Fetched → Prop) (items : List (Fetched × Option JsString)) : Prop where
  grows : ∀ statement, held statement → more statement
  only : ∀ statement, more statement → held statement ∨ ∃ item ∈ items, item.1 = statement

theorem HeldClaim.of_between {address : JsString} (between : Between held more items)
    (others : OfTypes items (· ≠ some .claim))
    (claim : HeldClaim platform audio more address signed) :
    HeldClaim platform audio held address signed := by
  obtain ⟨elsewhere, statement, isHeld, sameHash, is, typed⟩ := claim
  obtain before | ⟨item, member, rfl⟩ := between.only statement isHeld
  · exact ⟨elsewhere, statement, before, sameHash, is, typed⟩
  · exact absurd typed (others item member signed is)

theorem HeldLink.of_between {address : JsString} {link : DeviceLink}
    (between : Between held more items)
    (others : OfTypes items fun type => type ≠ some .certificate ∧ type ≠ some .vouch)
    (isLink : HeldLink platform audio more address link) :
    HeldLink platform audio held address link := by
  obtain ⟨elsewhere, statement, isHeld, sameHash, signed, is, checked⟩ := isLink
  obtain before | ⟨item, member, rfl⟩ := between.only statement isHeld
  · exact ⟨elsewhere, statement, before, sameHash, signed, is, checked⟩
  · obtain ⟨certificate, vouch⟩ := others item member signed is
    unfold checkDeviceLink at checked
    split at checked
    · contradiction
    · contradiction
    · cases checked

/-- A rank above the claims', where nothing in it lets or keeps another in. -/
structure Rank (items : List (Fetched × Option JsString)) : Prop where
  others : OfTypes items (· ≠ some .claim)
  apart : OfTypes items (· ≠ some .revocation) ∨
    OfTypes items fun type => type ≠ some .certificate ∧ type ≠ some .vouch

theorem Rank.takes_iff (rank : Rank items) (between : Between held more items)
    {item : Fetched × Option JsString} (member : item ∈ items) :
    Takes platform audio more item ↔ Takes platform audio held item := by
  constructor
  · rintro ⟨signed, is, small, binding⟩
    refine ⟨signed, is, small, binding.mono (rank.others item member signed is) ?_ ?_⟩
    · intro address claim isHeld
      exact isHeld.of_between between rank.others
    · intro typed address link isHeld
      obtain none | none := rank.apart
      · exact absurd typed (none item member signed is)
      · exact isHeld.of_between between none
  · rintro ⟨signed, is, small, binding⟩
    refine ⟨signed, is, small, binding.mono (rank.others item member signed is) ?_ ?_⟩
    · intro address claim isHeld
      exact isHeld.mono between.grows
    · intro typed address link isHeld
      exact isHeld.mono between.grows

theorem Rank.heldAfter_iff (rank : Rank items) (rest : List (Fetched × Option JsString))
    (inside : ∀ item ∈ rest, item ∈ items) (between : Between held more items) :
    heldAfter platform audio more rest statement ↔
      more statement ∨ ∃ item ∈ rest, item.1 = statement ∧ Takes platform audio held item := by
  induction rest generalizing more with
  | nil => simp [heldAfter]
  | cons item rest induction =>
      have here := inside item List.mem_cons_self
      have takes : Takes platform audio more item ↔ Takes platform audio held item :=
        rank.takes_iff between here
      rw [heldAfter, induction fun other member => inside other (List.mem_cons_of_mem _ member)]
      · simp only [takes, List.exists_mem_cons_iff]
        grind
      · constructor
        · exact fun other isHeld => .inl (between.grows other isHeld)
        · rintro other (before | ⟨rfl, -⟩)
          · exact between.only other before
          · exact .inr ⟨item, here, rfl⟩

/-! ## The claims -/

/-- A claim that comes after these is taken: it is about the audio, or about the bytes of an
earlier claim that is. -/
inductive ClaimTaken (platform : Platform) (audio : Bytes) : List Fetched → Fetched → Prop
  | audio {before : List Fetched} {statement : Fetched} {signed : Signed JsValue}
      (is : IsStatement statement.bytes signed)
      (small : statement.bytes.length ≤ maxStatementBytes)
      (about : ClaimsBytes platform signed (audioAddress platform audio) audio) :
      ClaimTaken platform audio before statement
  | earlier {before between : List Fetched} {earlier statement : Fetched}
      {signed : Signed JsValue} (taken : ClaimTaken platform audio before earlier)
      (elsewhere : earlier.hash ≠ audioAddress platform audio)
      (is : IsStatement statement.bytes signed)
      (small : statement.bytes.length ≤ maxStatementBytes)
      (about : ClaimsBytes platform signed earlier.hash earlier.bytes) :
      ClaimTaken platform audio (before ++ earlier :: between) statement

/-- The claim is taken at one of the places where it is listed. -/
def ListedTaken (platform : Platform) (audio : Bytes) (claims : List Fetched)
    (claim : Fetched) : Prop :=
  ∃ before after, claims = before ++ claim :: after ∧ ClaimTaken platform audio before claim

theorem listedTaken_append_singleton {claims : List Fetched} {last claim : Fetched} :
    ListedTaken platform audio (claims ++ [last]) claim ↔
      ListedTaken platform audio claims claim ∨
        (claim = last ∧ ClaimTaken platform audio claims claim) := by
  constructor
  · rintro ⟨before, after, same, taken⟩
    obtain rfl | ⟨init, final, rfl⟩ := List.eq_nil_or_concat after
    · obtain ⟨rfl, final⟩ := List.append_inj' same rfl
      cases List.head_eq_of_cons_eq final
      exact .inr ⟨rfl, taken⟩
    · have split : claims ++ [last] = (before ++ claim :: init) ++ [final] := by
        simpa using same
      obtain ⟨rfl, -⟩ := List.append_inj' split rfl
      exact .inl ⟨before, init, rfl, taken⟩
  · rintro (⟨before, after, rfl, taken⟩ | ⟨rfl, taken⟩)
    · exact ⟨before, after ++ [last], by simp, taken⟩
    · exact ⟨claims, [], rfl, taken⟩

theorem takes_claim_iff {claims : List Fetched} {claim : Fetched}
    (is : IsStatement claim.bytes signed) (typed : statementTypeOf signed = some .claim) :
    Takes platform audio (ListedTaken platform audio claims) (claim, none) ↔
      ClaimTaken platform audio claims claim := by
  constructor
  · rintro ⟨other, otherIs, small, binding⟩
    cases is.unique otherIs.read
    simp only [Binding, typed] at binding
    obtain about | ⟨earlier, ⟨before, between, rfl, taken⟩, elsewhere, about⟩ := binding
    · exact .audio is small about
    · exact .earlier taken elsewhere is small about
  · intro taken
    refine ⟨signed, is, ?_⟩
    simp only [Binding, typed]
    cases taken with
    | audio otherIs small about =>
        cases is.unique otherIs.read
        exact ⟨small, .inl about⟩
    | earlier taken elsewhere otherIs small about =>
        cases is.unique otherIs.read
        exact ⟨small, .inr ⟨_, ⟨_, _, rfl, taken⟩, elsewhere, about⟩⟩

theorem heldAfter_claims (claims : List Fetched)
    (areClaims : ∀ claim ∈ claims, ∃ signed, IsStatement claim.bytes signed ∧
      statementTypeOf signed = some .claim) :
    heldAfter platform audio (fun _ => False) (claims.map fun claim => (claim, none)) =
      ListedTaken platform audio claims := by
  induction claims using List.reverseRecOn with
  | nil =>
      funext statement
      simp [heldAfter, ListedTaken]
  | append_singleton claims last induction =>
      have before := induction fun claim member => areClaims claim (List.mem_append_left _ member)
      obtain ⟨signed, is, typed⟩ := areClaims last (by simp)
      rw [List.map_append, heldAfter_append, before]
      funext statement
      simp only [List.map_cons, List.map_nil, heldAfter, takes_claim_iff is typed]
      rw [eq_iff_iff, listedTaken_append_singleton]
      grind

/-! ## The order they are sent in -/

theorem orUndefined_get (value : JsValue) (key : JsString) :
    (orUndefined value).get key = value.get key := by
  cases value <;> rfl

theorem readPayload_get {bytes : Bytes} (is : IsStatement bytes signed) (key : JsString) :
    (readPayload bytes).get key = signed.payload.get key := by
  obtain ⟨text, decoded, read⟩ := Option.bind_eq_some_iff.mp is.read
  obtain ⟨value, parsed, read⟩ := Option.bind_eq_some_iff.mp read
  simp only [readPayload, decoded, Option.bind_some, parsed, orUndefined_get]
  cases value with
  | object members =>
      obtain ⟨signature, -, read⟩ := Option.bind_eq_some_iff.mp read
      split at read
      · cases read
        rfl
      · cases read
  | undefined | null | boolean | number | string | array => cases read

/-- The rank by type. -/
def rankOf : Option StatementType → Nat
  | some .claim => 0
  | some .certificate | some .vouch => 1
  | some .receipt | some .session | none => 2
  | some .revocation => 3

theorem hasPayloadType_iff (addressed : Addressed platform statement signed) (type : JsString) :
    hasPayloadType statement.payload type = true ↔ (statementType signed).string? = some type := by
  rw [hasPayloadType, addressed.payload, readPayload_get addressed.is, decide_eq_true_eq]
  rfl

theorem rank_eq (addressed : Addressed platform statement signed) :
    rank statement.payload = rankOf (statementTypeOf signed) := by
  have claim := hasPayloadType_iff addressed recordingClaimType
  have certificate := hasPayloadType_iff addressed deviceCertificateType
  have vouch := hasPayloadType_iff addressed deviceVouchType
  have revocation := hasPayloadType_iff addressed deviceRevocationType
  have distinct : [recordingClaimType, hostReceiptType, sessionRecordType, deviceCertificateType,
      deviceVouchType, deviceRevocationType].Nodup := by decide
  simp only [List.nodup_cons, List.mem_cons, List.not_mem_nil, or_false, not_or] at distinct
  simp only [rank, isDeviceLink, Bool.or_eq_true, claim, certificate, vouch, revocation,
    statementTypeOf]
  generalize (statementType signed).string? = type
  grind [rankOf]

theorem isDeviceLink_iff (addressed : Addressed platform statement signed) :
    isDeviceLink statement.payload = true ↔ rank statement.payload = 1 := by
  have claim := hasPayloadType_iff addressed recordingClaimType
  have certificate := hasPayloadType_iff addressed deviceCertificateType
  have vouch := hasPayloadType_iff addressed deviceVouchType
  have distinct : [recordingClaimType, deviceCertificateType, deviceVouchType].Nodup := by decide
  simp only [List.nodup_cons, List.mem_cons, List.not_mem_nil, or_false, not_or] at distinct
  simp only [rank, isDeviceLink, Bool.or_eq_true, claim, certificate, vouch]
  generalize (statementType signed).string? = type
  grind

theorem mem_fetchAll {source : JsString → Option Bytes} {hashes : List JsString} :
    statement ∈ fetchAll source hashes ↔
      statement.hash ∈ hashes ∧ source statement.hash = some statement.bytes ∧
        statement.payload = readPayload statement.bytes := by
  obtain ⟨hash, bytes, payload⟩ := statement
  simp only [fetchAll, List.mem_filterMap, Option.map_eq_some_iff, Fetched.mk.injEq]
  grind

def Recording.statements (recording : Recording platform) : List Fetched :=
  fetchAll recording.source recording.hashes

theorem Recording.areSent (recording : Recording platform) : Sent platform recording.statements := by
  constructor
  · intro statement member
    obtain ⟨listed, fetched, payload⟩ := mem_fetchAll.mp member
    obtain ⟨bytes, signed, served, address, is⟩ := recording.served _ listed
    rw [fetched, Option.some.injEq] at served
    subst served
    exact ⟨signed, address, is, payload⟩
  · intro statement member other otherMember same
    obtain ⟨-, fetched, payload⟩ := mem_fetchAll.mp member
    obtain ⟨-, otherFetched, otherPayload⟩ := mem_fetchAll.mp otherMember
    obtain ⟨hash, bytes, value⟩ := statement
    obtain ⟨otherHash, otherBytes, otherValue⟩ := other
    simp only at same fetched otherFetched payload otherPayload
    subst same
    rw [fetched, Option.some.injEq] at otherFetched
    rw [payload, otherPayload, otherFetched]

theorem rank_mem (payload : JsValue) : rank payload ∈ [0, 1, 2, 3] := by
  unfold rank
  split_ifs <;> simp

/-- The statements of a rank, each with the claim it is sent for. -/
def Recording.ofRank (recording : Recording platform) (value : Nat) :
    List (Fetched × Option JsString) :=
  (recording.statements.filter fun statement => rank statement.payload = value).map fun statement =>
    (statement, if value = 1 then claimNaming recording.statements statement.hash else none)

theorem rank_of_names {hash : JsString} (names : statement.names hash = true) :
    rank statement.payload = 0 := by
  obtain ⟨claim, -⟩ := Bool.and_eq_true_iff.mp names
  rw [rank, if_pos claim]

/-- The sort keeps the claims in their order, so the same one comes first. -/
theorem claimNaming_sorted (statements : List Fetched) (hash : JsString) :
    claimNaming (byRank (fun statement => rank statement.payload) [0, 1, 2, 3] statements) hash =
      claimNaming statements hash := by
  have split : byRank (fun statement => rank statement.payload) [0, 1, 2, 3] statements =
      statements.filter (fun statement => rank statement.payload = 0) ++
        byRank (fun statement => rank statement.payload) [1, 2, 3] statements := rfl
  have later : (byRank (fun statement => rank statement.payload) [1, 2, 3] statements).find?
      (fun statement => statement.names hash) = none := by
    rw [List.find?_eq_none]
    intro statement member names
    have above := (mem_byRank.mp member).2
    rw [rank_of_names names] at above
    simp at above
  have first : (statements.filter fun statement => rank statement.payload = 0).find?
      (fun statement => statement.names hash) =
      statements.find? fun statement => statement.names hash := by
    rw [List.find?_filter]
    congr 1
    funext statement
    cases names : statement.names hash with
    | false => simp
    | true => simp [rank_of_names names]
  rw [claimNaming, split, List.find?_append, later, first, Option.or_none, claimNaming]

theorem fetchStatements_eq (recording : Recording platform) :
    fetchStatements recording.source recording.hashes =
      recording.ofRank 0 ++ (recording.ofRank 1 ++ (recording.ofRank 2 ++ recording.ofRank 3)) := by
  have sorted : recording.statements.insertionSort
      (fun left right => rank left.payload ≤ rank right.payload) =
      byRank (fun statement => rank statement.payload) [0, 1, 2, 3] recording.statements :=
    insertionSort_rank (by decide) fun statement _ => rank_mem statement.payload
  have each : ∀ value, ((recording.statements.filter fun statement =>
      rank statement.payload = value).map fun statement => (statement,
        if isDeviceLink statement.payload then claimNaming recording.statements statement.hash
        else none)) = recording.ofRank value := by
    intro value
    apply List.map_congr_left
    intro statement member
    obtain ⟨listed, ranked⟩ := List.mem_filter.mp member
    obtain ⟨signed, addressed⟩ := recording.areSent.addressed statement listed
    have ranked : rank statement.payload = value := by simpa using ranked
    have link := isDeviceLink_iff addressed
    rw [ranked] at link
    simp only [link]
  unfold fetchStatements
  change List.map _ (recording.statements.insertionSort _) = _
  rw [show fetchAll recording.source recording.hashes = recording.statements from rfl, sorted]
  simp only [claimNaming_sorted]
  rw [← each 0, ← each 1, ← each 2, ← each 3]
  simp only [byRank, List.flatMap_cons, List.flatMap_nil, List.append_nil, List.map_append]

/-! ## What a copy holds -/

section

variable (recording : Recording platform)

def Recording.claims : List Fetched :=
  recording.statements.filter fun statement => rank statement.payload = 0

/-- The statements that the host takes. -/
def Recording.taken : Fetched → Prop :=
  heldAfter platform recording.audio (fun _ => False)
    (fetchStatements recording.source recording.hashes)

/-- The host takes the statement, given that it takes the others: it is the audio itself, or a
claim about what is sent before it, or it binds to the listed ones. -/
def Recording.Copied (statement : Fetched) : Prop :=
  statement.hash = audioAddress platform recording.audio ∨
  ListedTaken platform recording.audio recording.claims statement ∨
  (rank statement.payload ≠ 0 ∧
    Takes platform recording.audio (· ∈ recording.statements)
      (statement, claimNaming recording.statements statement.hash))

variable {recording}

theorem mem_ofRank {value : Nat} {item : Fetched × Option JsString}
    (member : item ∈ recording.ofRank value) :
    item.1 ∈ recording.statements ∧ rank item.1.payload = value ∧
      item.2 = if value = 1 then claimNaming recording.statements item.1.hash else none := by
  obtain ⟨statement, inside, rfl⟩ := List.mem_map.mp member
  obtain ⟨listed, ranked⟩ := List.mem_filter.mp inside
  exact ⟨listed, by simpa using ranked, rfl⟩

theorem rankOf_of_mem (member : statement ∈ recording.statements)
    (is : IsStatement statement.bytes signed) :
    rank statement.payload = rankOf (statementTypeOf signed) := by
  obtain ⟨other, addressed⟩ := recording.areSent.addressed statement member
  cases addressed.is.unique is.read
  exact rank_eq addressed

theorem rank_ofRank {value : Nat} (above : value ≠ 0) : Rank (recording.ofRank value) := by
  have types : OfTypes (recording.ofRank value) fun type => rankOf type = value := by
    intro item member signed is
    obtain ⟨listed, ranked, -⟩ := mem_ofRank member
    rw [← rankOf_of_mem listed is, ranked]
  constructor
  · intro item member signed is claim
    have ranked := types item member signed is
    rw [claim] at ranked
    exact above ranked.symm
  · by_cases last : value = 3
    · right
      intro item member signed is
      have ranked := types item member signed is
      constructor <;> intro typed <;> rw [typed] at ranked <;> simp [rankOf] at ranked <;> omega
    · left
      intro item member signed is typed
      have ranked := types item member signed is
      rw [typed] at ranked
      exact last ranked.symm

theorem between_refl (items : List (Fetched × Option JsString)) : Between held held items :=
  ⟨fun _ isHeld => isHeld, fun _ isHeld => .inl isHeld⟩

/-- Each rank adds the statements that bind to the ones before. -/
theorem taken_rank {value : Nat} (above : value ≠ 0) :
    heldAfter platform audio held (recording.ofRank value) statement ↔
      held statement ∨ ∃ item ∈ recording.ofRank value, item.1 = statement ∧
        Takes platform audio held item :=
  (rank_ofRank above).heldAfter_iff _ (fun _ member => member) (between_refl _)

/-- What is held once the statements up to a rank are sent. -/
def Recording.upTo (recording : Recording platform) : Nat → Fetched → Prop
  | 0 => ListedTaken platform recording.audio recording.claims
  | value + 1 =>
      heldAfter platform recording.audio (recording.upTo value) (recording.ofRank (value + 1))

theorem upTo_succ {value : Nat} :
    recording.upTo (value + 1) statement ↔
      recording.upTo value statement ∨ ∃ item ∈ recording.ofRank (value + 1),
        item.1 = statement ∧ Takes platform recording.audio (recording.upTo value) item :=
  taken_rank (Nat.succ_ne_zero value)

theorem taken_eq_upTo : recording.taken = recording.upTo 3 := by
  have claims : heldAfter platform recording.audio (fun _ => False) (recording.ofRank 0) =
      recording.upTo 0 := by
    apply heldAfter_claims
    intro claim member
    obtain ⟨listed, ranked⟩ := List.mem_filter.mp member
    obtain ⟨signed, addressed⟩ := recording.areSent.addressed claim listed
    refine ⟨signed, addressed.is, ?_⟩
    have ranked : rank claim.payload = 0 := by simpa using ranked
    rw [rank_eq addressed] at ranked
    cases typed : statementTypeOf signed with
    | none =>
        rw [typed] at ranked
        cases ranked
    | some type => cases type <;> simp [typed, rankOf] at ranked ⊢
  rw [Recording.taken, fetchStatements_eq, heldAfter_append, heldAfter_append, heldAfter_append,
    claims]
  rfl

theorem upTo_mono {value more : Nat} (below : value ≤ more) (isHeld : recording.upTo value statement) :
    recording.upTo more statement := by
  induction below with
  | refl => exact isHeld
  | step _ induction => exact upTo_succ.mpr (.inl induction)

theorem mem_of_upTo {value : Nat} (isHeld : recording.upTo value statement) :
    statement ∈ recording.statements := by
  induction value with
  | zero =>
      obtain ⟨before, after, split, -⟩ := isHeld
      have inside : statement ∈ recording.claims := by simp [split]
      exact List.mem_of_mem_filter inside
  | succ value induction =>
      obtain before | ⟨item, member, rfl, -⟩ := upTo_succ.mp isHeld
      · exact induction before
      · exact (mem_ofRank member).1

/-- Only certificates and vouches are sent for a claim. -/
theorem Binding.forClaim {address : JsString} {forClaim other : Option JsString}
    (notLink : rankOf (statementTypeOf signed) ≠ 1)
    (binding : Binding platform audio held signed address forClaim) :
    Binding platform audio held signed address other := by
  unfold Binding at binding ⊢
  cases typed : statementTypeOf signed with
  | none => simp [typed] at binding
  | some type =>
      simp only [typed] at binding ⊢ notLink
      cases type with
      | claim | receipt | session | revocation => exact binding
      | certificate | vouch => exact absurd rfl notLink

theorem typed_of_rank {value : Nat} (member : statement ∈ recording.statements)
    (ranked : rank statement.payload = value) (is : IsStatement statement.bytes signed) :
    rankOf (statementTypeOf signed) = value := by
  rw [← rankOf_of_mem member is, ranked]

theorem notClaim_of_rank {value : Nat} (ranked : rankOf (statementTypeOf signed) = value + 1) :
    statementTypeOf signed ≠ some .claim := by
  intro claim
  rw [claim] at ranked
  cases ranked

theorem copied_of_upTo {value : Nat} (isHeld : recording.upTo value statement) :
    recording.Copied statement := by
  induction value with
  | zero => exact .inr (.inl isHeld)
  | succ value induction =>
      obtain before | ⟨item, member, rfl, signed, is, small, binding⟩ := upTo_succ.mp isHeld
      · exact induction before
      · obtain ⟨listed, ranked, sentFor⟩ := mem_ofRank member
        have typed := typed_of_rank listed ranked is
        have listedBinding : Binding platform recording.audio (· ∈ recording.statements) signed
            item.1.hash item.2 :=
          binding.mono (notClaim_of_rank typed) (fun _ _ claim => claim.mono fun _ => mem_of_upTo)
            fun _ _ _ link => link.mono fun _ => mem_of_upTo
        refine .inr (.inr ⟨by omega, signed, is, small, ?_⟩)
        by_cases link : value + 1 = 1
        · rw [if_pos link] at sentFor
          rw [← sentFor]
          exact listedBinding
        · exact listedBinding.forClaim (typed ▸ link)

/-! ## A complete copy -/

section

variable (all : ∀ statement ∈ recording.statements, recording.Copied statement)

include all

theorem upTo_claim (member : statement ∈ recording.statements)
    (ranked : rank statement.payload = 0)
    (elsewhere : statement.hash ≠ audioAddress platform recording.audio) :
    recording.upTo 0 statement := by
  obtain here | taken | ⟨above, -⟩ := all statement member
  · exact absurd here elsewhere
  · exact taken
  · exact absurd ranked above

theorem heldClaim_of_listed {value : Nat} {address : JsString}
    (claim : HeldClaim platform recording.audio (· ∈ recording.statements) address signed) :
    HeldClaim platform recording.audio (recording.upTo value) address signed := by
  obtain ⟨elsewhere, statement, member, rfl, is, typed⟩ := claim
  have ranked := rankOf_of_mem member is
  rw [typed] at ranked
  exact ⟨elsewhere, statement,
    upTo_mono (Nat.zero_le value) (upTo_claim all member ranked elsewhere), rfl, is, typed⟩

theorem upTo_above {value : Nat} (member : statement ∈ recording.statements)
    (ranked : rank statement.payload = value + 1)
    (elsewhere : statement.hash ≠ audioAddress platform recording.audio)
    (links : value + 1 = 3 → ∀ address link,
      HeldLink platform recording.audio (· ∈ recording.statements) address link →
      HeldLink platform recording.audio (recording.upTo value) address link) :
    recording.upTo (value + 1) statement := by
  obtain here | ⟨before, after, split, -⟩ | ⟨-, signed, is, small, binding⟩ := all statement member
  · exact absurd here elsewhere
  · have inside : statement ∈ recording.claims := by simp [split]
    have claim : rank statement.payload = 0 := by simpa using (List.mem_filter.mp inside).2
    omega
  · have typed := typed_of_rank member ranked is
    have early : Binding platform recording.audio (recording.upTo value) signed statement.hash
        (claimNaming recording.statements statement.hash) := by
      apply binding.mono (notClaim_of_rank typed)
      · exact fun _ _ claim => heldClaim_of_listed all claim
      · intro revocation
        rw [revocation] at typed
        exact links typed.symm
    have member : (statement, if value + 1 = 1 then
        claimNaming recording.statements statement.hash else none) ∈
        recording.ofRank (value + 1) :=
      List.mem_map.mpr ⟨statement, List.mem_filter.mpr ⟨member, by simpa using ranked⟩, rfl⟩
    refine upTo_succ.mpr (.inr ⟨_, member, rfl, signed, is, small, ?_⟩)
    by_cases link : value + 1 = 1
    · rw [if_pos link]
      exact early
    · rw [if_neg link]
      exact early.forClaim (typed ▸ link)

theorem heldLink_of_listed {value : Nat} {address : JsString} {link : DeviceLink}
    (above : 1 ≤ value)
    (isLink : HeldLink platform recording.audio (· ∈ recording.statements) address link) :
    HeldLink platform recording.audio (recording.upTo value) address link := by
  obtain ⟨elsewhere, statement, member, rfl, signed, is, checked⟩ := isLink
  have ranked : rank statement.payload = 0 + 1 := by
    rw [rankOf_of_mem member is]
    unfold checkDeviceLink at checked
    split at checked
    · rename_i typed
      rw [typed]
      rfl
    · rename_i typed
      rw [typed]
      rfl
    · cases checked
  have held := upTo_above all member ranked elsewhere nofun
  exact ⟨elsewhere, statement, upTo_mono above held, rfl, signed, is, checked⟩

theorem taken_of_copied (member : statement ∈ recording.statements)
    (elsewhere : statement.hash ≠ audioAddress platform recording.audio) :
    recording.taken statement := by
  rw [taken_eq_upTo]
  have most : rank statement.payload ≤ 3 := by
    have listed := rank_mem statement.payload
    simp only [List.mem_cons, List.not_mem_nil, or_false] at listed
    omega
  cases ranked : rank statement.payload with
  | zero => exact upTo_mono (Nat.zero_le 3) (upTo_claim all member ranked elsewhere)
  | succ value =>
      apply upTo_mono (ranked ▸ most)
      apply upTo_above all member ranked elsewhere
      intro last address link isLink
      exact heldLink_of_listed all (by omega) isLink

end

theorem all_taken_iff :
    (∀ statement ∈ recording.statements,
      statement.hash = audioAddress platform recording.audio ∨ recording.taken statement) ↔
      ∀ statement ∈ recording.statements, recording.Copied statement := by
  constructor
  · intro all statement member
    obtain here | taken := all statement member
    · exact .inl here
    · rw [taken_eq_upTo] at taken
      exact copied_of_upTo taken
  · intro all statement member
    by_cases here : statement.hash = audioAddress platform recording.audio
    · exact .inl here
    · exact .inr (taken_of_copied all member here)

end

/-! ## The audio -/

/-- The host takes the audio: it is within the limit, of an audio type and owned. -/
structure AudioTaken (maxBlobBytes : Nat) (recording : Recording platform) : Prop where
  small : recording.audio.length ≤ maxBlobBytes
  type : (js "audio/").isPrefixOf recording.mimeType = true
  owned : recording.docUrl ≠ []

theorem notJson_of_audio {mimeType : JsString} (type : (js "audio/").isPrefixOf mimeType = true) :
    mimeType ≠ statementMimeType := by
  rintro rfl
  revert type
  decide

theorem emptyView_refuses (bytes : Bytes) :
    checkUploadedStatement platform bytes emptyView none ≠ .ok () := by
  intro passed
  obtain ⟨signed, is, checked⟩ := checkUploadedStatement_ok_iff.mp passed
  have noStat : ∀ hash, emptyView.stat hash = none := by
    intro hash
    simp [StoreView.stat, emptyView]
  have noClaim : ∀ hash, storedClaim emptyView hash = none := by
    intro hash
    simp [storedClaim, noStat]
  have noLink : ∀ hash, storedLink platform emptyView hash = none := by
    intro hash
    simp [storedLink, noStat]
  unfold checkByUploadType at checked
  split at checked
  · have none : (((signed.payload.get (js "blob")).get (js "hash")).string?).bind emptyView.stat =
        none := by
      simp [noStat]
    simp [checkClaim, none] at checked
  · simp only [checkReceipt] at checked
    split at checked <;> simp [holdsClaim, noClaim] at checked
  · simp only [checkSession] at checked
    split at checked <;> simp [holdsClaim, noClaim] at checked
  · simp only [checkDeviceLinkUpload, Option.filter_none, Option.bind_none] at checked
    split at checked <;> cases checked
  · simp only [checkDeviceLinkUpload, Option.filter_none, Option.bind_none] at checked
    split at checked <;> cases checked
  · simp only [checkRevocationUpload] at checked
    split at checked <;> simp [noLink] at checked
  · cases checked

variable (platform audio) in
theorem copyBlob_audio {docUrl mimeType : JsString} (owned : docUrl ≠ [])
    (type : (js "audio/").isPrefixOf mimeType = true) :
    ∃ view, copyBlob platform docUrl emptyView mimeType audio none = some view ∧
      HoldsExactly platform audio view fun _ => False := by
  have notJson := notJson_of_audio type
  refine ⟨ingestStream platform emptyView (streamed audio mimeType [] docUrl), ?_, ?_⟩
  · simp [copyBlob, handleUpload, notJson, type, owned]
  · have stored : ingestStream platform emptyView (streamed audio mimeType [] docUrl) =
        ⟨Function.update (fun _ => none) (audioAddress platform audio) (some audio),
          Function.update (fun _ => none) (audioAddress platform audio) (some mimeType)⟩ := rfl
    rw [stored]
    constructor
    · dsimp only
      rw [Function.update_self]
    · refine ⟨mimeType, notJson, ?_⟩
      dsimp only
      rw [Function.update_self]
    · intro hash bytes elsewhere
      dsimp only
      rw [Function.update_of_ne elsewhere]
      simp
    · intro hash bytes elsewhere present
      dsimp only at present
      rw [Function.update_of_ne elsewhere] at present
      cases present

theorem copyBlob_empty {docUrl mimeType : JsString} {bytes : Bytes} {view : StoreView}
    (copied : copyBlob platform docUrl emptyView mimeType bytes none = some view) :
    (js "audio/").isPrefixOf mimeType = true ∧ docUrl ≠ [] := by
  obtain ⟨offer, offers, -⟩ := Option.map_eq_some_iff.mp copied
  obtain ⟨-, -, passed⟩ | ⟨other, -⟩ := handleUpload_cases offers
  · exact absurd passed (emptyView_refuses bytes)
  · simp only [handleUpload] at offers
    split at offers
    · cases offers
    · split at offers
      · cases offers
      · rename_i typed owned
        refine ⟨?_, owned⟩
        rw [not_and] at typed
        simpa using typed other

/-! ## Whole copies -/

/-- The host that was empty holds the audio and every one of the statements. -/
def CopiesAll (maxBlobBytes : Nat) (recording : Recording platform) : Prop :=
  (replicateBlob maxBlobBytes recording).object (audioAddress platform recording.audio) =
      some recording.audio ∧
    ∀ statement ∈ recording.statements,
      ((replicateBlob maxBlobBytes recording).object statement.hash).isSome = true

variable {maxBlobBytes : Nat} {recording : Recording platform}

theorem holdsExactly_replicateBlob (digest : ∀ bytes, (platform.sha256 bytes).length = 32)
    (taken : AudioTaken maxBlobBytes recording) :
    HoldsExactly platform recording.audio (replicateBlob maxBlobBytes recording)
      recording.taken := by
  obtain ⟨view, copied, exactly⟩ :=
    copyBlob_audio platform recording.audio taken.owned taken.type
  have within : ¬ maxBlobBytes < recording.audio.length := by
    have small := taken.small
    omega
  simp only [replicateBlob, if_neg within, copied]
  apply holdsExactly_foldl digest taken.owned recording.areSent _ _ exactly nofun
  intro item member
  rw [fetchStatements_eq] at member
  simp only [List.mem_append] at member
  obtain rank | rank | rank | rank := member <;> exact (mem_ofRank rank).1

theorem audioTaken_of_copiesAll (copies : CopiesAll maxBlobBytes recording) :
    AudioTaken maxBlobBytes recording := by
  have holds := copies.1
  unfold replicateBlob at holds
  by_cases large : maxBlobBytes < recording.audio.length
  · simp [large, emptyView] at holds
  · cases copied : copyBlob platform recording.docUrl emptyView recording.mimeType
        recording.audio none with
    | none =>
        simp only [if_neg large, copied] at holds
        cases holds
    | some view =>
        obtain ⟨type, owned⟩ := copyBlob_empty copied
        exact ⟨by omega, type, owned⟩

/-- A copy is complete exactly when the host takes the audio, and each statement that is not the
audio itself is small enough and binds to what is listed. -/
theorem copiesAll_iff (digest : ∀ bytes, (platform.sha256 bytes).length = 32) :
    CopiesAll maxBlobBytes recording ↔
      AudioTaken maxBlobBytes recording ∧
        ∀ statement ∈ recording.statements, recording.Copied statement := by
  constructor
  · intro copies
    have audioTaken := audioTaken_of_copiesAll copies
    refine ⟨audioTaken, all_taken_iff.mp ?_⟩
    have exactly := holdsExactly_replicateBlob digest audioTaken
    intro statement member
    by_cases here : statement.hash = audioAddress platform recording.audio
    · exact .inl here
    · obtain ⟨bytes, present⟩ := Option.isSome_iff_exists.mp (copies.2 statement member)
      obtain ⟨other, taken, same, -⟩ := (exactly.object _ _ here).mp present
      rw [taken_eq_upTo] at taken
      cases recording.areSent.once statement member other (mem_of_upTo taken) same
      rw [← taken_eq_upTo] at taken
      exact .inr taken
  · rintro ⟨audioTaken, all⟩
    have exactly := holdsExactly_replicateBlob digest audioTaken
    refine ⟨exactly.audioObject, ?_⟩
    intro statement member
    obtain here | taken := all_taken_iff.mpr all statement member
    · rw [here, exactly.audioObject]
      rfl
    · by_cases here : statement.hash = audioAddress platform recording.audio
      · rw [here, exactly.audioObject]
        rfl
      · rw [(exactly.object _ _ here).mpr ⟨statement, taken, rfl, rfl⟩]
        rfl

/-! ## Samples -/

def heldCertificate : Bytes := certificateOfFirst.bytes.getD []

def claimOfKey (deviceKey : JsString) (sessionId : String) : Bytes :=
  (sampleStatement [("type", .string recordingClaimType),
    ("blob", .object [(js "hash", .string heldBlob.hash), (js "size", .number heldBlob.size),
      (js "mimeType", .string (js "audio/wav"))]),
    ("startedAt", .string (js "t0")), ("endedAt", .string (js "t1")),
    ("sessionId", .string (js sessionId)), ("deviceKey", .string deviceKey),
    ("deviceCert", .string (sha256Hex paddedPlatform heldCertificate))]).bytes.getD []

theorem served_of_listed {statements : List Bytes}
    (are : ∀ bytes ∈ statements, (parseSignedStatement bytes).bind statementBytes = some bytes) :
    ∀ hash ∈ statements.map (sha256Hex paddedPlatform), ∃ bytes signed,
      (statements.find? fun bytes => sha256Hex paddedPlatform bytes = hash) = some bytes ∧
        sha256Hex paddedPlatform bytes = hash ∧ IsStatement bytes signed := by
  intro hash listed
  obtain ⟨listedBytes, member, rfl⟩ := List.mem_map.mp listed
  cases found : statements.find? fun bytes =>
      sha256Hex paddedPlatform bytes = sha256Hex paddedPlatform listedBytes with
  | none =>
      have absent := List.find?_eq_none.mp found listedBytes member
      simp at absent
  | some bytes =>
      obtain ⟨signed, read, canonical⟩ :=
        Option.bind_eq_some_iff.mp (are bytes (List.mem_of_find?_eq_some found))
      exact ⟨bytes, signed, rfl, by simpa using List.find?_some found, read, canonical⟩

/-- `heldAudio` with these statements. -/
def listing (statements : List Bytes)
    (are : ∀ bytes ∈ statements, (parseSignedStatement bytes).bind statementBytes = some bytes) :
    Recording paddedPlatform where
  audio := heldAudio
  mimeType := js "audio/wav"
  docUrl := js "doc"
  hashes := statements.map (sha256Hex paddedPlatform)
  source hash := statements.find? fun bytes => sha256Hex paddedPlatform bytes = hash
  served := served_of_listed are

theorem mem_listing {statements : List Bytes}
    {are : ∀ bytes ∈ statements, (parseSignedStatement bytes).bind statementBytes = some bytes}
    {statement : Fetched} (member : statement ∈ (listing statements are).statements) :
    statement.bytes ∈ statements ∧ statement.hash = sha256Hex paddedPlatform statement.bytes := by
  have served := (mem_fetchAll.mp member).2.1
  have named := List.find?_some served
  exact ⟨List.mem_of_find?_eq_some served, (by simpa using named : _ = _).symm⟩

def inOrder : List Bytes := [claimOfKey (sampleKey 0x41) "one", heldCertificate]

theorem inOrder_are : ∀ bytes ∈ inOrder,
    (parseSignedStatement bytes).bind statementBytes = some bytes := by
  decide +kernel

theorem copiesAll_inOrder : CopiesAll 1 (listing inOrder inOrder_are) := by
  have copied : (replicateBlob 1 (listing inOrder inOrder_are)).object
        (audioAddress paddedPlatform (listing inOrder inOrder_are).audio) =
          some (listing inOrder inOrder_are).audio ∧
      ∀ bytes ∈ inOrder, ((replicateBlob 1 (listing inOrder inOrder_are)).object
        (sha256Hex paddedPlatform bytes)).isSome = true := by
    decide +kernel
  constructor
  · exact copied.1
  · intro statement member
    obtain ⟨sent, named⟩ := mem_listing member
    rw [named]
    exact copied.2 statement.bytes sent

theorem copiesAll_iff_inOrder : AudioTaken 1 (listing inOrder inOrder_are) ∧
    ∀ statement ∈ (listing inOrder inOrder_are).statements,
      (listing inOrder inOrder_are).Copied statement :=
  (copiesAll_iff (by simp [paddedPlatform, lengthPlatform])).mp copiesAll_inOrder

/-! ## Two claims that name one certificate -/

/-- Another device's claim names the certificate too, and is listed first. -/
def namedTwice : List Bytes :=
  [claimOfKey (sampleKey 0x42) "second", claimOfKey (sampleKey 0x41) "one", heldCertificate]

/-- An empty host that is sent the audio and then all the statements for one claim. -/
def sentFor (recording : Recording platform) (claim : JsString) : StoreView :=
  match copyBlob platform recording.docUrl emptyView recording.mimeType recording.audio none with
  | none => emptyView
  | some view =>
      (recording.statements.map fun statement => (statement, some claim)).foldl
        (copyStatement platform recording.docUrl) view

theorem namedTwice_are : ∀ bytes ∈ namedTwice,
    (parseSignedStatement bytes).bind statementBytes = some bytes := by
  decide +kernel

/-- A host takes all of them for the second claim, but the certificate is sent for the first. -/
theorem certificate_sent_for_first_claim :
    (∃ claim ∈ (listing namedTwice namedTwice_are).hashes,
      ∀ statement ∈ (listing namedTwice namedTwice_are).statements,
        ((sentFor (listing namedTwice namedTwice_are) claim).object statement.hash).isSome = true) ∧
    AudioTaken 1 (listing namedTwice namedTwice_are) ∧
    ¬ CopiesAll 1 (listing namedTwice namedTwice_are) := by
  have taken : ∀ bytes ∈ namedTwice,
      ((sentFor (listing namedTwice namedTwice_are)
        (sha256Hex paddedPlatform (claimOfKey (sampleKey 0x41) "one"))).object
          (sha256Hex paddedPlatform bytes)).isSome = true := by
    decide +kernel
  have refused : ((replicateBlob 1 (listing namedTwice namedTwice_are)).object
      (sha256Hex paddedPlatform heldCertificate)).isSome = false := by
    decide +kernel
  have listed : sha256Hex paddedPlatform heldCertificate ∈
      (listing namedTwice namedTwice_are).statements.map Fetched.hash := by
    decide +kernel
  have second : claimOfKey (sampleKey 0x41) "one" ∈ namedTwice :=
    List.mem_cons_of_mem _ List.mem_cons_self
  refine ⟨⟨_, List.mem_map_of_mem second, ?_⟩, ⟨by decide, by decide, by decide⟩, ?_⟩
  · intro statement member
    obtain ⟨sent, named⟩ := mem_listing member
    rw [named]
    exact taken statement.bytes sent
  · intro copies
    obtain ⟨statement, member, same⟩ := List.mem_map.mp listed
    have present := copies.2 statement member
    rw [same, refused] at present
    cases present

end Tapes.Uploads
