import Tapes.Blobs.Calm
import Tapes.Provenance.SameShape
import Tapes.Uploads.ClaimLock
import Tapes.Uploads.UsableStatements

namespace Tapes.Uploads

open Tapes.Js Tapes.Provenance Tapes.Machine
open Tapes.Blobs (BlobMeta Calm CallId Grows Pending Store)

/-! A claim gets one receipt: the one that the first upload under its lock signs, which every
upload of the claim is answered. -/

variable {platform : Platform} {hostKey : JsString} {content : JsString → Bytes}
  {state next : ClaimHost platform} {action : Action platform hostKey} {id : UploadId}
  {job : Job platform} {stage : Stage} {claimHash : JsString}

/-! ## Statements at their address -/

theorem isOwnReceipt_reread {signed again : Signed JsValue} {bytes : Bytes}
    (reread : Reread signed again bytes) :
    isOwnReceipt platform hostKey claimHash again =
      isOwnReceipt platform hostKey claimHash signed := by
  have claim : (again.payload.get (js "claim")).string? =
      (signed.payload.get (js "claim")).string? := (reread.payload.field (js "claim")).symm
  simp only [isOwnReceipt, reread.statementType, claim, reread.valid]

/-- Written bytes are a receipt for the claim where the statement is one. -/
theorem isReceiptFor_written {signed : Signed JsValue} {bytes : Bytes}
    (parsed : Parsed signed.payload) (written : statementBytes signed = some bytes) :
    isReceiptFor platform hostKey claimHash bytes =
      isOwnReceipt platform hostKey claimHash signed := by
  obtain ⟨again, reread⟩ := exists_reread_of_written parsed written
  rw [isReceiptFor, reread.read, Option.any_some, isOwnReceipt_reread reread]

/-- What a receipt is, when it is created and when it is read back from the store. -/
structure IsReceipt (platform : Platform) (hostKey claimHash : JsString)
    (signed : Signed JsValue) : Prop where
  parsed : Parsed signed.payload
  own : isOwnReceipt platform hostKey claimHash signed = true

theorem IsReceipt.written {signed : Signed JsValue}
    (is : IsReceipt platform hostKey claimHash signed) :
    ∃ bytes, statementBytes signed = some bytes := by
  have own := is.own
  simp only [isOwnReceipt, Bool.and_eq_true] at own
  exact Option.isSome_iff_exists.mp (isSome_statementBytes is.parsed own.2)

theorem IsReceipt.claim {signed : Signed JsValue} {other : JsString}
    (is : IsReceipt platform hostKey claimHash signed)
    (also : isOwnReceipt platform hostKey other signed = true) : other = claimHash := by
  have own := is.own
  simp only [isOwnReceipt, Bool.and_eq_true, decide_eq_true_eq] at own also
  have same := also.1.2.symm.trans own.1.2
  exact Option.some.inj same

theorem isReceipt_created {job : Job platform} {signature : Bytes}
    (valid : verifyStatement platform
      (createHostReceipt job.claimHash job.receivedAt hostKey signature) hostKey = true) :
    IsReceipt platform hostKey job.claimHash
      (createHostReceipt job.claimHash job.receivedAt hostKey signature) := by
  refine ⟨?_, ?_⟩
  · have distinct : ([js "type", js "claim", js "receivedAt", js "hostKey"]).Nodup := by decide
    exact ⟨distinct, trivial, trivial, trivial, trivial, trivial⟩
  · have type : (statementType (createHostReceipt job.claimHash job.receivedAt hostKey
        signature)).string? = some hostReceiptType := rfl
    have claim : ((createHostReceipt job.claimHash job.receivedAt hostKey
        signature).payload.get (js "claim")).string? = some job.claimHash := rfl
    simp [isOwnReceipt, type, claim, valid]

/-- The statement's bytes are those of the object at its address. -/
def At (platform : Platform) (content : JsString → Bytes) (signed : Signed JsValue)
    (hash : JsString) : Prop :=
  statementBytes signed = some (content hash) ∧ sha256Hex platform (content hash) = hash

theorem At.unique {signed : Signed JsValue} {hash other : JsString}
    (here : At platform content signed hash) (there : At platform content signed other) :
    hash = other := by
  have same : content hash = content other := Option.some.inj (here.1.symm.trans there.1)
  rw [← here.2, ← there.2, same]

theorem Job.at_claimHash {hash : JsString} (located : At platform content job.signed hash) :
    hash = job.claimHash := by
  have same : content hash = job.bytes := Option.some.inj (located.1.symm.trans job.written)
  rw [← located.2, same, Job.claimHash]

/-! ## What is known of the claim -/

def ClaimHost.issuedFor (state : ClaimHost platform) (claimHash : JsString) :
    List (UploadId × Signed JsValue) :=
  (state.issued.filter fun entry => entry.1 = claimHash).map Prod.snd

/-- The uploads that took the lock of the claim, in their order. -/
def ClaimHost.enteredFor (state : ClaimHost platform) (claimHash : JsString) : List UploadId :=
  (state.entered.filter fun entry => entry.1 = claimHash).map Prod.snd

/-- The one receipt that was signed for the claim, by the first upload to take the lock. -/
structure Issued (hostKey : JsString) (state : ClaimHost platform) (claimHash : JsString)
    (first : UploadId) (receipt : Signed JsValue) : Prop where
  alone : state.issuedFor claimHash = [(first, receipt)]
  first : (state.enteredFor claimHash).head? = some first
  is : IsReceipt platform hostKey claimHash receipt

def Fresh (state : ClaimHost platform) (claimHash : JsString) : Prop :=
  state.issuedFor claimHash = [] ∧ state.receipts claimHash = none

variable (hostKey content) in
/-- The receipt is stored, and the index names it. -/
def Recorded (state : ClaimHost platform) (claimHash : JsString) : Prop :=
  ∃ first receipt address, Issued hostKey state claimHash first receipt ∧
    At platform content receipt address ∧ state.receipts claimHash = some address ∧
    (state.host address).object = true

/-- The document's ingest of the statement was answered, and is listed. -/
def Stowed (content : JsString → Bytes) (state : ClaimHost platform) (docUrl : JsString)
    (hashes : List JsString) (statement : Signed JsValue) : Prop :=
  ∃ hash ∈ hashes, At platform content statement hash ∧ docUrl ∈ (state.host hash).owed

variable (hostKey content) in
/-- The receipt that a call goes on with is the one that was issued. -/
def Holding (state : ClaimHost platform) (claimHash : JsString) (receipt : Option Receipt)
    (signed : Signed JsValue) : Prop :=
  ∃ isNew first issued, receipt = some ⟨signed, isNew⟩ ∧
    Issued hostKey state claimHash first issued ∧
    IsReceipt platform hostKey claimHash signed ∧
    statementBytes signed = statementBytes issued ∧
    (isNew = false → Recorded hostKey content state claimHash)

variable (hostKey content) in
/-- What holds between the steps of a call for the claim. -/
def Fits (state : ClaimHost platform) (job : Job platform) : Stage → Prop
  | .queued => True
  | .loadingKey | .finding =>
      Fresh state job.claimHash ∨ Recorded hostKey content state job.claimHash
  | .reading hash =>
      Recorded hostKey content state job.claimHash ∧ state.receipts job.claimHash = some hash
  | .signing => Fresh state job.claimHash
  | .certifying receipt => ∃ signed, Holding hostKey content state job.claimHash receipt signed
  | .storing receipt left hashes =>
      ∃ signed, Holding hostKey content state job.claimHash receipt signed ∧
        ∀ statement, statement = job.signed ∨ statement = signed →
          statement ∈ left ∨ Stowed content state job.docUrl hashes statement
  | .ingesting receipt hash call left hashes =>
      ∃ signed, Holding hostKey content state job.claimHash receipt signed ∧
        Pending (state.host hash) call job.docUrl ∧
        ∀ statement, statement = job.signed ∨ statement = signed →
          statement ∈ left ∨ Stowed content state job.docUrl hashes statement ∨
            At platform content statement hash
  | .indexing signed hashes =>
      Holding hostKey content state job.claimHash (some ⟨signed, true⟩) signed ∧
        ∀ statement, statement = job.signed ∨ statement = signed →
          Stowed content state job.docUrl hashes statement
  | .answered result =>
      Recorded hostKey content state job.claimHash ∧
        ∃ first receipt text, Issued hostKey state job.claimHash first receipt ∧
          encodeSignedStatement receipt = some text ∧
          result.claim = .verified (some text) ∧
          Stowed content state job.docUrl result.statements job.signed ∧
          Stowed content state job.docUrl result.statements receipt
  | .rejected => False

/-! ## What is stored -/

/-- What a call stores: its claim, the receipt, and the link that the claim names. -/
def IsFor (job : Job platform) (receipt : Option Receipt) (statement : Signed JsValue) : Prop :=
  statement = job.signed ∨ (∃ held, receipt = some held ∧ held.signed = statement) ∨
    ∃ encoded, certificateFor platform job.claim encoded = some statement

/-- Whatever its claim, a call stores no receipt but its own claim's. -/
def Carries (hostKey : JsString) (job : Job platform) : Stage → Prop
  | .certifying receipt =>
      ∀ held, receipt = some held → IsReceipt platform hostKey job.claimHash held.signed
  | .storing receipt left _ | .ingesting receipt _ _ left _ =>
      (∀ held, receipt = some held → IsReceipt platform hostKey job.claimHash held.signed) ∧
        ∀ statement ∈ left, IsFor job receipt statement
  | _ => True

theorem carries_of_idle (idle : stage.isRunning = false) : Carries hostKey job stage := by
  cases stage with
  | queued | answered | rejected => trivial
  | _ => cases idle

theorem not_own_of_type {statement : Signed JsValue}
    (type : (statementType statement).string? ≠ some hostReceiptType) :
    isOwnReceipt platform hostKey claimHash statement = false := by
  simp [isOwnReceipt, type]

theorem Job.not_own (job : Job platform) :
    isOwnReceipt platform hostKey claimHash job.signed = false := by
  apply not_own_of_type
  have typed := claim_statementTypeOf job.shape
  intro same
  simp only [statementTypeOf, same] at typed
  revert typed
  decide

theorem not_own_of_certificateFor {claim : RecordingClaim} {encoded : JsString}
    {statement : Signed JsValue} (found : certificateFor platform claim encoded = some statement) :
    Parsed statement.payload ∧ isOwnReceipt platform hostKey claimHash statement = false := by
  obtain ⟨parsed, link, checked⟩ := link_of_certificateFor found
  refine ⟨parsed, not_own_of_type ?_⟩
  intro same
  have typed : statementTypeOf statement = some .receipt := by
    simp only [statementTypeOf, same]
    decide
  rw [checkDeviceLink, typed] at checked
  cases checked

/-! ## What no step takes back -/

/-- For this claim nothing is signed or indexed between the states, and nothing is lost. -/
structure Extends (claimHash : JsString) (state next : ClaimHost platform) : Prop where
  host : ∀ hash, Grows (state.host hash) (next.host hash)
  issued : next.issuedFor claimHash = state.issuedFor claimHash
  receipts : next.receipts claimHash = state.receipts claimHash
  first : ∀ first, (state.enteredFor claimHash).head? = some first →
    (next.enteredFor claimHash).head? = some first

section

variable {docUrl : JsString} {hashes : List JsString} {statement signed : Signed JsValue}
  {receipt : Option Receipt} {first : UploadId}

theorem Issued.extend (issued : Issued hostKey state claimHash first signed)
    (extended : Extends claimHash state next) : Issued hostKey next claimHash first signed :=
  ⟨extended.issued.trans issued.alone, extended.first first issued.first, issued.is⟩

theorem Issued.unique {other : UploadId} {receipt : Signed JsValue}
    (issued : Issued hostKey state claimHash first signed)
    (also : Issued hostKey state claimHash other receipt) : receipt = signed := by
  have same := also.alone.symm.trans issued.alone
  simp only [List.cons.injEq, Prod.mk.injEq, and_true] at same
  exact same.2

theorem Issued.not_fresh (issued : Issued hostKey state claimHash first signed)
    (unissued : state.issuedFor claimHash = []) : False := by
  rw [issued.alone] at unissued
  cases unissued

theorem Fresh.extend (fresh : Fresh state claimHash) (extended : Extends claimHash state next) :
    Fresh next claimHash :=
  ⟨extended.issued.trans fresh.1, extended.receipts.trans fresh.2⟩

theorem Recorded.extend (recorded : Recorded hostKey content state claimHash)
    (extended : Extends claimHash state next) : Recorded hostKey content next claimHash := by
  obtain ⟨first, receipt, address, issued, located, named, object⟩ := recorded
  exact ⟨first, receipt, address, issued.extend extended, located, extended.receipts.trans named,
    (extended.host address).object object⟩

theorem Stowed.grow (stowed : Stowed content state docUrl hashes statement)
    (host : ∀ hash, Grows (state.host hash) (next.host hash)) :
    Stowed content next docUrl hashes statement := by
  obtain ⟨hash, listed, located, owed⟩ := stowed
  exact ⟨hash, listed, located, (host hash).owed docUrl owed⟩

theorem Stowed.more (stowed : Stowed content state docUrl hashes statement) (hash : JsString) :
    Stowed content state docUrl (hashes ++ [hash]) statement := by
  obtain ⟨held, listed, rest⟩ := stowed
  exact ⟨held, List.mem_append_left _ listed, rest⟩

theorem Holding.extend (holding : Holding hostKey content state claimHash receipt signed)
    (extended : Extends claimHash state next) :
    Holding hostKey content next claimHash receipt signed := by
  obtain ⟨isNew, first, held, is, issued, own, bytes, recorded⟩ := holding
  exact ⟨isNew, first, held, is, issued.extend extended, own, bytes,
    fun old => (recorded old).extend extended⟩

theorem Fits.extend (fits : Fits hostKey content state job stage)
    (extended : Extends job.claimHash state next) : Fits hostKey content next job stage := by
  cases stage with
  | queued => trivial
  | loadingKey | finding => exact fits.imp (fun fresh => fresh.extend extended) fun recorded => recorded.extend extended
  | reading hash => exact ⟨fits.1.extend extended, extended.receipts.trans fits.2⟩
  | signing => exact Fresh.extend fits extended
  | certifying receipt =>
      obtain ⟨signed, holding⟩ := fits
      exact ⟨signed, holding.extend extended⟩
  | storing receipt left hashes =>
      obtain ⟨signed, holding, each⟩ := fits
      exact ⟨signed, holding.extend extended,
        fun statement is => (each statement is).imp_right fun stowed => stowed.grow extended.host⟩
  | ingesting receipt hash call left hashes =>
      obtain ⟨signed, holding, pending, each⟩ := fits
      refine ⟨signed, holding.extend extended, (extended.host hash).pending call _ pending, ?_⟩
      intro statement is
      exact (each statement is).imp_right (Or.imp_left fun stowed => stowed.grow extended.host)
  | indexing signed hashes =>
      exact ⟨fits.1.extend extended, fun statement is => (fits.2 statement is).grow extended.host⟩
  | answered result =>
      obtain ⟨recorded, first, receipt, text, issued, encoded, answer, claim, receipted⟩ := fits
      exact ⟨recorded.extend extended, first, receipt, text, issued.extend extended, encoded, answer,
        claim.grow extended.host, receipted.grow extended.host⟩
  | rejected => exact fits

end

/-! ## The invariant -/

structure Ledger (hostKey : JsString) (content : JsString → Bytes) (claimHash : JsString)
    (state : ClaimHost platform) : Prop where
  calm : ∀ hash, Calm (state.host hash)
  entered : ∀ id job stage, state.uploads id = some (.working job stage) →
    stage.isRunning = true → job.claimHash = claimHash → id ∈ state.enteredFor claimHash
  unsettled : state.issuedFor claimHash = [] → ∀ id ∈ state.enteredFor claimHash,
    ∃ job stage, state.uploads id = some (.working job stage) ∧ job.claimHash = claimHash ∧
      stage.isRunning = true
  carries : ∀ id job stage, state.uploads id = some (.working job stage) →
    Carries hostKey job stage
  fits : ∀ id job stage, state.uploads id = some (.working job stage) →
    job.claimHash = claimHash → Fits hostKey content state job stage
  idle : (∀ id job stage, state.uploads id = some (.working job stage) →
      job.claimHash = claimHash → stage.isRunning = false) →
    Fresh state claimHash ∨ Recorded hostKey content state claimHash
  touched : ∀ hash, (state.host hash).Touched →
    isReceiptFor platform hostKey claimHash (content hash) = true →
    ∃ first receipt, Issued hostKey state claimHash first receipt ∧
      At platform content receipt hash

/-- Only the stages and the lock differ. -/
theorem extends_same (same : next.host = state.host ∧ next.issued = state.issued ∧
    next.receipts = state.receipts ∧ next.entered = state.entered) :
    Extends claimHash state next := by
  obtain ⟨host, issued, receipts, entered⟩ := same
  refine ⟨?_, ?_, ?_, ?_⟩
  · intro hash
    rw [host]
    exact .refl
  · simp only [ClaimHost.issuedFor, issued]
  · rw [receipts]
  · simp only [ClaimHost.enteredFor, entered, imp_self, implies_true]

section

variable {later : Stage} {task : Task platform}

/-- The touched objects where the step touches none that it did not. -/
theorem Ledger.touches (ledger : Ledger hostKey content claimHash state)
    (extended : Extends claimHash state next)
    (less : ∀ hash, (next.host hash).Touched → (state.host hash).Touched)
    (hash : JsString) (touched : (next.host hash).Touched)
    (is : isReceiptFor platform hostKey claimHash (content hash) = true) :
    ∃ first receipt, Issued hostKey next claimHash first receipt ∧
      At platform content receipt hash := by
  obtain ⟨first, receipt, issued, located⟩ := ledger.touched hash (less hash touched) is
  exact ⟨first, receipt, issued.extend extended, located⟩

/-- One call takes a step, after which it runs still or has left a recorded receipt. -/
theorem Ledger.turn (ledger : Ledger hostKey content claimHash state)
    (found : state.uploads id = some (.working job stage)) (running : stage.isRunning = true)
    (uploads : next.uploads = state.uploads.put id (.working job later))
    (entered : next.entered = state.entered)
    (fits : ∀ other otherJob otherStage, other ≠ id →
      state.uploads other = some (.working otherJob otherStage) → otherJob.claimHash = claimHash →
      Fits hostKey content next otherJob otherStage)
    (fresh : next.issuedFor claimHash = [] → state.issuedFor claimHash = [])
    (kept : Fresh state claimHash ∨ Recorded hostKey content state claimHash →
      job.claimHash ≠ claimHash →
      Fresh next claimHash ∨ Recorded hostKey content next claimHash)
    (calm : ∀ hash, Calm (next.host hash))
    (touched : ∀ hash, (next.host hash).Touched →
      isReceiptFor platform hostKey claimHash (content hash) = true →
      ∃ first receipt, Issued hostKey next claimHash first receipt ∧
        At platform content receipt hash)
    (carries : Carries hostKey job later)
    (own : job.claimHash = claimHash → Fits hostKey content next job later)
    (turned : job.claimHash = claimHash →
      later.isRunning = true ∨ Recorded hostKey content next claimHash) :
    Ledger hostKey content claimHash next := by
  have others : ∀ {other}, other ≠ id → next.uploads other = state.uploads other := by
    intro other different
    rw [uploads, Table.put_other different]
  have here : next.uploads id = some (.working job later) := by rw [uploads, Table.put_self]
  have same : next.enteredFor claimHash = state.enteredFor claimHash := by
    simp only [ClaimHost.enteredFor, entered]
  have cases' : ∀ {other otherJob otherStage},
      next.uploads other = some (.working otherJob otherStage) →
      other = id ∧ Task.working job later = .working otherJob otherStage ∨
        other ≠ id ∧ state.uploads other = some (.working otherJob otherStage) := by
    intro other otherJob otherStage there
    rw [uploads] at there
    exact Table.put_cases there
  refine ⟨calm, ?_, ?_, ?_, ?_, ?_, touched⟩
  · intro other otherJob otherStage there runs claim
    rw [same]
    obtain ⟨rfl, is⟩ | ⟨-, there⟩ := cases' there
    · cases is
      exact ledger.entered other job stage found running claim
    · exact ledger.entered other otherJob otherStage there runs claim
  · intro unissued other member
    rw [same] at member
    obtain ⟨otherJob, otherStage, there, claim, runs⟩ :=
      ledger.unsettled (fresh unissued) other member
    by_cases it : other = id
    · subst it
      rw [found, Option.some.injEq, Task.working.injEq] at there
      obtain ⟨rfl, rfl⟩ := there
      obtain still | ⟨first, receipt, address, issued, -⟩ := turned claim
      · exact ⟨job, later, here, claim, still⟩
      · exact (issued.not_fresh unissued).elim
    · exact ⟨otherJob, otherStage, (others it).trans there, claim, runs⟩
  · intro other otherJob otherStage there
    obtain ⟨rfl, is⟩ | ⟨-, there⟩ := cases' there
    · cases is
      exact carries
    · exact ledger.carries other otherJob otherStage there
  · intro other otherJob otherStage there claim
    obtain ⟨rfl, is⟩ | ⟨different, there⟩ := cases' there
    · cases is
      exact own claim
    · exact fits other otherJob otherStage different there claim
  · intro nobody
    by_cases claim : job.claimHash = claimHash
    · obtain still | recorded := turned claim
      · rw [nobody id job later here claim] at still
        cases still
      · exact .inr recorded
    · refine kept (ledger.idle ?_) claim
      intro other otherJob otherStage there claimed
      by_cases it : other = id
      · subst it
        rw [found, Option.some.injEq, Task.working.injEq] at there
        obtain ⟨rfl, rfl⟩ := there
        exact absurd claimed claim
      · exact nobody other otherJob otherStage ((others it).trans there) claimed

/-- A step of one call in which nothing is signed or indexed. -/
theorem Ledger.goOn (ledger : Ledger hostKey content claimHash state)
    (found : state.uploads id = some (.working job stage)) (running : stage.isRunning = true)
    (extended : Extends claimHash state next)
    (uploads : next.uploads = state.uploads.put id (.working job later))
    (entered : next.entered = state.entered) (calm : ∀ hash, Calm (next.host hash))
    (touched : ∀ hash, (next.host hash).Touched →
      isReceiptFor platform hostKey claimHash (content hash) = true →
      ∃ first receipt, Issued hostKey next claimHash first receipt ∧
        At platform content receipt hash)
    (carries : Carries hostKey job later)
    (own : job.claimHash = claimHash → Fits hostKey content next job later)
    (turned : job.claimHash = claimHash →
      later.isRunning = true ∨ Recorded hostKey content next claimHash) :
    Ledger hostKey content claimHash next := by
  refine ledger.turn found running uploads entered ?_ (fun unissued => extended.issued.symm.trans unissued)
    ?_ calm touched carries own turned
  · intro other otherJob otherStage _ there claim
    have fits := ledger.fits other otherJob otherStage there claim
    subst claim
    exact fits.extend extended
  · intro held _
    exact held.imp (fun fresh => fresh.extend extended) fun recorded => recorded.extend extended

/-- A step of an upload that is not past its check. -/
theorem Ledger.aside (ledger : Ledger hostKey content claimHash state)
    (before : ∀ job stage, state.uploads id ≠ some (.working job stage))
    (after : ∀ job stage, task = .working job stage → stage = .queued)
    (lock : PromiseLock JsString UploadId) :
    Ledger hostKey content claimHash { state.park id task with lock := lock } := by
  have there : ∀ other job stage, state.uploads.put id task other = some (.working job stage) →
      other ≠ id ∧ state.uploads other = some (.working job stage) ∨ stage = .queued := by
    intro other job stage found
    exact (Table.put_cases found).symm.imp_right fun is => after job stage is.2
  have same : ∀ claimHash, Extends claimHash state { state.park id task with lock := lock } :=
    fun _ => extends_same ⟨rfl, rfl, rfl, rfl⟩
  refine ⟨ledger.calm, ?_, ?_, ?_, ?_, ?_, ledger.touches (same claimHash) fun _ touched => touched⟩
  · intro other job stage found running claim
    obtain ⟨-, found⟩ | rfl := there other job stage found
    · exact ledger.entered other job stage found running claim
    · cases running
  · intro unissued other member
    obtain ⟨job, stage, found, claim, running⟩ := ledger.unsettled unissued other member
    have different : other ≠ id := by
      rintro rfl
      exact before job stage found
    exact ⟨job, stage, (Table.put_other different).trans found, claim, running⟩
  · intro other job stage found
    obtain ⟨-, found⟩ | rfl := there other job stage found
    · exact ledger.carries other job stage found
    · trivial
  · intro other job stage found claim
    obtain ⟨-, found⟩ | rfl := there other job stage found
    · exact (ledger.fits other job stage found claim).extend (same job.claimHash)
    · trivial
  · intro nobody
    refine (ledger.idle ?_).imp (fun fresh => fresh.extend (same claimHash))
      fun recorded => recorded.extend (same claimHash)
    intro other job stage found claim
    apply nobody other job stage _ claim
    have different : other ≠ id := by
      rintro rfl
      exact before job stage found
    exact (Table.put_other different).trans found

end

/-! ## Steps that change only the stage -/

variable (hostKey) in
/-- The steps of a run with one host key and no store failure or removal. A statement that the
host has signed verifies under its key, and no other writer puts in a receipt for the claim. -/
def Steady (claimHash : JsString) (state : ClaimHost platform) : Action platform hostKey → Prop
  | .resume _ (.key loaded) => loaded = true
  | .resume _ (.sign none) => False
  | .resume id (.sign (some signature)) =>
      (match state.uploads id with
        | some (.working job _) =>
            verifyStatement platform
              (createHostReceipt job.claimHash job.receivedAt hostKey signature) hostKey
        | _ => true) = true
  | .resume _ (.index written) => written = true
  | .reject _ | .fail _ _ => False
  | .write _ write =>
      (offered write).any (fun offer =>
        isReceiptFor platform hostKey claimHash offer.bytes) = false
  | _ => True

section

variable {event : Event} {later : Stage}

theorem Advances.still (advances : Advances hostKey content state job stage event later) :
    later.isRunning = true := by
  cases advances <;> rfl

theorem isReceipt_of_read {hash : JsString} {stored : Signed JsValue}
    (read : @readOwnReceipt platform hostKey (state.host.view content) job.claimHash hash =
      some stored) : IsReceipt platform hostKey job.claimHash stored := by
  obtain ⟨found, own⟩ := Option.filter_eq_some_iff.mp read
  unfold readStoredStatement at found
  split at found
  · obtain ⟨bytes, -, parsed⟩ := Option.bind_eq_some_iff.mp found
    exact ⟨parsed_of_parseSignedStatement parsed, own⟩
  · cases found

theorem Advances.carries (advances : Advances hostKey content state job stage event later)
    (carries : Carries hostKey job stage) : Carries hostKey job later := by
  cases advances with
  | loaded | named | unnamed | unmatched => trivial
  | unloaded | unsigned =>
      intro held is
      cases is
  | matched hash stored read =>
      intro held is
      cases is
      exact isReceipt_of_read read
  | certified receipt =>
      refine ⟨carries, ?_⟩
      intro statement member
      simp only [Job.statements, List.mem_append, List.mem_cons, Option.mem_toList,
        Option.map_eq_some_iff, Option.bind_eq_some_iff] at member
      obtain (is | ⟨held, is, same⟩) | ⟨encoded, -, found⟩ := member
      · exact .inl is
      · exact .inr (.inl ⟨held, is, same⟩)
      · exact .inr (.inr ⟨encoded, found⟩)
  | stored => exact carries
  | skipped receipt statement left hashes =>
      exact ⟨carries.1, fun other member => carries.2 other (List.mem_cons_of_mem _ member)⟩
  | kept => trivial

/-- The index leads to the receipt, which reads back as one. -/
theorem Recorded.read (digest : ∀ bytes, (platform.sha256 bytes).length = 32)
    (recorded : Recorded hostKey content state job.claimHash) :
    ∃ first receipt address stored, Issued hostKey state job.claimHash first receipt ∧
      findReceipt state.receipts job.claimHash = some address ∧
      @readOwnReceipt platform hostKey (state.host.view content) job.claimHash address =
        some stored ∧ statementBytes stored = statementBytes receipt := by
  obtain ⟨first, receipt, address, issued, located, named, object⟩ := recorded
  have validClaim : isValidBlobHash job.claimHash = true := isValidBlobHash_sha256Hex (digest _)
  have valid : isValidBlobHash address = true := by
    rw [← located.2]
    exact isValidBlobHash_sha256Hex (digest _)
  obtain ⟨stored, reread⟩ := exists_reread_of_written issued.is.parsed located.1
  have own : isOwnReceipt platform hostKey job.claimHash stored = true :=
    (isOwnReceipt_reread reread).trans issued.is.own
  refine ⟨first, receipt, address, stored, issued, ?_, ?_, reread.canonical.trans located.1.symm⟩
  · simp [findReceipt, validClaim, named, valid]
  · simp [readOwnReceipt, readStoredStatement, StoreView.has, valid, Host.view, object, reread.read,
      own]

theorem named_of_findReceipt {receipts : Table JsString JsString} {hash : JsString}
    (found : findReceipt receipts claimHash = some hash) : receipts claimHash = some hash := by
  unfold findReceipt at found
  split at found
  · exact (Option.filter_eq_some_iff.mp found).1
  · cases found

theorem storeStatement_isSome {statement : Signed JsValue} {bytes : Bytes} {docUrl : JsString}
    (written : statementBytes statement = some bytes) : storeStatement statement docUrl ≠ none := by
  simp [storeStatement, written]

theorem Advances.fits (digest : ∀ bytes, (platform.sha256 bytes).length = 32)
    (steady : Steady hostKey claimHash state (.resume id event))
    (advances : Advances hostKey content state job stage event later)
    (fits : Fits hostKey content state job stage) : Fits hostKey content state job later := by
  cases advances with
  | loaded => exact fits
  | unloaded => cases steady
  | named hash indexed =>
      have named := named_of_findReceipt indexed
      obtain fresh | recorded := fits
      · rw [fresh.2] at named
        cases named
      · exact ⟨recorded, named⟩
  | unnamed missing =>
      obtain fresh | recorded := fits
      · exact fresh
      · obtain ⟨first, receipt, address, stored, -, found, -⟩ := recorded.read digest
        rw [missing] at found
        cases found
  | matched hash stored read =>
      obtain ⟨recorded, named⟩ := fits
      have known := recorded.read digest
      obtain ⟨first, receipt, address, again, issued, indexed, reads, bytes⟩ := known
      have same : address = hash :=
        Option.some.inj ((named_of_findReceipt indexed).symm.trans named)
      rw [same, read, Option.some.injEq] at reads
      subst reads
      exact ⟨stored, false, first, receipt, rfl, issued, isReceipt_of_read read, bytes,
        fun _ => recorded⟩
  | unmatched hash read =>
      obtain ⟨recorded, named⟩ := fits
      obtain ⟨first, receipt, address, again, issued, indexed, reads, bytes⟩ := recorded.read digest
      have same : address = hash :=
        Option.some.inj ((named_of_findReceipt indexed).symm.trans named)
      rw [same, read] at reads
      cases reads
  | unsigned => cases steady
  | certified receipt =>
      obtain ⟨signed, holding⟩ := fits
      refine ⟨signed, holding, ?_⟩
      obtain ⟨isNew, first, issued, rfl, -⟩ := holding
      rintro statement (rfl | rfl)
      · exact .inl List.mem_cons_self
      · exact .inl (by simp [Job.statements])
  | stored receipt hash call left hashes gone =>
      obtain ⟨signed, holding, pending, each⟩ := fits
      obtain ⟨phase, ingest, running, -⟩ | ⟨answered, owed⟩ := pending
      · rw [gone] at running
        cases running
      · rw [if_pos answered]
        refine ⟨signed, holding, ?_⟩
        intro statement is
        obtain waits | stowed | located := each statement is
        · exact .inl waits
        · exact .inr (stowed.more hash)
        · exact .inr ⟨hash, by simp, located, owed⟩
  | skipped receipt statement left hashes call unwritten =>
      obtain ⟨signed, holding, each⟩ := fits
      refine ⟨signed, holding, ?_⟩
      obtain ⟨isNew, first, issued, -, -, own, -⟩ := holding
      intro other is
      obtain waits | stowed := each other is
      · obtain rfl | later := List.mem_cons.mp waits
        · obtain rfl | rfl := is
          · exact absurd unwritten (storeStatement_isSome job.written)
          · obtain ⟨bytes, written⟩ := own.written
            exact absurd unwritten (storeStatement_isSome written)
        · exact .inl later
      · exact .inr stowed
  | kept signed hashes =>
      obtain ⟨held, holding, each⟩ := fits
      have same : held = signed := by
        obtain ⟨isNew, first, issued, is, -⟩ := holding
        cases is
        rfl
      subst same
      exact ⟨holding, fun statement is => (each statement is).resolve_left (by simp)⟩

end

/-! ## Steps of the store -/

section

variable {host after : Host} {call : CallId} {offer : Offer}

/-- An ingest that begins at the address of its bytes. -/
structure Began (content : JsString → Bytes) (host after : Host) (hash : JsString) : Prop where
  grows : ∀ other, Grows (host other) (after other)
  calm : ∀ other, Calm (after other)
  others : ∀ other, other ≠ hash → after other = host other

theorem began_of_beginIngest (calm : ∀ hash, Calm (host hash))
    (began : beginIngest platform content host call offer = some after) :
    content (sha256Hex platform offer.bytes) = offer.bytes ∧
      Pending (after (sha256Hex platform offer.bytes)) call offer.ingest.docUrl ∧
      Began content host after (sha256Hex platform offer.bytes) := by
  simp only [beginIngest] at began
  split at began
  · rename_i named
    obtain ⟨store, stepped, rfl⟩ := Option.map_eq_some_iff.mp began
    obtain ⟨calmly, grows, pending⟩ := (calm _).begin stepped
    refine ⟨named, by rw [Function.update_self]; exact pending, ?_, ?_, ?_⟩
    · intro other
      by_cases it : other = sha256Hex platform offer.bytes
      · subst it
        rw [Function.update_self]
        exact grows
      · rw [Function.update_of_ne it]
        exact .refl
    · intro other
      by_cases it : other = sha256Hex platform offer.bytes
      · subst it
        rw [Function.update_self]
        exact calmly
      · rw [Function.update_of_ne it]
        exact calm other
    · exact fun other different => Function.update_of_ne different ..
  · cases began

end

section

variable {call : CallId} {offer : Offer} {host : Host} {receipt : Option Receipt}
  {statement : Signed JsValue} {left : List (Signed JsValue)} {hashes : List JsString}

theorem storeStatement_eq {docUrl : JsString}
    (offers : storeStatement statement docUrl = some offer) :
    statementBytes statement = some offer.bytes ∧ offer.ingest.docUrl = docUrl := by
  obtain ⟨bytes, written, rfl⟩ := Option.map_eq_some_iff.mp offers
  exact ⟨written, rfl⟩

/-- Of a receipt for the claim, a call stores only the one that was issued. -/
theorem Ledger.offered (ledger : Ledger hostKey content claimHash state)
    (found : state.uploads id = some (.working job (.storing receipt (statement :: left) hashes)))
    (offers : storeStatement statement job.docUrl = some offer)
    (is : isReceiptFor platform hostKey claimHash offer.bytes = true) :
    ∃ first issued, Issued hostKey state claimHash first issued ∧
      statementBytes issued = some offer.bytes := by
  obtain ⟨written, -⟩ := storeStatement_eq offers
  obtain ⟨receipts, each⟩ := ledger.carries id job _ found
  obtain rfl | ⟨held, rfl, rfl⟩ | ⟨encoded, named⟩ := each statement List.mem_cons_self
  · rw [isReceiptFor_written job.parsed written, job.not_own] at is
    cases is
  · have own := receipts held rfl
    rw [isReceiptFor_written own.parsed written] at is
    have claim := own.claim is
    subst claim
    obtain ⟨signed, holding, -⟩ := ledger.fits id job _ found rfl
    obtain ⟨isNew, first, issued, same, was, -, bytes, -⟩ := holding
    cases same
    exact ⟨first, issued, was, bytes.symm.trans written⟩
  · obtain ⟨parsed, notOwn⟩ := not_own_of_certificateFor named
    rw [isReceiptFor_written parsed written, notOwn] at is
    cases is

theorem Ledger.ingest (ledger : Ledger hostKey content claimHash state)
    (found : state.uploads id = some (.working job (.storing receipt (statement :: left) hashes)))
    (offers : storeStatement statement job.docUrl = some offer)
    (began : beginIngest platform content state.host call offer = some host) :
    Ledger hostKey content claimHash
      { state.park id (.working job
          (.ingesting receipt (sha256Hex platform offer.bytes) call left hashes)) with
        host := host } := by
  obtain ⟨named, pending, begins⟩ := began_of_beginIngest ledger.calm began
  obtain ⟨written, document⟩ := storeStatement_eq offers
  have extended : ∀ claimHash, Extends claimHash state
      { state.park id (.working job
          (.ingesting receipt (sha256Hex platform offer.bytes) call left hashes)) with
        host := host } :=
    fun _ => ⟨begins.grows, rfl, rfl, fun _ same => same⟩
  refine ledger.goOn found rfl (extended claimHash) rfl rfl begins.calm ?_ ?_ ?_ fun _ => .inl rfl
  · intro hash touched is
    by_cases it : hash = sha256Hex platform offer.bytes
    · subst it
      rw [named] at is
      obtain ⟨first, issued, was, bytes⟩ := ledger.offered found offers is
      refine ⟨first, issued, was.extend (extended claimHash), ?_, ?_⟩
      · rw [named]
        exact bytes
      · rw [named]
    · have before : (state.host hash).Touched := begins.others hash it ▸ touched
      obtain ⟨first, issued, was, located⟩ := ledger.touched hash before is
      exact ⟨first, issued, was.extend (extended claimHash), located⟩
  · obtain ⟨receipts, each⟩ := ledger.carries id job _ found
    exact ⟨receipts, fun other member => each other (List.mem_cons_of_mem _ member)⟩
  · intro claim
    obtain ⟨signed, holding, each⟩ := ledger.fits id job _ found claim
    refine ⟨signed, holding.extend (extended job.claimHash), document ▸ pending, ?_⟩
    intro other is
    obtain waits | stowed := each other is
    · obtain rfl | later := List.mem_cons.mp waits
      · right
        right
        refine ⟨?_, ?_⟩
        · rw [named]
          exact written
        · rw [named]
      · exact .inl later
    · exact .inr (.inl (stowed.grow begins.grows))

/-- The rest of the traffic puts in no receipt for the claim. -/
theorem Ledger.traffic (ledger : Ledger hostKey content claimHash state)
    (steady : Steady hostKey claimHash state action) {hostAction : HostAction platform [hostKey]}
    (is : action.host? = some hostAction)
    (stepped : hostStep content state.host hostAction = some host) :
    Ledger hostKey content claimHash { state with host := host } := by
  have moved : (∀ hash, Grows (state.host hash) (host hash)) ∧ (∀ hash, Calm (host hash)) ∧
      ∀ hash, (host hash).Touched → isReceiptFor platform hostKey claimHash (content hash) = true →
        (state.host hash).Touched := by
    cases action with
    | write call write =>
        cases is
        obtain ⟨offer, offers, began⟩ := Option.bind_eq_some_iff.mp stepped
        obtain ⟨named, -, begins⟩ := began_of_beginIngest ledger.calm began
        refine ⟨begins.grows, begins.calm, ?_⟩
        intro hash touched own
        by_cases it : hash = sha256Hex platform offer.bytes
        · subst it
          rw [named] at own
          simp only [Steady, offers, Option.any_some, own] at steady
          cases steady
        · exact begins.others hash it ▸ touched
    | store hash call =>
        cases is
        obtain ⟨store, resumed, rfl⟩ := Option.map_eq_some_iff.mp stepped
        obtain ⟨calm, grows, less⟩ := (ledger.calm hash).resume resumed
        refine ⟨?_, ?_, ?_⟩
        · intro other
          by_cases it : other = hash
          · subst it
            rw [Function.update_self]
            exact grows
          · rw [Function.update_of_ne it]
            exact .refl
        · intro other
          by_cases it : other = hash
          · subst it
            rw [Function.update_self]
            exact calm
          · rw [Function.update_of_ne it]
            exact ledger.calm other
        · intro other touched _
          by_cases it : other = hash
          · subst it
            rw [Function.update_self] at touched
            exact less touched
          · rwa [Function.update_of_ne it] at touched
    | fail => exact steady.elim
    | arrive | check | enter | resume | reject | clear => cases is
  obtain ⟨grows, calm, less⟩ := moved
  have extended : ∀ claimHash, Extends claimHash state { state with host := host } :=
    fun _ => ⟨grows, rfl, rfl, fun _ same => same⟩
  refine ⟨calm, ledger.entered, ledger.unsettled, ledger.carries, ?_, ?_, ?_⟩
  · intro other job stage found claim
    exact (ledger.fits other job stage found claim).extend (extended job.claimHash)
  · intro nobody
    exact (ledger.idle nobody).imp (fun fresh => fresh.extend (extended claimHash))
      fun recorded => recorded.extend (extended claimHash)
  · intro hash touched own
    obtain ⟨first, receipt, issued, located⟩ := ledger.touched hash (less hash touched own) own
    exact ⟨first, receipt, issued.extend (extended claimHash), located⟩

end

/-! ## Steps under the lock -/

section

variable {receipt : Option Receipt} {signed : Signed JsValue} {hashes : List JsString}

theorem answerOf_written {bytes : Bytes} (written : statementBytes signed = some bytes) :
    answerOf (some signed) hashes = .answered ⟨.verified (some (toBase64Url bytes)), hashes⟩ := by
  simp only [answerOf, encodeSignedStatement, written, Option.map_some]

/-- The upload is answered with the receipt that was issued. -/
theorem Holding.fits (holding : Holding hostKey content state job.claimHash receipt signed)
    (recorded : Recorded hostKey content state job.claimHash)
    (stowed : ∀ statement, statement = job.signed ∨ statement = signed →
      Stowed content state job.docUrl hashes statement) :
    Fits hostKey content state job (answerOf (some signed) hashes) := by
  obtain ⟨isNew, first, issued, -, was, own, bytes, -⟩ := holding
  obtain ⟨raw, written⟩ := own.written
  rw [answerOf_written written]
  have issuedRaw : statementBytes issued = some raw := bytes.symm.trans written
  refine ⟨recorded, first, issued, toBase64Url raw, was, ?_, rfl, stowed _ (.inl rfl), ?_⟩
  · rw [encodeSignedStatement, issuedRaw, Option.map_some]
  · obtain ⟨hash, listed, located, owed⟩ := stowed signed (.inr rfl)
    exact ⟨hash, listed, ⟨bytes ▸ located.1, located.2⟩, owed⟩

theorem Ledger.answer (ledger : Ledger hostKey content claimHash state)
    (old : ∀ signed, receipt ≠ some ⟨signed, true⟩)
    (found : state.uploads id = some (.working job (.storing receipt [] hashes)))
    (settled : settle state id job (answerOf (receipt.map Receipt.signed) hashes) = some next) :
    Ledger hostKey content claimHash next := by
  obtain ⟨lock, -, rfl⟩ := settle_eq settled
  have same : ∀ claimHash, Extends claimHash state
      { state.park id (.working job (answerOf (receipt.map Receipt.signed) hashes)) with
        lock := lock } := fun _ => extends_same ⟨rfl, rfl, rfl, rfl⟩
  have fits : job.claimHash = claimHash → Recorded hostKey content state job.claimHash ∧
      Fits hostKey content state job (answerOf (receipt.map Receipt.signed) hashes) := by
    intro claim
    obtain ⟨signed, holding, each⟩ := ledger.fits id job _ found claim
    have stowed := fun statement is => (each statement is).resolve_left (by simp)
    have holds := holding
    obtain ⟨isNew, first, issued, rfl, -, -, -, recorded⟩ := holding
    have known : Recorded hostKey content state job.claimHash := by
      apply recorded
      cases isNew with
      | false => rfl
      | true => exact absurd rfl (old signed)
    exact ⟨known, holds.fits known stowed⟩
  refine ledger.goOn found rfl (same claimHash) rfl rfl ledger.calm
    (ledger.touches (same claimHash) fun _ touched => touched) ?_ ?_ ?_
  · exact carries_of_idle (answerOf_isRunning _ _)
  · exact fun claim => (fits claim).2.extend (same job.claimHash)
  · intro claim
    right
    have recorded := (fits claim).1
    rw [claim] at recorded
    exact recorded.extend (same claimHash)

/-- A signature that is made finds no receipt of the claim, and its upload is the first. -/
theorem Ledger.sign (ledger : Ledger hostKey content claimHash state)
    (locked : Locked state.lock state.uploads) {signature : Bytes}
    (found : state.uploads id = some (.working job .signing))
    (valid : verifyStatement platform
      (createHostReceipt job.claimHash job.receivedAt hostKey signature) hostKey = true) :
    Ledger hostKey content claimHash (signReceipt hostKey state id job signature) := by
  have is := isReceipt_created valid
  by_cases claim : job.claimHash = claimHash
  · subst claim
    obtain ⟨unsigned, unindexed⟩ : Fresh state job.claimHash := ledger.fits id job _ found rfl
    have issues : (signReceipt hostKey state id job signature).issuedFor job.claimHash =
        [(id, createHostReceipt job.claimHash job.receivedAt hostKey signature)] := by
      simp only [ClaimHost.issuedFor, signReceipt, List.filter_append, List.map_append] at unsigned ⊢
      rw [unsigned]
      simp
    have only : ∀ other ∈ state.enteredFor job.claimHash, other = id := by
      intro other member
      obtain ⟨otherJob, stage, there, same, running⟩ := ledger.unsettled unsigned other member
      exact locked.alone found rfl there running same
    have first : (state.enteredFor job.claimHash).head? = some id := by
      have inside := ledger.entered id job _ found rfl rfl
      cases entered : state.enteredFor job.claimHash with
      | nil =>
          rw [entered] at inside
          cases inside
      | cons head rest =>
          rw [entered] at only
          rw [List.head?_cons, only head List.mem_cons_self]
    have issued : Issued hostKey (signReceipt hostKey state id job signature) job.claimHash id
        (createHostReceipt job.claimHash job.receivedAt hostKey signature) :=
      ⟨issues, first, is⟩
    refine ledger.turn found rfl rfl rfl ?_ ?_ ?_ ledger.calm ?_ ?_ ?_ fun _ => .inl rfl
    · intro other otherJob otherStage different there same
      have idle : otherStage.isRunning = false := by
        by_contra running
        rw [Bool.not_eq_false] at running
        exact different (locked.alone found rfl there running same)
      have fits := ledger.fits other otherJob otherStage there same
      cases otherStage with
      | queued => trivial
      | answered result =>
          obtain ⟨-, first, receipt, text, before, -⟩ := fits
          rw [same] at before
          exact (before.not_fresh unsigned).elim
      | rejected => exact fits
      | _ => cases idle
    · intro unissued
      rw [issues] at unissued
      cases unissued
    · exact fun _ different => absurd rfl different
    · intro hash touched own
      obtain ⟨before, receipt, was, -⟩ := ledger.touched hash touched own
      exact (was.not_fresh unsigned).elim
    · intro held same
      cases same
      exact is
    · intro _
      exact ⟨_, true, id, _, rfl, issued, is, rfl, fun old => by cases old⟩
  · have extended : Extends claimHash state (signReceipt hostKey state id job signature) := by
      refine ⟨fun _ => .refl, ?_, rfl, fun _ same => same⟩
      simp [ClaimHost.issuedFor, signReceipt, claim]
    refine ledger.goOn found rfl extended rfl rfl ledger.calm
      (ledger.touches extended fun _ touched => touched) ?_ (fun same => absurd same claim)
      fun _ => .inl rfl
    intro held same
    cases same
    exact is

/-- The new receipt is indexed once it is stored, and its upload answered. -/
theorem Ledger.index (ledger : Ledger hostKey content claimHash state)
    (locked : Locked state.lock state.uploads)
    (found : state.uploads id = some (.working job (.indexing signed hashes)))
    (indexed : indexReceipt state id job signed hashes true = some next) :
    Ledger hostKey content claimHash next := by
  by_cases claim : job.claimHash = claimHash
  · subst claim
    obtain ⟨holding, each⟩ := ledger.fits id job _ found rfl
    have holds := holding
    obtain ⟨isNew, first, issued, -, was, own, bytes, -⟩ := holding
    obtain ⟨address, listed, located, owed⟩ := each signed (.inr rfl)
    have written : statementAddress platform signed = some address := by
      rw [statementAddress, located.1, Option.map_some, located.2]
    unfold indexReceipt at indexed
    simp only [written, listed, true_and, if_true] at indexed
    obtain ⟨lock, -, rfl⟩ := settle_eq indexed
    have stored := (ledger.calm address).1.owed job.docUrl owed
    have issued' : ∀ {first receipt}, Issued hostKey state job.claimHash first receipt →
        Issued hostKey
          { ClaimHost.park { state with receipts := state.receipts.put job.claimHash address } id
              (.working job (answerOf (some signed) hashes)) with lock := lock }
          job.claimHash first receipt :=
      fun issued => ⟨issued.alone, issued.first, issued.is⟩
    have recorded : Recorded hostKey content
        { ClaimHost.park { state with receipts := state.receipts.put job.claimHash address } id
            (.working job (answerOf (some signed) hashes)) with lock := lock } job.claimHash :=
      ⟨first, issued, address, issued' was, ⟨bytes ▸ located.1, located.2⟩, Table.put_self, stored.1⟩
    have holding' : Holding hostKey content
        { ClaimHost.park { state with receipts := state.receipts.put job.claimHash address } id
            (.working job (answerOf (some signed) hashes)) with lock := lock } job.claimHash
        (some ⟨signed, true⟩) signed :=
      ⟨true, first, issued, rfl, issued' was, own, bytes, fun old => by cases old⟩
    refine ledger.turn found rfl rfl rfl ?_ (fun unissued => unissued) ?_ ledger.calm ?_ ?_ ?_
      fun _ => .inr recorded
    · intro other otherJob otherStage different there same
      have idle : otherStage.isRunning = false := by
        by_contra running
        rw [Bool.not_eq_false] at running
        exact different (locked.alone found rfl there running same)
      have fits := ledger.fits other otherJob otherStage there same
      cases otherStage with
      | queued => trivial
      | answered result =>
          obtain ⟨-, before, receipt, text, was, rest⟩ := fits
          refine ⟨same ▸ recorded, before, receipt, text, ?_, rest⟩
          rw [same] at was ⊢
          exact issued' was
      | rejected => exact fits
      | _ => cases idle
    · exact fun _ different => absurd rfl different
    · intro hash touched own
      obtain ⟨before, receipt, was, located⟩ := ledger.touched hash touched own
      exact ⟨before, receipt, issued' was, located⟩
    · exact carries_of_idle (answerOf_isRunning _ _)
    · exact fun _ => holding'.fits recorded each
  · obtain ⟨receipts, lock, last, -, turned, same, rfl⟩ := indexReceipt_eq indexed
    have extended : Extends claimHash state
        { state.park id (.working job last) with receipts := receipts, lock := lock } :=
      ⟨fun _ => .refl, rfl, same claimHash (Ne.symm claim), fun _ first => first⟩
    refine ledger.goOn found rfl extended rfl rfl ledger.calm
      (ledger.touches extended fun _ touched => touched) (carries_of_idle turned)
      (fun is => absurd is claim)
      fun is => absurd is claim

theorem Ledger.enter (ledger : Ledger hostKey content claimHash state)
    {lock : PromiseLock JsString UploadId} (queued : state.uploads id = some (.working job .queued))
    (locked : Locked lock (state.uploads.put id (.working job .loadingKey))) :
    Ledger hostKey content claimHash
      { state.park id (.working job .loadingKey) with
        lock := lock
        entered := state.entered ++ [(job.claimHash, id)] } := by
  have members : ClaimHost.enteredFor
      { state.park id (.working job .loadingKey) with
        lock := lock
        entered := state.entered ++ [(job.claimHash, id)] } claimHash =
      state.enteredFor claimHash ++ if job.claimHash = claimHash then [id] else [] := by
    simp only [ClaimHost.enteredFor, List.filter_append, List.map_append, List.filter_cons,
      List.filter_nil, decide_eq_true_eq]
    split <;> rfl
  have extended : Extends claimHash state
      { state.park id (.working job .loadingKey) with
        lock := lock
        entered := state.entered ++ [(job.claimHash, id)] } := by
    refine ⟨fun _ => .refl, rfl, rfl, ?_⟩
    intro first head
    rw [members, List.head?_append, head]
    rfl
  have idle : ∀ {other otherJob otherStage}, state.uploads other = some (.working otherJob otherStage) →
      otherStage.isRunning = true → other ≠ id := by
    rintro other otherJob otherStage there running rfl
    rw [queued, Option.some.injEq, Task.working.injEq] at there
    obtain ⟨-, rfl⟩ := there
    cases running
  have nobody : job.claimHash = claimHash → ∀ other otherJob otherStage,
      state.uploads other = some (.working otherJob otherStage) →
      otherJob.claimHash = claimHash → otherStage.isRunning = false := by
    intro claim other otherJob otherStage there same
    by_contra running
    rw [Bool.not_eq_false] at running
    have different := idle there running
    exact different (locked.alone Table.put_self rfl ((Table.put_other different).trans there)
      running (same.trans claim.symm))
  refine ⟨ledger.calm, ?_, ?_, ?_, ?_, ?_, ledger.touches extended fun _ touched => touched⟩
  · intro other otherJob otherStage there running claim
    rw [members, List.mem_append]
    obtain ⟨rfl, is⟩ | ⟨-, there⟩ := Table.put_cases there
    · cases is
      exact .inr (by simp [claim])
    · exact .inl (ledger.entered other otherJob otherStage there running claim)
  · intro unissued other member
    rw [members, List.mem_append] at member
    obtain before | new := member
    · obtain ⟨otherJob, stage, there, claim, running⟩ := ledger.unsettled unissued other before
      exact ⟨otherJob, stage, (Table.put_other (idle there running)).trans there, claim, running⟩
    · split at new
      · rename_i claim
        rw [List.mem_singleton.mp new]
        exact ⟨job, .loadingKey, Table.put_self, claim, rfl⟩
      · cases new
  · intro other otherJob otherStage there
    obtain ⟨-, is⟩ | ⟨-, there⟩ := Table.put_cases there
    · cases is
      trivial
    · exact ledger.carries other otherJob otherStage there
  · intro other otherJob otherStage there claim
    obtain ⟨-, is⟩ | ⟨-, there⟩ := Table.put_cases there
    · cases is
      subst claim
      exact (ledger.idle (nobody rfl)).imp (fun fresh => fresh.extend extended)
        fun recorded => recorded.extend extended
    · have fits := ledger.fits other otherJob otherStage there claim
      subst claim
      exact fits.extend extended
  · intro unissued
    have free : Fresh state claimHash ∨ Recorded hostKey content state claimHash := by
      apply ledger.idle
      intro other otherJob otherStage there same
      by_contra running
      rw [Bool.not_eq_false] at running
      have later := unissued other otherJob otherStage
        ((Table.put_other (idle there running)).trans there) same
      rw [running] at later
      cases later
    exact free.imp (fun fresh => fresh.extend extended) fun recorded => recorded.extend extended

/-! ## Whole runs -/

/-- Both at once: the lock keeps the uploads of a claim apart. -/
structure Sound (hostKey : JsString) (content : JsString → Bytes) (claimHash : JsString)
    (state : ClaimHost platform) : Prop where
  locked : Locked state.lock state.uploads
  ledger : Ledger hostKey content claimHash state

theorem Sound.step (digest : ∀ bytes, (platform.sha256 bytes).length = 32)
    (sound : Sound hostKey content claimHash state) (steady : Steady hostKey claimHash state action)
    (taken : claimStep content state action = some next) :
    Sound hostKey content claimHash next := by
  have moves := moves_of_step taken
  have locked := sound.locked.step moves
  refine ⟨locked, ?_⟩
  have ledger := sound.ledger
  cases moves with
  | arrive id upload new =>
      exact ledger.aside (by simp [new]) (fun _ _ is => by cases is) state.lock
  | refuse id upload verification checking =>
      exact ledger.aside (by simp [checking]) (fun _ _ is => by cases is) state.lock
  | join id upload job lock checking joined =>
      apply ledger.aside (by simp [checking])
      intro same stage is
      cases is
      rfl
  | enter id job lock queued entered => exact ledger.enter queued locked
  | advance id job stage event later found advances =>
      have same : ∀ claimHash, Extends claimHash state (state.park id (.working job later)) :=
        fun _ => extends_same ⟨rfl, rfl, rfl, rfl⟩
      refine ledger.goOn found advances.isRunning (same claimHash) rfl rfl ledger.calm
        (ledger.touches (same claimHash) fun _ touched => touched)
        (advances.carries (ledger.carries id job stage found)) ?_ fun _ => .inl advances.still
      intro claim
      exact (advances.fits digest steady (ledger.fits id job stage found claim)).extend
        (same job.claimHash)
  | sign id job signature found =>
      apply ledger.sign sound.locked found
      simpa only [Steady, found] using steady
  | ingest id job receipt statement left hashes call offer host found offers fresh began =>
      exact ledger.ingest found offers began
  | answer id job receipt hashes old turned found settled => exact ledger.answer old found settled
  | index id job receipt hashes written turned found indexed =>
      cases (steady : written = true)
      exact ledger.index sound.locked found indexed
  | reject => exact steady.elim
  | clear id lock cleared =>
      have same : ∀ claimHash, Extends claimHash state { state with lock := lock } :=
        fun _ => extends_same ⟨rfl, rfl, rfl, rfl⟩
      refine ⟨ledger.calm, ledger.entered, ledger.unsettled, ledger.carries, ?_, ?_,
        ledger.touches (same claimHash) fun _ touched => touched⟩
      · intro other job stage found claim
        exact (ledger.fits other job stage found claim).extend (same job.claimHash)
      · intro nobody
        exact (ledger.idle nobody).imp (fun fresh => fresh.extend (same claimHash))
          fun recorded => recorded.extend (same claimHash)
  | traffic action hostAction host is stepped => exact ledger.traffic steady is stepped

/-- What the host has answered and stored for a claim. -/
structure OneReceipt (hostKey : JsString) (content : JsString → Bytes) (claimHash : JsString)
    (state : ClaimHost platform) : Prop where
  answers : ∀ id job result, state.uploads id = some (.working job (.answered result)) →
    job.claimHash = claimHash →
    ∃ first receipt text address,
      (state.enteredFor claimHash).head? = some first ∧
      state.issuedFor claimHash = [(first, receipt)] ∧
      encodeSignedStatement receipt = some text ∧ result.claim = .verified (some text) ∧
      statementAddress platform receipt = some address ∧
      (state.host address).object = true ∧
      isReceiptFor platform hostKey claimHash (content address) = true ∧
      job.docUrl ∈ Blobs.readRefs (state.host claimHash) ∧
      job.docUrl ∈ Blobs.readRefs (state.host address)
  answered : ∀ id job, state.uploads id = some (.working job .rejected) →
    job.claimHash ≠ claimHash
  single : ∀ hash other, (state.host hash).object = true → (state.host other).object = true →
    isReceiptFor platform hostKey claimHash (content hash) = true →
    isReceiptFor platform hostKey claimHash (content other) = true → hash = other

theorem Ledger.oneReceipt (ledger : Ledger hostKey content claimHash state) :
    OneReceipt hostKey content claimHash state := by
  refine ⟨?_, ?_, ?_⟩
  · intro id job result found claim
    have fits := ledger.fits id job _ found claim
    subst claim
    obtain ⟨-, first, receipt, text, issued, encoded, answer, ownClaim, ownReceipt⟩ := fits
    obtain ⟨hash, -, atClaim, owedClaim⟩ := ownClaim
    obtain ⟨address, -, located, owed⟩ := ownReceipt
    rw [Job.at_claimHash atClaim] at owedClaim
    obtain ⟨object, -, refs⟩ := (ledger.calm address).1.owed job.docUrl owed
    refine ⟨first, receipt, text, address, issued.first, issued.alone, encoded, answer, ?_, object, ?_,
      ((ledger.calm job.claimHash).1.owed job.docUrl owedClaim).2.2, refs⟩
    · rw [statementAddress, located.1, Option.map_some, located.2]
    · rw [isReceiptFor_written issued.is.parsed located.1]
      exact issued.is.own
  · intro id job found claim
    exact ledger.fits id job _ found claim
  · intro hash other here there is also
    obtain ⟨first, receipt, issued, located⟩ := ledger.touched hash (.inl here) is
    obtain ⟨second, again, same, atOther⟩ := ledger.touched other (.inl there) also
    rw [issued.unique same] at atOther
    exact located.unique atOther

theorem sound_opened {files : JsString → Bool × Option BlobMeta × Option (List JsString)}
    {receipts : Table JsString JsString} (unindexed : receipts claimHash = none)
    (unsigned : ∀ hash, (files hash).1 = true →
      isReceiptFor platform hostKey claimHash (content hash) = false) :
    @Sound platform hostKey content claimHash (.opened files receipts) where
  locked := locked_idle
  ledger := by
    refine ⟨fun _ => Blobs.calm_opened _ _ _, ?_, ?_, ?_, ?_, fun _ => .inl ⟨rfl, unindexed⟩, ?_⟩
    · intro id job stage found
      cases found
    · intro _ id member
      cases member
    · intro id job stage found
      cases found
    · intro id job stage found
      cases found
    · intro hash touched own
      obtain object | ⟨call, phase, found⟩ := touched
      · rw [unsigned hash object] at own
        cases own
      · cases found

/-- However the uploads of a claim that is new to the host interleave, each is answered with the
receipt that the first under the lock signed, no other is signed or stored, and each document
has a ref on the claim and on the receipt. -/
theorem claim_gets_one_receipt (digest : ∀ bytes, (platform.sha256 bytes).length = 32)
    (hostKey : JsString) (content : JsString → Bytes) (claimHash : JsString)
    (files : JsString → Bool × Option BlobMeta × Option (List JsString))
    (receipts : Table JsString JsString) (unindexed : receipts claimHash = none)
    (unsigned : ∀ hash, (files hash).1 = true →
      isReceiptFor platform hostKey claimHash (content hash) = false)
    (state : ClaimHost platform)
    (reached : Reaches (claimStep content) (Steady hostKey claimHash) (.opened files receipts)
      state) :
    OneReceipt hostKey content claimHash state := by
  have sound : Sound hostKey content claimHash state :=
    reached.invariant (Sound hostKey content claimHash) (sound_opened unindexed unsigned)
      fun _ sound steady taken => sound.step digest steady taken
  exact sound.ledger.oneReceipt

end

/-! ## Two documents -/

instance (state : ClaimHost platform) :
    ∀ action : Action platform hostKey, Decidable (Steady hostKey claimHash state action)
  | .resume _ (.key loaded) => inferInstanceAs (Decidable (loaded = true))
  | .resume _ (.sign none) => inferInstanceAs (Decidable False)
  | .resume _ (.sign (some _)) => inferInstanceAs (Decidable (_ = true))
  | .resume _ (.index written) => inferInstanceAs (Decidable (written = true))
  | .reject _ | .fail _ _ => inferInstanceAs (Decidable False)
  | .write _ _ => inferInstanceAs (Decidable (_ = false))
  | .arrive _ _ | .check _ | .enter _ | .clear _ | .store _ _ | .resume _ .go
  | .resume _ (.ingest _) => inferInstanceAs (Decidable True)

def sampleHostKey : JsString := sampleKey 0x42

def sampleSignature : Bytes := List.replicate 64 0

def claimOnce : JsString := sha256Hex paddedPlatform (uploadedClaim "one")

def receiptOnce : Bytes :=
  (statementBytes (createHostReceipt claimOnce (js "t2") sampleHostKey sampleSignature)).getD []

def claimAndReceipt (hash : JsString) : Bytes :=
  if hash = claimOnce then uploadedClaim "one" else receiptOnce

def sampleUpload (docUrl receivedAt : String) : Upload :=
  ⟨some (toBase64Url (uploadedClaim "one")), heldBlob, js docUrl, none, js receivedAt⟩

def ingested (id : UploadId) (call : CallId) (bytes : Bytes) :
    List (Action paddedPlatform sampleHostKey) :=
  .resume id (.ingest call) ::
    List.replicate 5 (.store (sha256Hex paddedPlatform bytes) call) ++ [.resume id .go]

/-- The second upload waits for the first, and finds its receipt. -/
def uploadedByTwo : List (Action paddedPlatform sampleHostKey) :=
  [.arrive 0 (sampleUpload "one" "t2"), .arrive 1 (sampleUpload "two" "t1"), .check 0, .check 1,
    .enter 0, .resume 0 (.key true), .resume 0 .go, .resume 0 (.sign (some sampleSignature)),
    .resume 0 .go] ++
    ingested 0 0 (uploadedClaim "one") ++ ingested 0 0 receiptOnce ++
    [.resume 0 .go, .resume 0 (.index true), .clear 0, .enter 1, .resume 1 (.key true),
      .resume 1 .go, .resume 1 .go, .resume 1 .go] ++
    ingested 1 1 (uploadedClaim "one") ++ ingested 1 1 receiptOnce ++ [.resume 1 .go, .clear 1]

def isAnswered (state : ClaimHost paddedPlatform) (id : UploadId) : Bool :=
  match state.uploads id with
  | some (.working job (.answered _)) => job.claimHash = claimOnce
  | _ => false

theorem second_upload_gets_the_first_receipt :
    ∃ state, OneReceipt sampleHostKey claimAndReceipt claimOnce state ∧
      isAnswered state 0 = true ∧ isAnswered state 1 = true := by
  have digest : ∀ bytes, (paddedPlatform.sha256 bytes).length = 32 := by
    intro bytes
    simp [paddedPlatform, lengthPlatform]
  have ran : (run (guarded (Steady sampleHostKey claimOnce) (claimStep claimAndReceipt))
      (.opened (fun _ => (false, none, none)) .empty) uploadedByTwo).any
      (fun state => isAnswered state 0 && isAnswered state 1) = true := by decide +kernel
  obtain ⟨state, ran, answered⟩ := (Option.any_eq_true _ _).mp ran
  rw [Bool.and_eq_true] at answered
  have one := claim_gets_one_receipt digest sampleHostKey claimAndReceipt claimOnce
    (fun _ => (false, none, none)) .empty rfl (by simp) state (Reaches.of_guarded_run ran)
  exact ⟨state, one, answered⟩

/-- Both uploads have come to the lock of the claim, and the first has read the host's key. -/
def bothAtTheLock : List (Action paddedPlatform sampleHostKey) :=
  [.arrive 0 (sampleUpload "one" "t2"), .arrive 1 (sampleUpload "two" "t1"), .check 0, .check 1,
    .enter 0, .resume 0 (.key true)]

def isRunning (state : ClaimHost paddedPlatform) (id : UploadId) : Bool :=
  match state.uploads id with
  | some (.working job stage) => job.claimHash = claimOnce && stage.isRunning
  | _ => false

theorem second_upload_waits :
    ∃ state, OneRunning state.uploads ∧ isRunning state 0 = true ∧ isRunning state 1 = false := by
  have ran : (run (claimStep claimAndReceipt) (.opened (fun _ => (false, none, none)) .empty)
      bothAtTheLock).any (fun state => isRunning state 0 && !isRunning state 1) = true := by
    decide +kernel
  obtain ⟨state, ran, shows⟩ := (Option.any_eq_true _ _).mp ran
  rw [Bool.and_eq_true, Bool.not_eq_true'] at shows
  exact ⟨state, one_upload_under_the_lock (.of_run ran (meetsAlong_anyAction _ _)), shows⟩

end Tapes.Uploads
