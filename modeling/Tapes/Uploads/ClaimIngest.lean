import Tapes.Machine.PromiseLock
import Tapes.Uploads.BlobHost

namespace Tapes.Uploads

open Tapes.Js Tapes.Provenance Tapes.Machine
open Tapes.Blobs (BlobMeta CallId Store)

/-! The claims that come with uploads: each is checked, countersigned with a host receipt and
stored, under a lock of its own. One step for each await. -/

abbrev UploadId := Nat

/-! ## Bytes of a verified statement -/

def statementAddress (platform : Platform) (signed : Signed JsValue) : Option JsString :=
  (statementBytes signed).map (sha256Hex platform)

theorem wellFormed_of_fromBase64Url {text : JsString} {bytes : Bytes}
    (decoded : fromBase64Url text = some bytes) : wellFormed text = true := by
  have ascii : Ascii base64UrlAlphabet := by decide
  have units : Ascii text := fun unit inside =>
    ascii unit (inAlphabet_of_fromBase64Url decoded unit inside)
  exact units.wellFormed

theorem isData_of_verified {platform : Platform} {signed : Signed JsValue} {key : JsString}
    (parsed : Parsed signed.payload) (valid : verifyStatement platform signed key = true) :
    IsData signed.payload ∧ wellFormed signed.signature = true := by
  unfold verifyStatement at valid
  split at valid
  · rename_i signature text _ decoded written
    exact ⟨isData_of_canonicalJson parsed written, wellFormed_of_fromBase64Url decoded⟩
  · cases valid

theorem isSome_statementBytes {platform : Platform} {signed : Signed JsValue} {key : JsString}
    (parsed : Parsed signed.payload) (valid : verifyStatement platform signed key = true) :
    (statementBytes signed).isSome = true := by
  obtain ⟨payload, signature⟩ := isData_of_verified parsed valid
  rw [statementBytes_eq (isData_toValue payload signature)]
  rfl

/-! ## Uploads -/

/-- What an upload brings to the check of its claim. `receivedAt` is the host's clock, read
first. The recorder's file ingest sends no certificate. -/
structure Upload where
  claim : Option JsString
  received : BlobDescriptor
  docUrl : JsString
  certificate : Option JsString
  receivedAt : JsString

inductive ClaimVerification where
  | unsigned
  | unverified (problem : StatementProblem)
  | verified (receipt : Option JsString)
deriving DecidableEq

structure ClaimIngestResult where
  claim : ClaimVerification
  statements : List JsString
deriving DecidableEq

/-- An upload whose claim holds for the bytes received. -/
structure Job (platform : Platform) where
  docUrl : JsString
  certificate : Option JsString
  receivedAt : JsString
  signed : Signed JsValue
  claim : RecordingClaim
  bytes : Bytes
  parsed : Parsed signed.payload
  shape : recordingClaim? signed.payload = some claim
  written : statementBytes signed = some bytes

variable {platform : Platform}

def Job.claimHash (job : Job platform) : JsString := sha256Hex platform job.bytes

theorem parsed_of_decoded {encoded : JsString} {signed : Signed JsValue}
    (read : decodeSignedStatement encoded = some signed) : Parsed signed.payload := by
  obtain ⟨raw, -, parsed⟩ := Option.bind_eq_some_iff.mp read
  exact parsed_of_parseSignedStatement parsed

variable (platform) in
/-- The checks before the lock. -/
def checkUpload (upload : Upload) : Except ClaimVerification (Job platform) :=
  match upload.claim with
  | none => .error .unsigned
  | some encoded =>
      match read : decodeSignedStatement encoded with
      | none => .error (.unverified .malformed)
      | some signed =>
          match passes : checkRecordingClaim platform signed upload.received with
          | .error problem => .error (.unverified problem)
          | .ok claim =>
              let checked := checkRecordingClaim_eq_ok_iff.mp passes
              let parsed := parsed_of_decoded read
              let isWritten := isSome_statementBytes parsed checked.2.2.2.2
              .ok ⟨upload.docUrl, upload.certificate, upload.receivedAt, signed, claim.payload,
                (statementBytes signed).get isWritten, parsed, checked.1, (Option.some_get _).symm⟩

/-! ## Receipts -/

structure Receipt where
  signed : Signed JsValue
  isNew : Bool

/-- The statement that is signed, with the signature that came of it. -/
def createHostReceipt (claimHash receivedAt hostKey : JsString) (signature : Bytes) :
    Signed JsValue :=
  ⟨.object [(js "type", .string hostReceiptType), (js "claim", .string claimHash),
    (js "receivedAt", .string receivedAt), (js "hostKey", .string hostKey)],
    toBase64Url signature⟩

def isOwnReceipt (platform : Platform) (hostKey claimHash : JsString) (stored : Signed JsValue) :
    Bool :=
  (statementType stored).string? = some hostReceiptType &&
    (stored.payload.get (js "claim")).string? = some claimHash &&
    verifyStatement platform stored hostKey

/-- Whether the bytes are a receipt of this host for the claim. -/
def isReceiptFor (platform : Platform) (hostKey claimHash : JsString) (bytes : Bytes) : Bool :=
  (parseSignedStatement bytes).any (isOwnReceipt platform hostKey claimHash)

/-! ## The host -/

/-- A call of `receiptAndStore` between two of its steps, `queued` before it and `answered` or
`rejected` after it. -/
inductive Stage where
  | queued
  | loadingKey
  | finding
  | reading (hash : JsString)
  | signing
  | certifying (receipt : Option Receipt)
  | storing (receipt : Option Receipt) (left : List (Signed JsValue)) (hashes : List JsString)
  | ingesting (receipt : Option Receipt) (hash : JsString) (call : CallId)
      (left : List (Signed JsValue)) (hashes : List JsString)
  | indexing (receipt : Signed JsValue) (hashes : List JsString)
  | answered (result : ClaimIngestResult)
  | rejected

variable (platform) in
inductive Task where
  | checking (upload : Upload)
  | unverified (verification : ClaimVerification)
  | working (job : Job platform) (stage : Stage)

variable (platform) in
/-- `receipts` is the index of receipts by claim. `entered` and `issued` say which uploads have
taken the lock of their claim and which receipts were signed under it, in that order. -/
structure ClaimHost where
  host : Host
  receipts : Table JsString JsString
  lock : PromiseLock JsString UploadId
  uploads : Table UploadId (Task platform)
  entered : List (JsString × UploadId)
  issued : List (JsString × UploadId × Signed JsValue)

/-- A process that starts with these files. -/
def ClaimHost.opened (files : JsString → Bool × Option BlobMeta × Option (List JsString))
    (receipts : Table JsString JsString) : ClaimHost platform :=
  ⟨fun hash => .opened (files hash).1 (files hash).2.1 (files hash).2.2, receipts, .idle, .empty,
    [], []⟩

def ClaimHost.park (state : ClaimHost platform) (id : UploadId) (task : Task platform) :
    ClaimHost platform :=
  { state with uploads := state.uploads.put id task }

variable (hostKey : JsString) (content : JsString → Bytes)

def findReceipt (receipts : Table JsString JsString) (claimHash : JsString) : Option JsString :=
  if isValidBlobHash claimHash then (receipts claimHash).filter isValidBlobHash else none

/-- The statement the index names, where it is a receipt for the claim by the host's key. -/
def readOwnReceipt (view : StoreView) (claimHash hash : JsString) : Option (Signed JsValue) :=
  (readStoredStatement view hash).filter (isOwnReceipt platform hostKey claimHash)

def Job.statements (job : Job platform) (receipt : Option Receipt) : List (Signed JsValue) :=
  job.signed :: (receipt.map Receipt.signed).toList ++
    (job.certificate.bind (certificateFor platform job.claim)).toList

/-- What the upload is answered, or a rejection where the receipt cannot be written. -/
def answerOf (receipt : Option (Signed JsValue)) (hashes : List JsString) : Stage :=
  match receipt with
  | none => .answered ⟨.verified none, hashes⟩
  | some signed =>
      match encodeSignedStatement signed with
      | some text => .answered ⟨.verified (some text), hashes⟩
      | none => .rejected

/-- What a step finds where the code awaits something outside the host: whether the key could be
loaded, the signature, the name of a new ingest, and whether the index was written. -/
inductive Event where
  | go
  | key (loaded : Bool)
  | sign (signature : Option Bytes)
  | ingest (call : CallId)
  | index (written : Bool)

/-- The steps that change nothing else. -/
def advance (state : ClaimHost platform) (job : Job platform) : Stage → Event → Option Stage
  | .loadingKey, .key loaded => some (if loaded then .finding else .certifying none)
  | .finding, .go =>
      some ((findReceipt state.receipts job.claimHash).elim .signing .reading)
  | .reading hash, .go =>
      let stored := @readOwnReceipt platform hostKey (state.host.view content)
        job.claimHash hash
      some (stored.elim .signing fun signed => .certifying (some ⟨signed, false⟩))
  | .signing, .sign none => some (.certifying none)
  | .certifying receipt, .go => some (.storing receipt (job.statements receipt) [])
  | .ingesting receipt hash call left hashes, .go =>
      let store := state.host hash
      if (store.calls call).isNone then
        let stored := call ∈ store.results.map Prod.fst
        some (.storing receipt left (if stored then hashes ++ [hash] else hashes))
      else none
  | _, _ => none

variable {hostKey content}

section

variable (state : ClaimHost platform) (id : UploadId) (job : Job platform)

/-- The call is over and its promise settles. -/
def settle (stage : Stage) : Option (ClaimHost platform) :=
  (state.lock.settle id).map fun lock => { state.park id (.working job stage) with lock := lock }

variable (hostKey) in
def signReceipt (signature : Bytes) : ClaimHost platform :=
  let signed := createHostReceipt job.claimHash job.receivedAt hostKey signature
  { state.park id (.working job (.certifying (some ⟨signed, true⟩))) with
    issued := state.issued ++ [(job.claimHash, id, signed)] }

variable (content) in
/-- `storeStatements` puts in the next statement, or skips one that cannot be written. -/
def ingestNext (receipt : Option Receipt) (statement : Signed JsValue)
    (left : List (Signed JsValue)) (hashes : List JsString) (call : CallId) :
    Option (ClaimHost platform) :=
  match storeStatement statement job.docUrl with
  | none => some (state.park id (.working job (.storing receipt left hashes)))
  | some offer =>
      let hash := sha256Hex platform offer.bytes
      if call ∈ (state.host hash).results.map Prod.fst then none
      else
        (beginIngest platform content state.host call offer).map fun host =>
          { state.park id (.working job (.ingesting receipt hash call left hashes)) with
            host := host }

/-- A new receipt is indexed once everything is stored. -/
def finish (receipt : Option Receipt) (hashes : List JsString) : Option (ClaimHost platform) :=
  match receipt with
  | some ⟨signed, true⟩ => some (state.park id (.working job (.indexing signed hashes)))
  | _ => settle state id job (answerOf (receipt.map Receipt.signed) hashes)

/-- A receipt that is not in the store is not indexed, and one that cannot be is still answered. -/
def indexReceipt (receipt : Signed JsValue) (hashes : List JsString) (written : Bool) :
    Option (ClaimHost platform) :=
  match statementAddress platform receipt with
  | none => settle state id job .rejected
  | some receiptHash =>
      let receipts :=
        if receiptHash ∈ hashes ∧ written then state.receipts.put job.claimHash receiptHash
        else state.receipts
      settle { state with receipts := receipts } id job (answerOf (some receipt) hashes)

variable (hostKey content) in
def resume (stage : Stage) (event : Event) : Option (ClaimHost platform) :=
  match stage, event with
  | .signing, .sign (some signature) => some (signReceipt hostKey state id job signature)
  | .storing receipt (statement :: left) hashes, .ingest call =>
      ingestNext content state id job receipt statement left hashes call
  | .storing receipt [] hashes, .go => finish state id job receipt hashes
  | .indexing receipt hashes, .index written => indexReceipt state id job receipt hashes written
  | stage, event =>
      (advance hostKey content state job stage event).map fun next =>
        state.park id (.working job next)

end

/-- `write` and `store` are the rest of the traffic of the blob store, the audio of the uploads
among it, and the steps of the ingests here. -/
inductive Action (platform : Platform) (hostKey : JsString) where
  | arrive (id : UploadId) (upload : Upload)
  | check (id : UploadId)
  | enter (id : UploadId)
  | resume (id : UploadId) (event : Event)
  | reject (id : UploadId)
  | clear (id : UploadId)
  | write (call : CallId) (write : Write platform [hostKey])
  | store (hash : JsString) (call : CallId)
  | fail (hash : JsString) (call : CallId)

variable (content) in
def ClaimHost.traffic (state : ClaimHost platform) (action : HostAction platform [hostKey]) :
    Option (ClaimHost platform) :=
  (hostStep content state.host action).map fun host => { state with host := host }

variable (content) in
def claimStep (state : ClaimHost platform) : Action platform hostKey → Option (ClaimHost platform)
  | .arrive id upload =>
      if (state.uploads id).isNone then some (state.park id (.checking upload)) else none
  | .check id =>
      match state.uploads id with
      | some (.checking upload) =>
          match checkUpload platform upload with
          | .error verification => some (state.park id (.unverified verification))
          | .ok job =>
              (state.lock.join id job.claimHash).map fun lock =>
                { state.park id (.working job .queued) with lock := lock }
      | _ => none
  | .enter id =>
      match state.uploads id with
      | some (.working job .queued) =>
          (state.lock.enter id).map fun lock =>
            { state.park id (.working job .loadingKey) with
              lock := lock
              entered := state.entered ++ [(job.claimHash, id)] }
      | _ => none
  | .resume id event =>
      match state.uploads id with
      | some (.working job stage) => resume hostKey content state id job stage event
      | _ => none
  | .reject id =>
      match state.uploads id with
      | some (.working job _) => settle state id job .rejected
      | _ => none
  | .clear id => (state.lock.clear id).map fun lock => { state with lock := lock }
  | .write call write => state.traffic content (.write call write : HostAction platform [hostKey])
  | .store hash call =>
      state.traffic content (.store hash (.resume call) : HostAction platform [hostKey])
  | .fail hash call =>
      state.traffic content (.store hash (.fail call) : HostAction platform [hostKey])

end Tapes.Uploads
