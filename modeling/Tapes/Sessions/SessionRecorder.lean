import Tapes.Machine.Table
import Tapes.Provenance.Signing
import Tapes.Provenance.Statements

namespace Tapes.Sessions

open Tapes.Js Tapes.Provenance Tapes.Machine

/-! The host's session recorder and the listing of its records, one step for each
stretch of code between two awaits. -/

/-- What the platform supplies.  `storedHash` is the address the blob store gives
the signed record, and `statementAt` the one statement an address names. -/
structure RecorderPlatform where
  hostKey : JsString
  toISOString : Int → JsString
  storedHash : SessionRecord → JsString
  statementAt : JsString → Option Bytes

/-- The recording claim that statement bytes hold. -/
def claimIn (bytes : Bytes) : Option RecordingClaim :=
  (parseSignedStatement bytes).bind fun signed => recordingClaim? signed.payload

def RecorderPlatform.claimAt (platform : RecorderPlatform) (address : JsString) :
    Option RecordingClaim :=
  (platform.statementAt address).bind claimIn

/-! ## The session record -/

def compareOrder (left right : JsString) : Bool := !lessThan right left

def spanOrder (left right : SessionSpan) : Bool :=
  lessThan left.joinedAt right.joinedAt ||
    (left.joinedAt = right.joinedAt && compareOrder left.leftAt right.leftAt)

def sortSpans (spans : List SessionSpan) : List SessionSpan :=
  spans.insertionSort fun left right => spanOrder left right

def createSessionRecord (platform : RecorderPlatform) (sessionId : JsString)
    (openedAt closedAt : Int) (devices : List SessionDevice) (claims : List JsString) :
    SessionRecord where
  sessionId
  openedAt := platform.toISOString openedAt
  closedAt := platform.toISOString closedAt
  devices := (devices.map fun device => { device with spans := sortSpans device.spans }).insertionSort
    fun left right => compareOrder left.deviceKey right.deviceKey
  claims := (claims.foldl addTo []).insertionSort fun left right => compareOrder left right
  hostKey := platform.hostKey

/-! ## One session -/

structure SyncConnection where
  id : JsString
  deviceKey : Option JsString
  label : Option JsString
  connectedAt : Int
deriving DecidableEq

/-- A span knows its connection: the one in `live` is the one not left yet. -/
structure Span where
  connection : JsString
  joinedAt : Int
  leftAt : Option Int
deriving DecidableEq

structure Device where
  label : Option JsString
  spans : List Span
deriving DecidableEq

structure Tracked where
  sessionId : JsString
  openedAt : Int
  docUrl : JsString
  devices : OrderedMap JsString Device
  live : List JsString
  claims : List JsString

def endSpan (leftAt : Int) (tracked : Tracked) (id : JsString) : Tracked :=
  { tracked with
    devices := tracked.devices.mapValues fun device =>
      { device with spans := device.spans.map fun span =>
          if span.connection = id ∧ span.leftAt = none then { span with leftAt := some leftAt }
          else span }
    live := tracked.live.filter (· ≠ id) }

/-- The device key a connection has proved. -/
def SyncConnection.provenKey (connection : SyncConnection) : Option JsString :=
  connection.deviceKey.filter (· ≠ [])

def joinDevice (tracked : Tracked) (connection : SyncConnection) : Tracked :=
  match connection.provenKey with
  | none => tracked
  | some deviceKey =>
      let known := (tracked.devices.get? deviceKey).getD ⟨none, []⟩
      let device := { known with label := connection.label <|> known.label }
      if connection.id ∈ tracked.live then
        { tracked with devices := tracked.devices.set deviceKey device }
      else
        let span : Span := ⟨connection.id, max connection.connectedAt tracked.openedAt, none⟩
        { tracked with
          devices := tracked.devices.set deviceKey { device with spans := device.spans ++ [span] }
          live := tracked.live ++ [connection.id] }

def track (tracked : Tracked) (now : Int) (connections : List SyncConnection) : Tracked :=
  let present := (connections.filter fun each => each.provenKey.isSome).map SyncConnection.id
  let joined := connections.foldl joinDevice tracked
  (joined.live.filter (· ∉ present)).foldl (endSpan now) joined

def recordDevices (platform : RecorderPlatform) (tracked : Tracked) (closedAt : Int) :
    List SessionDevice :=
  tracked.devices.entries.map fun (deviceKey, device) =>
    { deviceKey
      label := device.label
      spans := device.spans.map fun span =>
        ⟨platform.toISOString span.joinedAt, platform.toISOString (span.leftAt.getD closedAt)⟩ }

/-- The record `sign` makes of the session as it stands. -/
def recordOf (platform : RecorderPlatform) (tracked : Tracked) (closedAt : Int) : SessionRecord :=
  createSessionRecord platform tracked.sessionId tracked.openedAt closedAt
    (recordDevices platform tracked closedAt) tracked.claims

/-! ## The recorder -/

/-- What a closed session awaits.  `signing` and `storing` carry the record made
of the claims there were when signing began; `listing` carries the claims handed to
`onSigned` and, once the root is open, the recordings left to look at. -/
inductive Phase where
  | grace (deadline : Int) (skipped : Bool)
  | signing (record : SessionRecord)
  | storing (record : SessionRecord)
  | listing (recordHash : JsString) (claims : List JsString)
      (remaining : Option (List (Option JsString)))
deriving DecidableEq

structure Closing where
  tracked : Tracked
  closedAt : Int
  phase : Phase

/-- The repo's documents that resolve.  A root's recordings can hold junk entries,
and a recording may have no statement list. -/
structure Documents where
  roots : Table JsString (List (Option JsString))
  recordings : Table JsString (Option (List JsString))

inductive Event where
  | stored (recordHash : JsString) (record : SessionRecord)
  | handed (docUrl recordHash : JsString) (claims : List JsString)
  | listed (url recordHash : JsString) (statements : List JsString)
deriving DecidableEq

structure Recorder where
  now : Int
  running : Bool
  opened : Option Tracked
  closing : Table JsString Closing
  documents : Documents
  history : List Event

def Recorder.idle (now : Int) (documents : Documents) : Recorder :=
  ⟨now, true, none, .empty, documents, []⟩

def openSession (recorder : Recorder) (sessionId docUrl : JsString)
    (connections : List SyncConnection) : Recorder :=
  if recorder.opened.isSome || (recorder.closing sessionId).isSome then recorder
  else
    let tracked : Tracked := ⟨sessionId, recorder.now, docUrl, .empty, [], []⟩
    { recorder with opened := some (track tracked recorder.now connections) }

def connectionsChanged (recorder : Recorder) (connections : List SyncConnection) : Recorder :=
  { recorder with
    opened := recorder.opened.map fun tracked => track tracked recorder.now connections }

def Tracked.addClaim (tracked : Tracked) (claimAddress : JsString) : Tracked :=
  { tracked with claims := addTo tracked.claims claimAddress }

def claimVerified (recorder : Recorder) (claim : RecordingClaim) (claimAddress : JsString) :
    Recorder :=
  match recorder.opened.filter fun tracked => tracked.sessionId = claim.sessionId with
  | some tracked => { recorder with opened := some (tracked.addClaim claimAddress) }
  | none =>
      { recorder with closing := recorder.closing.modify claim.sessionId fun closing =>
          { closing with tracked := closing.tracked.addClaim claimAddress } }

def Recorder.putClosing (recorder : Recorder) (closing : Closing) : Recorder :=
  { recorder with closing := recorder.closing.put closing.tracked.sessionId closing }

/-- `sign` up to its first await.  Without a running host there is no store, and the
session is dropped. -/
def startSigning (platform : RecorderPlatform) (recorder : Recorder) (tracked : Tracked)
    (closedAt : Int) : Recorder :=
  if recorder.running then
    recorder.putClosing ⟨tracked, closedAt, .signing (recordOf platform tracked closedAt)⟩
  else { recorder with closing := recorder.closing.remove tracked.sessionId }

def close (platform : RecorderPlatform) (recorder : Recorder) (graceMs : Nat) : Recorder :=
  match recorder.opened with
  | none => recorder
  | some tracked =>
      let closedAt := recorder.now
      let left := tracked.live.foldl (endSpan closedAt) tracked
      let closed := { recorder with opened := none }
      if graceMs = 0 then startSigning platform closed left closedAt
      else closed.putClosing ⟨left, closedAt, .grace (closedAt + graceMs) false⟩

def Closing.skipGrace (closing : Closing) : Closing :=
  match closing.phase with
  | .grace deadline _ => { closing with phase := .grace deadline true }
  | _ => closing

def flush (platform : RecorderPlatform) (recorder : Recorder) : Recorder :=
  let closed := close platform recorder 0
  { closed with closing := fun id => (closed.closing id).map Closing.skipGrace }

def Recorder.setPhase (recorder : Recorder) (id : JsString) (closing : Closing) (phase : Phase) :
    Recorder :=
  { recorder with closing := recorder.closing.put id { closing with phase } }

def Recorder.finish (recorder : Recorder) (id : JsString) : Recorder :=
  { recorder with closing := recorder.closing.remove id }

def Recorder.note (recorder : Recorder) (event : Event) : Recorder :=
  { recorder with history := event :: recorder.history }

/-- The part of `listSessionRecord` for one recording that resolved. -/
def listOn (recorder : Recorder) (url recordHash : JsString) (claims statements : List JsString) :
    Recorder :=
  if statements.any (· ∈ claims) then
    { recorder with
      documents := { recorder.documents with
        recordings := recorder.documents.recordings.put url (some (addTo statements recordHash)) }
      history := .listed url recordHash statements :: recorder.history }
  else recorder

def resumeListing (recorder : Recorder) (id : JsString) (closing : Closing)
    (recordHash : JsString) (claims : List JsString) :
    Option (List (Option JsString)) → Recorder
  | none =>
      match recorder.documents.roots closing.tracked.docUrl with
      | none => recorder.finish id
      | some urls => recorder.setPhase id closing (.listing recordHash claims (some urls))
  | some [] => recorder.finish id
  | some (none :: rest) =>
      recorder.setPhase id closing (.listing recordHash claims (some rest))
  | some (some url :: rest) =>
      match recorder.documents.recordings url with
      | some (some statements) =>
          (listOn recorder url recordHash claims statements).setPhase id closing
            (.listing recordHash claims (some rest))
      | _ => recorder.setPhase id closing (.listing recordHash claims (some rest))

/-- What a closed session awaits has come. Once the record is stored its claims are
read again, for `onSigned`. -/
def resume (platform : RecorderPlatform) (recorder : Recorder) (id : JsString)
    (closing : Closing) : Option Recorder :=
  match closing.phase with
  | .grace deadline skipped =>
      if skipped || deadline ≤ recorder.now then
        some (startSigning platform recorder closing.tracked closing.closedAt)
      else none
  | .signing record => some (recorder.setPhase id closing (.storing record))
  | .storing record =>
      let recordHash := platform.storedHash record
      let claims := closing.tracked.claims
      let stored := (recorder.note (.stored recordHash record)).note
        (.handed closing.tracked.docUrl recordHash claims)
      some (stored.setPhase id closing
        (.listing recordHash claims (if claims = [] then some [] else none)))
  | .listing recordHash claims remaining =>
      some (resumeListing recorder id closing recordHash claims remaining)

/-- What a closed session awaits has failed.  A recording that will not open is
skipped; any other failure is logged and ends it. -/
def fail (recorder : Recorder) (id : JsString) (closing : Closing) : Option Recorder :=
  match closing.phase with
  | .grace _ _ => none
  | .signing _ | .storing _ => some (recorder.finish id)
  | .listing recordHash claims (some (some _ :: rest)) =>
      some (recorder.setPhase id closing (.listing recordHash claims (some rest)))
  | .listing _ _ _ => some (recorder.finish id)

inductive Action where
  | tick (elapsed : Nat)
  | setRunning (running : Bool)
  | editDocuments (documents : Documents)
  | openSession (sessionId docUrl : JsString) (connections : List SyncConnection)
  | connectionsChanged (connections : List SyncConnection)
  | claimVerified (claim : RecordingClaim) (claimAddress : JsString)
  | close (graceMs : Nat)
  | flush
  | resume (sessionId : JsString)
  | fail (sessionId : JsString)

/-- A claim the host verified is the one its address names. -/
def step (platform : RecorderPlatform) (recorder : Recorder) : Action → Option Recorder
  | .tick elapsed => some { recorder with now := recorder.now + elapsed }
  | .setRunning running => some { recorder with running }
  | .editDocuments documents => some { recorder with documents }
  | .openSession sessionId docUrl connections =>
      some (openSession recorder sessionId docUrl connections)
  | .connectionsChanged connections => some (connectionsChanged recorder connections)
  | .claimVerified claim claimAddress =>
      if platform.claimAt claimAddress = some claim then
        some (claimVerified recorder claim claimAddress)
      else none
  | .close graceMs => some (close platform recorder graceMs)
  | .flush => some (flush platform recorder)
  | .resume sessionId =>
      (recorder.closing sessionId).bind (resume platform recorder sessionId)
  | .fail sessionId => (recorder.closing sessionId).bind (fail recorder sessionId)

end Tapes.Sessions
