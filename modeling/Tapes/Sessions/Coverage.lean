import Tapes.Machine.Run
import Tapes.Provenance.Shown
import Tapes.Sessions.SessionRecorder

namespace Tapes.Sessions

open Tapes.Js Tapes.Provenance Tapes.Machine

/-! The session record and its listing cover the same claims, unless a claim comes
while the record is being signed or stored. -/

variable {platform : RecorderPlatform} {recorder next : Recorder} {tracked : Tracked}
  {closing : Closing} {history : List Event} {id : JsString}

/-! ## What the bookkeeping leaves alone -/

@[simp] theorem endSpan_claims (leftAt : Int) (tracked : Tracked) (id : JsString) :
    (endSpan leftAt tracked id).claims = tracked.claims := rfl

theorem foldl_endSpan_claims (leftAt : Int) (tracked : Tracked) (ids : List JsString) :
    (ids.foldl (endSpan leftAt) tracked).claims = tracked.claims := by
  induction ids generalizing tracked with
  | nil => rfl
  | cons id rest induction => rw [List.foldl_cons, induction, endSpan_claims]

theorem joinDevice_claims (tracked : Tracked) (connection : SyncConnection) :
    (joinDevice tracked connection).claims = tracked.claims := by
  simp only [joinDevice]
  split
  · rfl
  · split <;> rfl

theorem foldl_joinDevice_claims (tracked : Tracked) (connections : List SyncConnection) :
    (connections.foldl joinDevice tracked).claims = tracked.claims := by
  induction connections generalizing tracked with
  | nil => rfl
  | cons connection rest induction => rw [List.foldl_cons, induction, joinDevice_claims]

theorem track_claims (tracked : Tracked) (now : Int) (connections : List SyncConnection) :
    (track tracked now connections).claims = tracked.claims := by
  simp only [track]
  rw [foldl_endSpan_claims, foldl_joinDevice_claims]

theorem mem_recordOf_claims {closedAt : Int} {address : JsString} :
    address ∈ (recordOf platform tracked closedAt).claims ↔ address ∈ tracked.claims := by
  simp only [recordOf, createSessionRecord, List.mem_insertionSort, mem_foldl_addTo,
    List.not_mem_nil, false_or]

/-! ## The invariant -/

def SameClaims (claims : List JsString) (record : SessionRecord) : Prop :=
  ∀ address, address ∈ claims ↔ address ∈ record.claims

/-- Every address is that of a recording claim. -/
def AreClaims (platform : RecorderPlatform) (addresses : List JsString) : Prop :=
  ∀ address ∈ addresses, (platform.claimAt address).isSome

/-- The record stored at the hash names these claims and no others. -/
def StoredWith (history : List Event) (recordHash : JsString) (claims : List JsString) : Prop :=
  ∃ record, .stored recordHash record ∈ history ∧ SameClaims claims record

/-- The claims a closing session will hand on are those of the record it has made. -/
def Closing.Covered (history : List Event) (closing : Closing) : Prop :=
  match closing.phase with
  | .grace _ _ => True
  | .signing record | .storing record => SameClaims closing.tracked.claims record
  | .listing recordHash claims _ => StoredWith history recordHash claims

/-- Every address the session holds or hands on is a claim's. -/
def Closing.Claims (platform : RecorderPlatform) (closing : Closing) : Prop :=
  AreClaims platform closing.tracked.claims ∧
    match closing.phase with
    | .listing _ claims _ => AreClaims platform claims
    | _ => True

/-- What each event of the history says of the stored records. -/
def Event.Covered (platform : RecorderPlatform) (history : List Event) : Event → Prop
  | .stored _ _ => True
  | .handed _ recordHash claims => StoredWith history recordHash claims
  | .listed _ recordHash statements => ∃ claims, StoredWith history recordHash claims ∧
      AreClaims platform claims ∧ ∃ address ∈ statements, address ∈ claims

structure Covers (platform : RecorderPlatform) (recorder : Recorder) : Prop where
  opened : ∀ tracked, recorder.opened = some tracked → AreClaims platform tracked.claims
  claims : recorder.closing.All fun _ closing => closing.Claims platform
  closing : recorder.closing.All fun _ closing => closing.Covered recorder.history
  events : ∀ event ∈ recorder.history, event.Covered platform recorder.history

/-- No claim comes for a session whose record is being signed or stored, unless the
session has it already. -/
def Settled (recorder : Recorder) : Action → Prop
  | .claimVerified claim claimAddress => ∀ closing, recorder.closing claim.sessionId = some closing →
      match closing.phase with
      | .signing _ | .storing _ => claimAddress ∈ closing.tracked.claims
      | _ => True
  | _ => True

theorem StoredWith.later {later : List Event} {recordHash : JsString} {claims : List JsString}
    (stored : StoredWith history recordHash claims) (kept : history ⊆ later) :
    StoredWith later recordHash claims := by
  obtain ⟨record, member, same⟩ := stored
  exact ⟨record, kept member, same⟩

theorem Event.Covered.later {later : List Event} {event : Event}
    (covered : event.Covered platform history) (kept : history ⊆ later) :
    event.Covered platform later := by
  cases event with
  | stored => trivial
  | handed docUrl recordHash claims => exact StoredWith.later covered kept
  | listed url recordHash statements =>
      obtain ⟨claims, stored, areClaims, named⟩ := covered
      exact ⟨claims, stored.later kept, areClaims, named⟩

theorem Closing.Covered.later {later : List Event} (covered : closing.Covered history)
    (kept : history ⊆ later) : closing.Covered later := by
  obtain ⟨tracked, closedAt, phase⟩ := closing
  cases phase with
  | grace | signing | storing => exact covered
  | listing recordHash claims remaining => exact StoredWith.later covered kept

theorem AreClaims.addTo {claims : List JsString} {address : JsString}
    (areClaims : AreClaims platform claims) (isClaim : (platform.claimAt address).isSome) :
    AreClaims platform (addTo claims address) := by
  intro other member
  rcases mem_addTo.mp member with rfl | member
  · exact isClaim
  · exact areClaims other member

/-! ## One step -/

/-- Putting a session that is covered, with the history as it was. -/
theorem Covers.putClosing (covers : Covers platform recorder)
    (claims : closing.Claims platform) (covered : closing.Covered recorder.history) :
    Covers platform (recorder.putClosing closing) :=
  ⟨covers.opened, covers.claims.put claims, covers.closing.put covered, covers.events⟩

theorem Covers.setPhase {phase : Phase} (covers : Covers platform recorder)
    (claims : { closing with phase }.Claims platform)
    (covered : { closing with phase }.Covered recorder.history) :
    Covers platform (recorder.setPhase id closing phase) :=
  ⟨covers.opened, covers.claims.put claims, covers.closing.put covered, covers.events⟩

theorem Covers.finish (covers : Covers platform recorder) :
    Covers platform (recorder.finish id) :=
  ⟨covers.opened, covers.claims.remove, covers.closing.remove, covers.events⟩

theorem Covers.note (covers : Covers platform recorder) (event : Event)
    (covered : event.Covered platform (event :: recorder.history)) :
    Covers platform (recorder.note event) := by
  have kept : recorder.history ⊆ event :: recorder.history := List.subset_cons_self ..
  refine ⟨covers.opened, covers.claims, ?_, ?_⟩
  · exact covers.closing.weaken fun _ _ _ covered => covered.later kept
  · intro other member
    rcases List.mem_cons.mp member with rfl | member
    · exact covered
    · exact (covers.events other member).later kept

theorem Covers.withOpened {opened : Option Tracked} (covers : Covers platform recorder)
    (claims : ∀ tracked, opened = some tracked → AreClaims platform tracked.claims) :
    Covers platform { recorder with opened } :=
  ⟨claims, covers.claims, covers.closing, covers.events⟩

theorem Covers.openSession {sessionId docUrl : JsString} {connections : List SyncConnection}
    (covers : Covers platform recorder) :
    Covers platform (openSession recorder sessionId docUrl connections) := by
  simp only [Sessions.openSession]
  split
  · exact covers
  · refine covers.withOpened fun tracked found => ?_
    cases found
    intro address member
    rw [track_claims] at member
    cases member

theorem Covers.connectionsChanged {connections : List SyncConnection}
    (covers : Covers platform recorder) :
    Covers platform (connectionsChanged recorder connections) := by
  refine covers.withOpened fun tracked found => ?_
  obtain ⟨before, held, rfl⟩ := Option.map_eq_some_iff.mp found
  intro address member
  rw [track_claims] at member
  exact covers.opened before held address member

theorem Covers.claimVerified {claim : RecordingClaim} {claimAddress : JsString}
    (covers : Covers platform recorder) (isClaim : platform.claimAt claimAddress = some claim)
    (settled : Settled recorder (.claimVerified claim claimAddress)) :
    Covers platform (claimVerified recorder claim claimAddress) := by
  have named : (platform.claimAt claimAddress).isSome := by simp [isClaim]
  simp only [Sessions.claimVerified]
  split
  · rename_i tracked found
    have held := covers.opened tracked (Option.filter_eq_some_iff.mp found).1
    refine covers.withOpened fun added same => ?_
    cases same
    exact held.addTo named
  · refine ⟨covers.opened, covers.claims.modify ?_, covers.closing.modify ?_, covers.events⟩
    · intro closing found
      have held := covers.claims _ closing found
      exact ⟨held.1.addTo named, held.2⟩
    · intro closing found
      have covered := covers.closing _ closing found
      have unraced := settled closing found
      obtain ⟨tracked, closedAt, phase⟩ := closing
      cases phase with
      | grace | listing => exact covered
      | signing record | storing record =>
          intro address
          rw [← covered address]
          constructor
          · intro member
            rcases mem_addTo.mp member with rfl | member
            · exact unraced
            · exact member
          · exact fun member => mem_addTo.mpr (.inr member)

theorem Covers.startSigning {closedAt : Int} (covers : Covers platform recorder)
    (claims : AreClaims platform tracked.claims) :
    Covers platform (startSigning platform recorder tracked closedAt) := by
  simp only [Sessions.startSigning]
  split
  · exact covers.putClosing ⟨claims, trivial⟩ fun address => mem_recordOf_claims.symm
  · exact covers.finish

theorem Covers.close {graceMs : Nat} (covers : Covers platform recorder) :
    Covers platform (close platform recorder graceMs) := by
  simp only [Sessions.close]
  split
  · exact covers
  · rename_i tracked found
    have left : AreClaims platform (tracked.live.foldl (endSpan recorder.now) tracked).claims := by
      rw [foldl_endSpan_claims]
      exact covers.opened tracked found
    have closed : Covers platform { recorder with opened := none } :=
      covers.withOpened fun _ absent => by cases absent
    split
    · exact closed.startSigning left
    · exact closed.putClosing ⟨left, trivial⟩ trivial

theorem Covers.flush (covers : Covers platform recorder) :
    Covers platform (flush platform recorder) := by
  have closed : Covers platform (Sessions.close platform recorder 0) := covers.close
  refine ⟨closed.opened, ?_, ?_, closed.events⟩
  · intro id closing found
    obtain ⟨before, held, rfl⟩ := Option.map_eq_some_iff.mp found
    have claims := closed.claims id before held
    obtain ⟨tracked, closedAt, phase⟩ := before
    cases phase <;> exact claims
  · intro id closing found
    obtain ⟨before, held, rfl⟩ := Option.map_eq_some_iff.mp found
    have covered := closed.closing id before held
    obtain ⟨tracked, closedAt, phase⟩ := before
    cases phase <;> exact covered

theorem Covers.listOn {url recordHash : JsString} {claims statements : List JsString}
    (covers : Covers platform recorder) (stored : StoredWith recorder.history recordHash claims)
    (areClaims : AreClaims platform claims) :
    Covers platform (listOn recorder url recordHash claims statements) := by
  simp only [Sessions.listOn]
  split
  · rename_i covered
    obtain ⟨address, member, named⟩ := List.any_eq_true.mp covered
    have noted : Covers platform (recorder.note (.listed url recordHash statements)) :=
      covers.note _ ⟨claims, stored.later (List.subset_cons_self ..), areClaims, address, member,
        of_decide_eq_true named⟩
    exact ⟨noted.opened, noted.claims, noted.closing, noted.events⟩
  · exact covers

theorem listOn_history {url recordHash : JsString} {claims statements : List JsString} :
    recorder.history ⊆ (listOn recorder url recordHash claims statements).history := by
  simp only [listOn]
  split
  · exact List.subset_cons_self ..
  · exact List.Subset.refl _

theorem Covers.resume (covers : Covers platform recorder)
    (found : recorder.closing id = some closing)
    (resumed : resume platform recorder id closing = some next) : Covers platform next := by
  have claims := covers.claims id closing found
  have covered := covers.closing id closing found
  obtain ⟨tracked, closedAt, phase⟩ := closing
  cases phase with
  | grace deadline skipped =>
      simp only [Sessions.resume] at resumed
      split at resumed
      · cases resumed
        exact covers.startSigning claims.1
      · cases resumed
  | signing record =>
      cases resumed
      exact covers.setPhase ⟨claims.1, trivial⟩ covered
  | storing record =>
      cases resumed
      have stored : Covers platform (recorder.note (.stored (platform.storedHash record) record)) :=
        covers.note _ trivial
      have here : StoredWith (Event.handed tracked.docUrl (platform.storedHash record)
          tracked.claims :: .stored (platform.storedHash record) record :: recorder.history)
          (platform.storedHash record) tracked.claims :=
        ⟨record, by simp, covered⟩
      exact (stored.note (.handed tracked.docUrl _ _) here).setPhase ⟨claims.1, claims.1⟩ here
  | listing recordHash handed remaining =>
      cases resumed
      have advance : ∀ {later : Recorder} (rest : Option (List (Option JsString))),
          Covers platform later → recorder.history ⊆ later.history →
          Covers platform (later.setPhase id ⟨tracked, closedAt, .listing recordHash handed remaining⟩
            (.listing recordHash handed rest)) :=
        fun rest coversLater kept => coversLater.setPhase claims (StoredWith.later covered kept)
      rcases remaining with - | ⟨- | ⟨- | url, rest⟩⟩
      · simp only [resumeListing]
        split
        · exact covers.finish
        · exact advance _ covers (List.Subset.refl _)
      · exact covers.finish
      · exact advance _ covers (List.Subset.refl _)
      · simp only [resumeListing]
        split
        · exact advance _ (covers.listOn covered claims.2) listOn_history
        · exact advance _ covers (List.Subset.refl _)

theorem Covers.fail (covers : Covers platform recorder)
    (found : recorder.closing id = some closing)
    (failed : fail recorder id closing = some next) : Covers platform next := by
  have claims := covers.claims id closing found
  have covered := covers.closing id closing found
  obtain ⟨tracked, closedAt, phase⟩ := closing
  cases phase with
  | grace => cases failed
  | signing | storing =>
      cases failed
      exact covers.finish
  | listing recordHash handed remaining =>
      rcases remaining with - | ⟨- | ⟨- | url, rest⟩⟩
      · cases failed
        exact covers.finish
      · cases failed
        exact covers.finish
      · cases failed
        exact covers.finish
      · cases failed
        exact covers.setPhase claims covered

theorem Covers.step {action : Action} (covers : Covers platform recorder)
    (settled : Settled recorder action) (taken : step platform recorder action = some next) :
    Covers platform next := by
  cases action with
  | tick | setRunning | editDocuments =>
      cases taken
      exact ⟨covers.opened, covers.claims, covers.closing, covers.events⟩
  | openSession sessionId docUrl connections =>
      cases taken
      exact covers.openSession
  | connectionsChanged connections =>
      cases taken
      exact covers.connectionsChanged
  | claimVerified claim claimAddress =>
      simp only [Sessions.step] at taken
      split at taken
      · rename_i isClaim
        cases taken
        exact covers.claimVerified isClaim settled
      · cases taken
  | close graceMs =>
      cases taken
      exact covers.close
  | flush =>
      cases taken
      exact covers.flush
  | resume sessionId =>
      obtain ⟨closing, found, resumed⟩ := Option.bind_eq_some_iff.mp taken
      exact covers.resume found resumed
  | fail sessionId =>
      obtain ⟨closing, found, failed⟩ := Option.bind_eq_some_iff.mp taken
      exact covers.fail found failed

theorem covers_idle (now : Int) (documents : Documents) :
    Covers platform (Recorder.idle now documents) := by
  refine ⟨?_, Table.all_empty, Table.all_empty, ?_⟩
  · intro tracked absent
    cases absent
  · intro event absent
    cases absent

theorem reaches_covers {now : Int} {documents : Documents}
    (reached : Reaches (step platform) Settled (.idle now documents) recorder) :
    Covers platform recorder :=
  reached.invariant (Covers platform) (covers_idle now documents)
    fun _ covers settled taken => covers.step settled taken

/-! ## What a reader of a listed recording finds -/

/-- Bytes served for an address and hashing to it are the statement the address names. -/
def ServedFaithfully (platform : RecorderPlatform) (reader : Platform)
    (fetched : List FetchedStatement) : Prop :=
  ∀ statement ∈ fetched, ∀ bytes, statement.bytes = some bytes →
    sha256Hex reader bytes = statement.hash → platform.statementAt statement.hash = some bytes

/-- Of the listed addresses at most one is a recording claim's. -/
def SingleClaim (platform : RecorderPlatform) (addresses : List JsString) : Prop :=
  ∀ first ∈ addresses, ∀ second ∈ addresses, (platform.claimAt first).isSome →
    (platform.claimAt second).isSome → first = second

variable {reader : Platform} {blob : BlobDescriptor} {fetched : List FetchedStatement}

/-- A claim that passes is the claim its address names. -/
theorem claimAt_of_passing {address : JsString} {claim : RecordingClaim}
    (served : ServedFaithfully platform reader fetched)
    (passing : (address, claim) ∈ claimsOf reader blob fetched) :
    address ∈ fetched.map FetchedStatement.hash ∧ platform.claimAt address = some claim := by
  obtain ⟨bytes, entry, selected⟩ := mem_passing.mp passing
  have isClaim : checkStatement reader blob address bytes = .claim claim := by
    generalize checkStatement reader blob address bytes = checked at selected
    cases checked <;> simp_all [Checked.claim?]
  obtain ⟨hashed, signed, parsed, -, -, justified⟩ := checkStatement_cases isClaim rfl
  obtain ⟨shape, -⟩ := checkRecordingClaim_eq_ok_iff.mp justified
  obtain ⟨statement, listed, same⟩ := List.mem_map.mp (OrderedMap.mem_of_mem_ofList entry)
  obtain ⟨rfl, bytesServed⟩ := Prod.mk.inj same
  refine ⟨List.mem_map_of_mem listed, ?_⟩
  simp [RecorderPlatform.claimAt, served statement listed bytes bytesServed hashed, claimIn,
    parsed, shape]

/-- A record that names a listed claim is no foreign record to a recording with one claim. -/
theorem sessionProblem_of_single {record : SessionRecord} {address : JsString}
    (listed : address ∈ fetched.map FetchedStatement.hash) (named : address ∈ record.claims)
    (isClaim : (platform.claimAt address).isSome)
    (served : ServedFaithfully platform reader fetched)
    (single : SingleClaim platform (fetched.map FetchedStatement.hash)) :
    sessionProblem record (collect reader blob fetched).claims ≠ some .claimNotInSession := by
  have same : ∀ passing ∈ (collect reader blob fetched).claims.entries, passing.1 = address := by
    intro passing member
    rw [(collect_spec _ _ fetched).claims] at member
    obtain ⟨inList, found⟩ := claimAt_of_passing served member
    exact single _ inList _ listed (by simp [found]) isClaim
  simp only [sessionProblem]
  split
  · simp
  · rename_i present
    obtain ⟨entry, member⟩ := List.exists_mem_of_ne_nil _ present
    have covered : (List.filter (fun entry : JsString × RecordingClaim =>
        entry.2.sessionId = record.sessionId) (collect reader blob fetched).claims.entries).any
          (fun entry => entry.1 ∈ record.claims) = true := by
      refine List.any_eq_true.mpr ⟨entry, member, ?_⟩
      rw [same entry (List.mem_of_mem_filter member)]
      exact decide_eq_true named
    rw [if_pos covered]
    simp

/-! ## Runs -/

/-- In every run from `start` that keeps to the guard, the claims handed to
`onSigned` are those of the stored record, a recording lists the record only if the
record names one of its claims, and a reader of a listed recording with one claim
finds that claim in the session. -/
def CoverSameClaims (platform : RecorderPlatform) (guard : Recorder → Action → Prop)
    (start : Recorder) : Prop :=
  ∀ recorder, Reaches (step platform) guard start recorder →
    (∀ docUrl recordHash claims, .handed docUrl recordHash claims ∈ recorder.history →
      StoredWith recorder.history recordHash claims) ∧
    ∀ url recordHash statements, .listed url recordHash statements ∈ recorder.history →
      ∃ record, .stored recordHash record ∈ recorder.history ∧
        (∃ address ∈ statements, address ∈ record.claims) ∧
        ∀ reader blob fetched, statements ⊆ fetched.map FetchedStatement.hash →
          ServedFaithfully platform reader fetched →
          SingleClaim platform (fetched.map FetchedStatement.hash) →
          sessionProblem record (collect reader blob fetched).claims ≠ some .claimNotInSession

/-- Unless a claim comes while a record is being signed or stored, the record and
its listing cover the same claims. -/
theorem settled_runs_cover_same_claims (platform : RecorderPlatform) (now : Int)
    (documents : Documents) : CoverSameClaims platform Settled (.idle now documents) := by
  intro recorder reached
  have covers := reaches_covers reached
  refine ⟨fun docUrl recordHash claims handed => covers.events _ handed, ?_⟩
  intro url recordHash statements listed
  obtain ⟨claims, ⟨record, stored, same⟩, areClaims, address, member, named⟩ :=
    covers.events _ listed
  have inRecord : address ∈ record.claims := (same address).mp named
  refine ⟨record, stored, ⟨address, member, inRecord⟩, ?_⟩
  intro reader blob fetched inList served single
  exact sessionProblem_of_single (inList member) inRecord (areClaims address named) served single

/-! ## A claim that comes while the record is being signed -/

def lateClaim : FetchedStatement := claimNaming (js "00")

def samplePlatform : RecorderPlatform where
  hostKey := sampleKey 0x48
  toISOString _ := js "1970-01-01T00:00:00.000Z"
  storedHash _ := js "record"
  statementAt address :=
    ([firstClaim, lateClaim].find? fun statement => statement.hash = address).bind
      FetchedStatement.bytes

def sampleRecordingClaim (deviceCert : Option JsString) : RecordingClaim where
  blob := sampleBlob
  mimeType := js "audio/wav"
  startedAt := js "t0"
  endedAt := js "t1"
  sessionId := js "one"
  deviceKey := sampleKey 0x41
  deviceCert

/-- One recording, that of the late claim. -/
def sampleDocuments : Documents where
  roots url := if url = js "root" then some [some (js "late take")] else none
  recordings url := if url = js "late take" then some (some [lateClaim.hash]) else none

def lateClaimActions : List Action :=
  [.openSession (js "one") (js "root") [],
    .claimVerified (sampleRecordingClaim none) firstClaim.hash, .close 0,
    .claimVerified (sampleRecordingClaim (some (js "00"))) lateClaim.hash,
    .resume (js "one"), .resume (js "one"), .resume (js "one"), .resume (js "one")]

def signedRecord : SessionRecord :=
  createSessionRecord samplePlatform (js "one") 0 0 [] [firstClaim.hash]

theorem lateClaim_history :
    ((run (step samplePlatform) (.idle 0 sampleDocuments) lateClaimActions).map
      Recorder.history) = some [.listed (js "late take") (js "record") [lateClaim.hash],
        .handed (js "root") (js "record") [firstClaim.hash, lateClaim.hash],
        .stored (js "record") signedRecord] := by
  decide +kernel

/-- A claim verified between the two reads is handed on and listed, but not in the record. -/
theorem late_claim_is_listed_but_not_recorded :
    ¬ CoverSameClaims samplePlatform anyAction (.idle 0 sampleDocuments) := by
  intro cover
  obtain ⟨recorder, ran, history⟩ := Option.map_eq_some_iff.mp lateClaim_history
  have reached : Reaches (step samplePlatform) anyAction (.idle 0 sampleDocuments) recorder :=
    .of_run ran (meetsAlong_anyAction _ _)
  obtain ⟨record, stored, same⟩ := (cover recorder reached).1 (js "root") (js "record")
    [firstClaim.hash, lateClaim.hash] (by simp [history])
  have made : record = signedRecord := by simpa [history] using stored
  have inRecord : lateClaim.hash ∈ record.claims := (same lateClaim.hash).mp (by simp)
  rw [made] at inRecord
  exact absurd inRecord (by decide +kernel)

/-! ## A claim that comes in the grace period -/

/-- What `Settled` asks of the recorder as it stands. -/
def settledCheck (recorder : Recorder) : Action → Bool
  | .claimVerified claim claimAddress => (recorder.closing claim.sessionId).all fun closing =>
      match closing.phase with
      | .signing _ | .storing _ => claimAddress ∈ closing.tracked.claims
      | _ => true
  | _ => true

theorem settled_of_check {recorder : Recorder} {action : Action}
    (checked : settledCheck recorder action = true) : Settled recorder action := by
  cases action with
  | claimVerified claim claimAddress =>
      intro closing found
      simp only [settledCheck, found, Option.all_some] at checked
      cases phase : closing.phase with
      | signing | storing => simpa only [phase, decide_eq_true_eq] using checked
      | grace | listing => trivial
  | _ => trivial

/-- The second claim comes in the grace period, and once more when the record is stored. -/
def claimInGrace : List Action :=
  [.openSession (js "one") (js "root") [],
    .claimVerified (sampleRecordingClaim none) firstClaim.hash, .close 1000,
    .claimVerified (sampleRecordingClaim (some (js "00"))) lateClaim.hash, .tick 1000,
    .resume (js "one"), .resume (js "one"),
    .claimVerified (sampleRecordingClaim (some (js "00"))) lateClaim.hash,
    .resume (js "one"), .resume (js "one"), .resume (js "one")]

theorem claimInGrace_history :
    ((run (guarded (settledCheck · ·) (step samplePlatform)) (.idle 0 sampleDocuments)
        claimInGrace).map
      Recorder.history) = some [.listed (js "late take") (js "record") [lateClaim.hash],
        .handed (js "root") (js "record") [firstClaim.hash, lateClaim.hash],
        .stored (js "record") (createSessionRecord samplePlatform (js "one") 0 0 []
          [firstClaim.hash, lateClaim.hash])] := by
  decide +kernel

/-- A claim of the grace period is recorded, handed on and listed. -/
theorem claim_in_grace_is_covered :
    ∃ recorder, Reaches (step samplePlatform) Settled (.idle 0 sampleDocuments) recorder ∧
      .handed (js "root") (js "record") [firstClaim.hash, lateClaim.hash] ∈ recorder.history ∧
      StoredWith recorder.history (js "record") [firstClaim.hash, lateClaim.hash] := by
  obtain ⟨recorder, ran, history⟩ := Option.map_eq_some_iff.mp claimInGrace_history
  have reached : Reaches (step samplePlatform) Settled (.idle 0 sampleDocuments) recorder :=
    .of_checked_run ran fun _ _ _ _ => settled_of_check
  have handed : .handed (js "root") (js "record") [firstClaim.hash, lateClaim.hash] ∈
      recorder.history := by simp [history]
  have cover := settled_runs_cover_same_claims samplePlatform 0 sampleDocuments recorder reached
  exact ⟨recorder, reached, handed, cover.1 _ _ _ handed⟩

end Tapes.Sessions
