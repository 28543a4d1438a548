import Tapes.Sessions.Coverage
import Tapes.Sessions.Presence

namespace Tapes.Sessions

open Tapes.Js Tapes.Provenance Tapes.Machine

/-! The signed record of a session says who was there, and when, and nobody else. -/

/-! ## The presence in one session -/

/-- A session that has ended, and what was reported while it was open. -/
structure Life where
  sessionId : JsString
  openedAt : Int
  closedAt : Int
  reports : List Report
deriving DecidableEq

namespace Life

def joinedAt (life : Life) (connection : SyncConnection) : Int :=
  max connection.connectedAt life.openedAt

def leftAt (life : Life) (id : JsString) : Int :=
  (Sessions.leftAt life.reports id).getD life.closedAt

def span (platform : RecorderPlatform) (life : Life) (connection : SyncConnection) : SessionSpan :=
  ⟨platform.toISOString (life.joinedAt connection), platform.toISOString (life.leftAt connection.id)⟩

/-- The clock did not go back from the opening to the closing. -/
structure Timed (life : Life) : Prop where
  sorted : life.reports.Pairwise fun first second => first.time ≤ second.time
  within : ∀ report ∈ life.reports, life.openedAt ≤ report.time ∧ report.time ≤ life.closedAt
  opened : life.openedAt ≤ life.closedAt

end Life

/-- One device entry for each proven key, and in it one span for each connection that appeared with
the key. -/
structure IsPresence (platform : RecorderPlatform) (life : Life) (record : SessionRecord) :
    Prop where
  sessionId : record.sessionId = life.sessionId
  openedAt : record.openedAt = platform.toISOString life.openedAt
  closedAt : record.closedAt = platform.toISOString life.closedAt
  once : (record.devices.map SessionDevice.deviceKey).Nodup
  keys : ∀ key, key ∈ record.devices.map SessionDevice.deviceKey ↔
    ∃ report ∈ life.reports, ∃ connection ∈ report.connections, connection.provenKey = some key
  spans : ∀ device ∈ record.devices, device.spans.Perm
    (((appeared life.reports).filter fun connection =>
      connection.provenKey = some device.deviceKey).map (life.span platform))
  connections : ((appeared life.reports).map SyncConnection.id).Nodup ∧
    ∀ id, id ∈ (appeared life.reports).map SyncConnection.id ↔
      ∃ report ∈ life.reports, ∃ connection ∈ report.connections,
        connection.id = id ∧ connection.provenKey.isSome = true
  ordered : ∀ connection ∈ appeared life.reports,
    life.openedAt ≤ life.joinedAt connection ∧
      life.joinedAt connection ≤ life.leftAt connection.id ∧
      life.leftAt connection.id ≤ life.closedAt

variable {platform : RecorderPlatform} {recorder next : Recorder} {tracked : Tracked}
  {closing : Closing} {id : JsString} {reports : List Report} {report : Report}
  {connection : SyncConnection} {life : Life} {record : SessionRecord} {now : Int}

theorem Life.Timed.ordered (timed : life.Timed) (well : WellReported life.reports)
    (inside : connection ∈ appeared life.reports) :
    life.openedAt ≤ life.joinedAt connection ∧
      life.joinedAt connection ≤ life.leftAt connection.id ∧
      life.leftAt connection.id ≤ life.closedAt := by
  obtain ⟨-, reported, there, here⟩ := mem_appeared inside
  have connected : ∀ other ∈ life.reports, connection.id ∈ other.ids →
      life.joinedAt connection ≤ other.time := by
    intro other listed present
    have arrived := well.connected reported there connection here other listed present
    have after := (timed.within other listed).1
    simp only [Life.joinedAt]
    omega
  refine ⟨le_max_right _ _, ?_⟩
  rw [Life.leftAt]
  cases left : Sessions.leftAt life.reports connection.id with
  | none =>
      have joined := connected reported there (SyncConnection.mem_ids here)
      have closed := (timed.within reported there).2
      rw [Option.getD_none]
      omega
  | some time =>
      obtain ⟨first, second, sub, present, -, rfl⟩ := leftAt_eq_some left
      have joined := connected first (sub.subset (by simp)) present
      have later : first.time ≤ second.time := by simpa using timed.sorted.sublist sub
      have closed := (timed.within second (sub.subset (by simp))).2
      rw [Option.getD_some]
      omega

/-! ## The record made of what was tracked -/

/-- What the recorder has tracked by the end of a session. -/
def Tracked.Recounts (life : Life) (tracked : Tracked) : Prop :=
  Tracks life.openedAt (appeared life.reports) (fun id => some (life.leftAt id)) tracked

/-- Closing ends the spans of those who are there. -/
theorem Agrees.ended (agrees : Agrees life.reports tracked)
    (opened : tracked.openedAt = life.openedAt) :
    Tracked.Recounts life (tracked.live.foldl (endSpan life.closedAt) tracked) := by
  rw [Agrees, opened] at agrees
  refine (agrees.endAll life.closedAt tracked.live).of_eq fun connection inside => ?_
  have live : connection.id ∈ tracked.live ↔ leftAt life.reports connection.id = none := by
    rw [agrees.live]
    constructor
    · rintro ⟨other, -, same, stillOpen⟩
      exact same ▸ stillOpen
    · exact fun stillOpen => ⟨connection, inside, rfl, stillOpen⟩
  simp only [live, Life.leftAt, and_self]
  cases leftAt life.reports connection.id <;> simp

theorem recordDevices_keys (tracked : Tracked) (closedAt : Int) :
    (recordDevices platform tracked closedAt).map SessionDevice.deviceKey = tracked.devices.keys := by
  rw [recordDevices, List.map_map]
  rfl

theorem recordOf_keys (tracked : Tracked) (closedAt : Int) :
    ((recordOf platform tracked closedAt).devices.map SessionDevice.deviceKey).Perm
      tracked.devices.keys := by
  have sorted := ((List.perm_insertionSort (fun left right : SessionDevice =>
    compareOrder left.deviceKey right.deviceKey) ((recordDevices platform tracked closedAt).map
      fun device => { device with spans := sortSpans device.spans })).map SessionDevice.deviceKey)
  rw [List.map_map] at sorted
  exact sorted.trans (.of_eq (recordDevices_keys tracked closedAt))

theorem mem_recordOf_devices {device : SessionDevice} {closedAt : Int}
    (member : device ∈ (recordOf platform tracked closedAt).devices) :
    ∃ held, tracked.devices.get? device.deviceKey = some held ∧
      device.spans.Perm (held.spans.map fun span =>
        ⟨platform.toISOString span.joinedAt, platform.toISOString (span.leftAt.getD closedAt)⟩) := by
  have unsorted := (List.perm_insertionSort _ _).mem_iff.mp member
  obtain ⟨before, listed, rfl⟩ := List.mem_map.mp unsorted
  obtain ⟨⟨key, held⟩, entry, rfl⟩ := List.mem_map.mp listed
  exact ⟨held, OrderedMap.get?_eq_some_iff.mpr entry, List.perm_insertionSort _ _⟩

theorem Tracked.Recounts.isPresence (recounts : tracked.Recounts life) (timed : life.Timed)
    (well : WellReported life.reports) (named : tracked.sessionId = life.sessionId) :
    IsPresence platform life (recordOf platform tracked life.closedAt) := by
  have keys := @recordOf_keys platform tracked life.closedAt
  refine ⟨named, ?_, rfl, ?_, ?_, ?_, appeared_ids, fun connection => timed.ordered well⟩
  · rw [← recounts.opened]
    rfl
  · exact keys.nodup_iff.mpr tracked.devices.distinct
  · intro key
    rw [keys.mem_iff, recounts.keys]
    constructor
    · rintro ⟨connection, inside, proven⟩
      obtain ⟨-, report, there, here⟩ := mem_appeared inside
      exact ⟨report, there, connection, here, proven⟩
    · rintro ⟨report, there, connection, here, proven⟩
      have known : connection.id ∈ (appeared life.reports).map SyncConnection.id :=
        (appeared_ids.2 connection.id).mpr ⟨report, there, connection, here, rfl, by simp [proven]⟩
      obtain ⟨first, inside, same⟩ := List.mem_map.mp known
      obtain ⟨-, earlier, before, within⟩ := mem_appeared inside
      have fixed := well.fixed earlier before report there first within connection here same
      exact ⟨first, inside, by rw [← proven, SyncConnection.provenKey, SyncConnection.provenKey, fixed]⟩
  · intro device member
    obtain ⟨held, found, spans⟩ := mem_recordOf_devices member
    rw [recounts.spans device.deviceKey held found, List.map_map] at spans
    exact spans

/-! ## The recorder and what it was told -/

/-- `seen` is what was reported since a session was last opened, and `lives` the sessions that have
ended, the last one first. -/
structure Watched where
  recorder : Recorder
  seen : List Report
  lives : List Life

def Watched.idle (now : Int) (documents : Documents) : Watched := ⟨.idle now documents, [], []⟩

/-- The open session, if it ended now. -/
def lifeSoFar (tracked : Tracked) (now : Int) (seen : List Report) : Life :=
  ⟨tracked.sessionId, tracked.openedAt, now, seen⟩

/-- An opening reports who is connected, unless it throws. -/
def seenAfter (state : Watched) : Action → List Report
  | .openSession sessionId _ connections =>
      if state.recorder.opened.isSome || (state.recorder.closing sessionId).isSome then state.seen
      else [⟨state.recorder.now, connections⟩]
  | .connectionsChanged connections => state.seen ++ [⟨state.recorder.now, connections⟩]
  | _ => state.seen

def livesAfter (state : Watched) : Action → List Life
  | .close _ | .flush =>
      match state.recorder.opened with
      | none => state.lives
      | some tracked => lifeSoFar tracked state.recorder.now state.seen :: state.lives
  | _ => state.lives

def watchedStep (platform : RecorderPlatform) (state : Watched) (action : Action) :
    Option Watched :=
  (step platform state.recorder action).map fun recorder =>
    ⟨recorder, seenAfter state action, livesAfter state action⟩

/-! ## The invariant -/

def Phase.record? : Phase → Option SessionRecord
  | .signing record | .storing record => some record
  | _ => none

def lifeOf (lives : List Life) (id : JsString) : Option Life :=
  lives.find? fun life => life.sessionId = id

/-- A closing session has kept the presence of the life it had, and so has its record. -/
structure Keeps (platform : RecorderPlatform) (life : Life) (closing : Closing) : Prop where
  named : closing.tracked.sessionId = life.sessionId
  closedAt : closing.closedAt = life.closedAt
  timed : life.Timed
  recounts : WellReported life.reports → closing.tracked.Recounts life
  signs : ∀ record, closing.phase.record? = some record → WellReported life.reports →
    IsPresence platform life record

structure Watching (platform : RecorderPlatform) (seen : List Report) (lives : List Life)
    (recorder : Recorder) : Prop where
  opened : ∀ tracked, recorder.opened = some tracked →
    (lifeSoFar tracked recorder.now seen).Timed ∧ (WellReported seen → Agrees seen tracked)
  closing : recorder.closing.All fun id closing =>
    ∃ life, lifeOf lives id = some life ∧ Keeps platform life closing
  stored : ∀ recordHash record, .stored recordHash record ∈ recorder.history →
    ∃ life ∈ lives, WellReported life.reports → IsPresence platform life record

variable {seen : List Report} {lives : List Life}

theorem lifeOf_sessionId (found : lifeOf lives id = some life) : life.sessionId = id := by
  simpa using List.find?_some found

theorem Keeps.withPhase {phase : Phase} (keeps : Keeps platform life closing)
    (same : ∀ record, phase.record? = some record → closing.phase.record? = some record) :
    Keeps platform life { closing with phase } :=
  ⟨keeps.named, keeps.closedAt, keeps.timed, keeps.recounts,
    fun record signs => keeps.signs record (same record signs)⟩

theorem Tracks.addClaim {openedAt : Int} {known : List SyncConnection}
    {left : JsString → Option Int} (tracks : Tracks openedAt known left tracked)
    (address : JsString) : Tracks openedAt known left (tracked.addClaim address) :=
  ⟨tracks.opened, tracks.keys, tracks.spans, tracks.live⟩

theorem Keeps.addClaim (keeps : Keeps platform life closing) (address : JsString) :
    Keeps platform life { closing with tracked := closing.tracked.addClaim address } :=
  ⟨keeps.named, keeps.closedAt, keeps.timed, fun well => (keeps.recounts well).addClaim address,
    keeps.signs⟩

/-! ## One step -/

theorem Watching.put (watching : Watching platform seen lives recorder)
    (found : lifeOf lives id = some life) (keeps : Keeps platform life closing) :
    Watching platform seen lives { recorder with closing := recorder.closing.put id closing } :=
  ⟨watching.opened, watching.closing.put ⟨life, found, keeps⟩, watching.stored⟩

theorem Watching.finish (watching : Watching platform seen lives recorder) (id : JsString) :
    Watching platform seen lives (recorder.finish id) :=
  ⟨watching.opened, watching.closing.remove, watching.stored⟩

theorem Watching.setPhase {phase : Phase} (watching : Watching platform seen lives recorder)
    (found : recorder.closing id = some closing)
    (same : ∀ record, phase.record? = some record → closing.phase.record? = some record) :
    Watching platform seen lives (recorder.setPhase id closing phase) := by
  obtain ⟨life, held, keeps⟩ := watching.closing id closing found
  exact watching.put held (keeps.withPhase same)

theorem Watching.startSigning {closedAt : Int} {phase : Phase}
    (watching : Watching platform seen lives recorder)
    (found : lifeOf lives tracked.sessionId = some life)
    (keeps : Keeps platform life ⟨tracked, closedAt, phase⟩) :
    Watching platform seen lives (startSigning platform recorder tracked closedAt) := by
  rw [Sessions.startSigning]
  split
  · refine watching.put found ⟨keeps.named, keeps.closedAt, keeps.timed, keeps.recounts, ?_⟩
    intro record signs well
    cases signs
    have closed : closedAt = life.closedAt := keeps.closedAt
    rw [closed]
    exact (keeps.recounts well).isPresence keeps.timed well keeps.named
  · exact watching.finish _

theorem Watching.listOn {url recordHash : JsString} {claims statements : List JsString}
    (watching : Watching platform seen lives recorder) :
    Watching platform seen lives (listOn recorder url recordHash claims statements) := by
  rw [Sessions.listOn]
  split
  · refine ⟨watching.opened, watching.closing, ?_⟩
    intro hash record member
    obtain same | before := List.mem_cons.mp member
    · cases same
    · exact watching.stored hash record before
  · exact watching

theorem listOn_closing {url recordHash : JsString} {claims statements : List JsString} :
    (listOn recorder url recordHash claims statements).closing = recorder.closing := by
  rw [listOn]
  split <;> rfl

theorem Watching.resumeListing {recordHash : JsString} {claims : List JsString}
    (remaining : Option (List (Option JsString)))
    (watching : Watching platform seen lives recorder)
    (found : recorder.closing id = some closing) :
    Watching platform seen lives (resumeListing recorder id closing recordHash claims remaining) := by
  have advance {later : Recorder} (rest : Option (List (Option JsString)))
      (watching : Watching platform seen lives later) (kept : later.closing = recorder.closing) :
      Watching platform seen lives (later.setPhase id closing (.listing recordHash claims rest)) :=
    watching.setPhase (kept ▸ found) fun record absent => by cases absent
  match remaining with
  | none =>
      simp only [Sessions.resumeListing]
      split
      · exact watching.finish id
      · exact advance _ watching rfl
  | some [] => exact watching.finish id
  | some (none :: rest) => exact advance _ watching rfl
  | some (some url :: rest) =>
      simp only [Sessions.resumeListing]
      split
      · exact advance _ watching.listOn listOn_closing
      · exact advance _ watching rfl

theorem Watching.resume (watching : Watching platform seen lives recorder)
    (found : recorder.closing id = some closing)
    (resumed : resume platform recorder id closing = some next) :
    Watching platform seen lives next := by
  obtain ⟨life, held, keeps⟩ := watching.closing id closing found
  have named : life.sessionId = id := lifeOf_sessionId held
  obtain ⟨tracked, closedAt, phase⟩ := closing
  cases phase with
  | grace deadline skipped =>
      simp only [Sessions.resume] at resumed
      split at resumed
      · cases resumed
        have is : tracked.sessionId = id := keeps.named.trans named
        exact watching.startSigning (is ▸ held) keeps
      · cases resumed
  | signing record =>
      cases resumed
      exact watching.setPhase found fun other signs => signs
  | storing record =>
      cases resumed
      refine Watching.setPhase ⟨watching.opened, watching.closing, ?_⟩ found ?_
      · intro hash other member
        obtain other' | member := List.mem_cons.mp member
        · cases other'
        · obtain same | before := List.mem_cons.mp member
          · cases same
            exact ⟨life, List.mem_of_find?_eq_some held, keeps.signs record rfl⟩
          · exact watching.stored hash other before
      · intro other absent
        cases absent
  | listing recordHash claims remaining =>
      cases resumed
      exact watching.resumeListing remaining found

theorem Watching.fail (watching : Watching platform seen lives recorder)
    (found : recorder.closing id = some closing)
    (failed : fail recorder id closing = some next) : Watching platform seen lives next := by
  simp only [Sessions.fail] at failed
  split at failed
  · cases failed
  · cases failed
    exact watching.finish id
  · cases failed
    exact watching.finish id
  · cases failed
    exact watching.setPhase found fun record absent => by cases absent
  · cases failed
    exact watching.finish id

theorem Life.Timed.wait {later : Int} (timed : (lifeSoFar tracked now seen).Timed)
    (waited : now ≤ later) : (lifeSoFar tracked later seen).Timed := by
  refine ⟨timed.sorted, ?_, le_trans timed.opened waited⟩
  intro report inside
  exact ⟨(timed.within report inside).1, le_trans (timed.within report inside).2 waited⟩

theorem Life.Timed.reported (timed : (lifeSoFar tracked now seen).Timed)
    (connections : List SyncConnection) :
    (lifeSoFar tracked now (seen ++ [⟨now, connections⟩])).Timed := by
  refine ⟨?_, ?_, timed.opened⟩
  · refine List.pairwise_append.mpr ⟨timed.sorted, List.pairwise_singleton .., ?_⟩
    intro earlier inside last here
    rw [List.mem_singleton.mp here]
    exact (timed.within earlier inside).2
  · intro report inside
    obtain before | last := List.mem_append.mp inside
    · exact timed.within report before
    · rw [List.mem_singleton.mp last]
      exact ⟨timed.opened, le_refl _⟩

/-- A report to a session, which may be the one at its opening. -/
theorem opened_track {connections : List SyncConnection}
    (timed : (lifeSoFar tracked now seen).Timed) (agrees : WellReported seen → Agrees seen tracked) :
    (lifeSoFar (track tracked now connections) now (seen ++ [⟨now, connections⟩])).Timed ∧
      (WellReported (seen ++ [⟨now, connections⟩]) →
        Agrees (seen ++ [⟨now, connections⟩]) (track tracked now connections)) := by
  constructor
  · have timed' := timed.reported connections
    refine ⟨timed'.sorted, ?_, ?_⟩
    · intro report inside
      rw [lifeSoFar, track_openedAt]
      exact timed'.within report inside
    · rw [lifeSoFar, track_openedAt]
      exact timed'.opened
  · intro well
    exact (agrees (well.sublist (List.sublist_append_left ..))).track well

theorem agrees_opened (sessionId docUrl : JsString) (now : Int) :
    Agrees [] ⟨sessionId, now, docUrl, .empty, [], []⟩ := by
  refine ⟨rfl, ?_, ?_, ?_⟩
  · intro key
    simp [OrderedMap.keys, appeared]
  · intro key device found
    cases found
  · intro id
    simp [appeared]

theorem Watching.openSession {sessionId docUrl : JsString} {connections : List SyncConnection}
    (watching : Watching platform seen lives recorder) :
    Watching platform (seenAfter ⟨recorder, seen, lives⟩ (.openSession sessionId docUrl connections))
      lives (openSession recorder sessionId docUrl connections) := by
  simp only [Sessions.openSession, seenAfter]
  split
  · exact watching
  · refine ⟨?_, watching.closing, watching.stored⟩
    intro tracked found
    cases found
    refine @opened_track ⟨sessionId, recorder.now, docUrl, .empty, [], []⟩ recorder.now []
      connections ?_ fun _ => agrees_opened sessionId docUrl recorder.now
    refine ⟨List.Pairwise.nil, ?_, le_refl _⟩
    intro report absent
    cases absent

theorem Watching.connectionsChanged {connections : List SyncConnection}
    (watching : Watching platform seen lives recorder) :
    Watching platform (seen ++ [⟨recorder.now, connections⟩]) lives
      (connectionsChanged recorder connections) := by
  refine ⟨?_, watching.closing, watching.stored⟩
  intro tracked found
  obtain ⟨before, held, rfl⟩ := Option.map_eq_some_iff.mp found
  obtain ⟨timed, agrees⟩ := watching.opened before held
  exact opened_track timed agrees

theorem Watching.claimVerified {claim : RecordingClaim} {claimAddress : JsString}
    (watching : Watching platform seen lives recorder) :
    Watching platform seen lives (claimVerified recorder claim claimAddress) := by
  simp only [Sessions.claimVerified]
  split
  · rename_i tracked found
    refine ⟨?_, watching.closing, watching.stored⟩
    intro added same
    cases same
    obtain ⟨timed, agrees⟩ := watching.opened tracked (Option.filter_eq_some_iff.mp found).1
    exact ⟨⟨timed.sorted, timed.within, timed.opened⟩, fun well =>
      Tracks.addClaim (agrees well) claimAddress⟩
  · refine ⟨watching.opened, watching.closing.modify ?_, watching.stored⟩
    intro closing found
    obtain ⟨life, held, keeps⟩ := watching.closing _ closing found
    exact ⟨life, held, keeps.addClaim claimAddress⟩

/-- The open session ends, and what closes under its id makes way for it. -/
theorem Watching.ended (watching : Watching platform seen lives recorder) (tracked : Tracked) :
    Watching platform seen (lifeSoFar tracked recorder.now seen :: lives)
      { recorder with opened := none, closing := recorder.closing.remove tracked.sessionId } := by
  refine ⟨?_, ?_, ?_⟩
  · intro stillOpen absent
    cases absent
  · intro id closing found
    replace found : recorder.closing.remove tracked.sessionId id = some closing := found
    by_cases same : id = tracked.sessionId
    · rw [same, Table.remove_self] at found
      cases found
    · rw [Table.remove_other same] at found
      obtain ⟨life, held, keeps⟩ := watching.closing id closing found
      refine ⟨life, ?_, keeps⟩
      rw [lifeOf, List.find?_cons_of_neg fun named => same (of_decide_eq_true named).symm]
      exact held
  · intro recordHash record member
    obtain ⟨life, inside, presence⟩ := watching.stored recordHash record member
    exact ⟨life, List.mem_cons_of_mem _ inside, presence⟩

theorem foldl_endSpan_sessionId (leftAt : Int) (tracked : Tracked) (ids : List JsString) :
    (ids.foldl (endSpan leftAt) tracked).sessionId = tracked.sessionId :=
  congrArg Prod.fst (foldl_endSpan_name leftAt tracked ids)

theorem startSigning_remove (tracked : Tracked) (closedAt : Int) :
    startSigning platform
      { recorder with closing := recorder.closing.remove tracked.sessionId } tracked closedAt =
        startSigning platform recorder tracked closedAt := by
  rw [startSigning, startSigning]
  split
  · simp [Recorder.putClosing, Table.put, Table.remove, Function.update_idem]
  · simp [Table.remove, Function.update_idem]

theorem Watching.close {graceMs : Nat} (watching : Watching platform seen lives recorder) :
    Watching platform seen (livesAfter ⟨recorder, seen, lives⟩ (.close graceMs))
      (close platform recorder graceMs) := by
  cases found : recorder.opened with
  | none =>
      simp only [Sessions.close, livesAfter, found]
      exact watching
  | some tracked =>
      obtain ⟨timed, agrees⟩ := watching.opened tracked found
      have ended := watching.ended tracked
      let left := tracked.live.foldl (endSpan recorder.now) tracked
      have named : left.sessionId = tracked.sessionId :=
        foldl_endSpan_sessionId recorder.now tracked tracked.live
      have life : lifeOf (lifeSoFar tracked recorder.now seen :: lives) left.sessionId =
          some (lifeSoFar tracked recorder.now seen) := by
        rw [named]
        simp [lifeOf, lifeSoFar]
      have keeps : Keeps platform (lifeSoFar tracked recorder.now seen)
          ⟨left, recorder.now, .grace (recorder.now + graceMs) false⟩ :=
        ⟨named, rfl, timed, fun well => (agrees well).ended rfl, fun record absent => by cases absent⟩
      simp only [Sessions.close, livesAfter, found]
      split
      · have signing := ended.startSigning life keeps
        rw [← named] at signing
        exact @startSigning_remove platform { recorder with opened := none } left recorder.now ▸ signing
      · have waiting := ended.put life keeps
        rw [← named] at waiting
        simpa only [Recorder.putClosing, Table.put, Table.remove, Function.update_idem] using waiting

theorem Watching.flush (watching : Watching platform seen lives recorder) :
    Watching platform seen (livesAfter ⟨recorder, seen, lives⟩ .flush)
      (flush platform recorder) := by
  have closed : Watching platform seen (livesAfter ⟨recorder, seen, lives⟩ .flush)
      (Sessions.close platform recorder 0) := watching.close
  refine ⟨closed.opened, ?_, closed.stored⟩
  intro id closing found
  obtain ⟨before, held, rfl⟩ := Option.map_eq_some_iff.mp found
  obtain ⟨life, ended, keeps⟩ := closed.closing id before held
  refine ⟨life, ended, ?_⟩
  obtain ⟨tracked, closedAt, phase⟩ := before
  cases phase with
  | grace deadline skipped => exact keeps.withPhase fun record absent => by cases absent
  | signing | storing | listing => exact keeps

theorem Watching.step {state later : Watched} {action : Action}
    (watching : Watching platform state.seen state.lives state.recorder)
    (taken : watchedStep platform state action = some later) :
    Watching platform later.seen later.lives later.recorder := by
  obtain ⟨recorder, stepped, rfl⟩ := Option.map_eq_some_iff.mp taken
  cases action with
  | tick elapsed =>
      cases stepped
      refine ⟨?_, watching.closing, watching.stored⟩
      intro tracked found
      obtain ⟨timed, agrees⟩ := watching.opened tracked found
      exact ⟨timed.wait (by dsimp only; omega), agrees⟩
  | setRunning | editDocuments =>
      cases stepped
      exact ⟨watching.opened, watching.closing, watching.stored⟩
  | openSession sessionId docUrl connections =>
      cases stepped
      exact watching.openSession
  | connectionsChanged connections =>
      cases stepped
      exact watching.connectionsChanged
  | claimVerified claim claimAddress =>
      simp only [Sessions.step] at stepped
      split at stepped
      · cases stepped
        exact watching.claimVerified
      · cases stepped
  | close graceMs =>
      cases stepped
      exact watching.close
  | flush =>
      cases stepped
      exact watching.flush
  | resume sessionId =>
      obtain ⟨closing, found, resumed⟩ := Option.bind_eq_some_iff.mp stepped
      exact watching.resume found resumed
  | fail sessionId =>
      obtain ⟨closing, found, failed⟩ := Option.bind_eq_some_iff.mp stepped
      exact watching.fail found failed

/-! ## Runs -/

theorem watching_idle (now : Int) (documents : Documents) :
    Watching platform [] [] (.idle now documents) := by
  refine ⟨?_, Table.all_empty, ?_⟩
  · intro tracked absent
    cases absent
  · intro recordHash record absent
    cases absent

/-- In every run whose reports are in order, a record that is signed or stored is the presence in a
session that has ended, and a closing session's record that of the session it closes. -/
theorem signed_spans_are_the_presence (platform : RecorderPlatform) (now : Int)
    (documents : Documents) (state : Watched)
    (reached : Reaches (watchedStep platform) anyAction (.idle now documents) state)
    (well : ∀ life ∈ state.lives, WellReported life.reports) :
    (∀ id closing record, state.recorder.closing id = some closing →
      closing.phase.record? = some record →
        ∃ life, lifeOf state.lives id = some life ∧ IsPresence platform life record) ∧
    ∀ recordHash record, .stored recordHash record ∈ state.recorder.history →
      ∃ life ∈ state.lives, IsPresence platform life record := by
  have watching : Watching platform state.seen state.lives state.recorder :=
    reached.invariant (fun state => Watching platform state.seen state.lives state.recorder)
      (watching_idle now documents) fun _ watching _ taken => watching.step taken
  constructor
  · intro id closing record found signs
    obtain ⟨life, held, keeps⟩ := watching.closing id closing found
    exact ⟨life, held, keeps.signs record signs (well life (List.mem_of_find?_eq_some held))⟩
  · intro recordHash record stored
    obtain ⟨life, inside, presence⟩ := watching.stored recordHash record stored
    exact ⟨life, inside, presence (well life inside)⟩

def hostConnection : SyncConnection := ⟨js "c1", some (js "host"), none, -30⟩

def phoneConnection : SyncConnection := ⟨js "c2", some (js "phone"), some (js "Phone"), 5⟩

def laptopConnection : SyncConnection := ⟨js "c3", none, some (js "Laptop"), 5⟩

def sampleReports : List Report :=
  [⟨0, [hostConnection]⟩, ⟨5, [hostConnection, phoneConnection, laptopConnection]⟩,
    ⟨10, [hostConnection, laptopConnection]⟩]

def presenceActions : List Action :=
  [.openSession (js "one") (js "root") [hostConnection], .tick 5,
    .connectionsChanged [hostConnection, phoneConnection, laptopConnection], .tick 5,
    .connectionsChanged [hostConnection, laptopConnection], .tick 50, .close 0]

def presencePlatform : RecorderPlatform :=
  { samplePlatform with toISOString := fun time => [UInt16.ofNat time.toNat] }

theorem sampleReports_well : WellReported sampleReports := by
  refine ⟨?_, by decide +kernel, by decide +kernel⟩
  intro first between last id there
  cases there.eq_of_length rfl
  decide +revert

/-- The host is there all along and the phone between two reports, and the laptop proved no key. -/
theorem host_and_phone_were_there : ∃ (state : Watched) (closing : Closing) (record : SessionRecord),
    state.recorder.closing (js "one") = some closing ∧ closing.phase.record? = some record ∧
      record.devices = [⟨js "host", none, [⟨[0], [60]⟩]⟩, ⟨js "phone", some (js "Phone"), [⟨[5], [10]⟩]⟩] ∧
      ∃ life, lifeOf state.lives (js "one") = some life ∧
        IsPresence presencePlatform life record := by
  have lives : (run (watchedStep presencePlatform) (.idle 0 sampleDocuments) presenceActions).map
      Watched.lives = some [⟨js "one", 0, 60, sampleReports⟩] := by decide +kernel
  have signs : (run (watchedStep presencePlatform) (.idle 0 sampleDocuments) presenceActions).bind
      (fun state => (state.recorder.closing (js "one")).bind fun closing =>
        closing.phase.record?.map SessionRecord.devices) = some
          [⟨js "host", none, [⟨[0], [60]⟩]⟩, ⟨js "phone", some (js "Phone"), [⟨[5], [10]⟩]⟩] := by
    decide +kernel
  obtain ⟨state, ran, ended⟩ := Option.map_eq_some_iff.mp lives
  simp only [ran, Option.bind_some] at signs
  obtain ⟨closing, found, signs⟩ := Option.bind_eq_some_iff.mp signs
  obtain ⟨record, made, devices⟩ := Option.map_eq_some_iff.mp signs
  refine ⟨state, closing, record, found, made, devices, ?_⟩
  refine (signed_spans_are_the_presence presencePlatform 0 sampleDocuments state
    (.of_run ran (meetsAlong_anyAction _ _)) ?_).1 (js "one") closing record found made
  intro life inside
  rw [ended, List.mem_singleton] at inside
  rw [inside]
  exact sampleReports_well

end Tapes.Sessions
