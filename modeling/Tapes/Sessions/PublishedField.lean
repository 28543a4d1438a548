import Tapes.Sessions.HostSession

namespace Tapes.Sessions

open Tapes.Js Tapes.Provenance Tapes.Machine

/-! The session fields of the root documents follow the recorder: a field that names another session
than the open one has a `stop` on its way to clear it. -/

variable {platform : RecorderPlatform} {recorder next : Recorder} {host later : HostSession}
  {call : CallId} {docUrl sessionId id : JsString} {connections : List SyncConnection}
  {closing : Closing}

/-! ## What the recorder's other steps leave alone -/

/-- What a published session says of the session behind it. -/
def Tracked.name (tracked : Tracked) : JsString × Int × JsString :=
  (tracked.sessionId, tracked.openedAt, tracked.docUrl)

theorem foldl_endSpan_name (leftAt : Int) (tracked : Tracked) (ids : List JsString) :
    (ids.foldl (endSpan leftAt) tracked).name = tracked.name := by
  induction ids generalizing tracked with
  | nil => rfl
  | cons id rest induction =>
      rw [List.foldl_cons, induction]
      rfl

theorem joinDevice_name (tracked : Tracked) (connection : SyncConnection) :
    (joinDevice tracked connection).name = tracked.name := by
  simp only [joinDevice]
  split
  · rfl
  · split <;> rfl

theorem foldl_joinDevice_name (tracked : Tracked) (connections : List SyncConnection) :
    (connections.foldl joinDevice tracked).name = tracked.name := by
  induction connections generalizing tracked with
  | nil => rfl
  | cons connection rest induction => rw [List.foldl_cons, induction, joinDevice_name]

theorem track_name (tracked : Tracked) (now : Int) (connections : List SyncConnection) :
    (track tracked now connections).name = tracked.name := by
  simp only [track]
  rw [foldl_endSpan_name, foldl_joinDevice_name]

theorem startSigning_opened (tracked : Tracked) (closedAt : Int) :
    (startSigning platform recorder tracked closedAt).opened = recorder.opened := by
  rw [startSigning]
  split <;> rfl

theorem close_opened (graceMs : Nat) : (close platform recorder graceMs).opened = none := by
  simp only [close]
  split
  · rename_i none
    exact none
  · split
    · exact startSigning_opened _ _
    · rfl

theorem openSession_opened (docUrl : JsString) (connections : List SyncConnection) (free : recorder.opened.isSome = false)
    (settled : (recorder.closing sessionId).isSome = false) :
    (openSession recorder sessionId docUrl connections).opened.map Tracked.name =
      some (sessionId, recorder.now, docUrl) := by
  simp only [openSession, free, settled, Bool.or_self, Bool.false_eq_true, if_false,
    Option.map_some, track_name]
  rfl

theorem claimVerified_name (claim : RecordingClaim) (claimAddress : JsString) :
    (claimVerified recorder claim claimAddress).opened.map Tracked.name =
      recorder.opened.map Tracked.name := by
  simp only [claimVerified]
  split
  · rename_i tracked found
    rw [(Option.filter_eq_some_iff.mp found).1]
    rfl
  · rfl

theorem resumeListing_opened (recordHash : JsString) (claims : List JsString)
    (remaining : Option (List (Option JsString))) :
    (resumeListing recorder id closing recordHash claims remaining).opened = recorder.opened := by
  have listed (url : JsString) (statements : List JsString) :
      (listOn recorder url recordHash claims statements).opened = recorder.opened := by
    rw [listOn]
    split <;> rfl
  match remaining with
  | none =>
      simp only [resumeListing]
      split <;> rfl
  | some [] => rfl
  | some (none :: rest) => rfl
  | some (some url :: rest) =>
      simp only [resumeListing]
      split
      · exact listed _ _
      · rfl

theorem resume_opened (resumed : resume platform recorder id closing = some next) :
    next.opened = recorder.opened := by
  simp only [resume] at resumed
  split at resumed
  · split at resumed
    · cases resumed
      exact startSigning_opened _ _
    · cases resumed
  · cases resumed
    rfl
  · cases resumed
    rfl
  · cases resumed
    exact resumeListing_opened _ _ _

theorem fail_opened (failed : fail recorder id closing = some next) :
    next.opened = recorder.opened := by
  simp only [fail] at failed
  split at failed <;> cases failed <;> rfl

/-- Of the recorder's steps only `openSession`, `close` and `flush` change which session is
open. -/
theorem hostStep_recorder {action : Action}
    (taken : hostStep platform host (.recorder action) = some later) :
    ∃ recorder, later = { host with recorder } ∧
      recorder.opened.map Tracked.name = host.recorder.opened.map Tracked.name := by
  cases action with
  | openSession sessionId docUrl connections => cases taken
  | close graceMs => cases taken
  | flush => cases taken
  | tick elapsed =>
      cases taken
      exact ⟨_, rfl, rfl⟩
  | setRunning running =>
      cases taken
      exact ⟨_, rfl, rfl⟩
  | editDocuments documents =>
      cases taken
      exact ⟨_, rfl, rfl⟩
  | connectionsChanged connections =>
      cases taken
      refine ⟨_, rfl, ?_⟩
      simp only [connectionsChanged, Option.map_map]
      congr 1
      funext tracked
      exact track_name tracked _ _
  | claimVerified claim claimAddress =>
      obtain ⟨recorder, stepped, rfl⟩ := Option.map_eq_some_iff.mp taken
      simp only [step] at stepped
      split at stepped
      · cases stepped
        exact ⟨_, rfl, claimVerified_name claim claimAddress⟩
      · cases stepped
  | resume sessionId =>
      obtain ⟨recorder, stepped, rfl⟩ := Option.map_eq_some_iff.mp taken
      obtain ⟨closing, _, resumed⟩ := Option.bind_eq_some_iff.mp stepped
      exact ⟨_, rfl, by rw [resume_opened resumed]⟩
  | fail sessionId =>
      obtain ⟨recorder, stepped, rfl⟩ := Option.map_eq_some_iff.mp taken
      obtain ⟨closing, _, failed⟩ := Option.bind_eq_some_iff.mp stepped
      exact ⟨_, rfl, by rw [fail_opened failed]⟩

/-! ## The invariant -/

/-- What the field of an open session's document holds, from the session's name. -/
def shownAs (platform : RecorderPlatform) (name : JsString × Int × JsString) : PublishedSession :=
  ⟨name.1, platform.toISOString name.2.1⟩

/-- It speaks of the open session only through its name. -/
structure FollowsOpen (platform : RecorderPlatform) (name : Option (JsString × Int × JsString))
    (host : HostSession) : Prop where
  published : host.publishedIn = name.map fun each => ⟨each.1, each.2.2⟩
  shown : ∀ each, name = some each → host.session each.2.2 = some (shownAs platform each)
  others : ∀ docUrl field, host.session docUrl = some field →
    (∃ each, name = some each ∧ each.2.2 = docUrl) ∨
      ∃ call signsAt, host.calls call = some (.stopping ⟨field.sessionId, docUrl⟩ signsAt)
  openId : ∀ each, name = some each → each.1 ∈ host.sessionIds
  stoppingId : ∀ call target signsAt, host.calls call = some (.stopping target signsAt) →
    target.sessionId ∈ host.sessionIds ∧ ∀ each, name = some each → each.1 ≠ target.sessionId

abbrev Follows (platform : RecorderPlatform) (host : HostSession) : Prop :=
  FollowsOpen platform (host.recorder.opened.map Tracked.name) host

variable {name : Option (JsString × Int × JsString)} {waiting : SessionCall}

theorem follows_created (recorder : Recorder) (none : recorder.opened = none) :
    Follows platform (HostSession.created recorder) := by
  constructor
  · rw [HostSession.created, none]
    rfl
  · intro each found
    rw [HostSession.created, none] at found
    cases found
  · intro docUrl field found
    cases found
  · intro each found
    rw [HostSession.created, none] at found
    cases found
  · intro call target signsAt found
    cases found

/-- A call that is no `stop` comes or goes. -/
theorem FollowsOpen.withCalls {calls : Table CallId SessionCall}
    (follows : FollowsOpen platform name host)
    (same : ∀ call target signsAt, calls call = some (.stopping target signsAt) ↔
      host.calls call = some (.stopping target signsAt)) (answers : List (CallId × SessionAnswer)) :
    FollowsOpen platform name { host with calls, answers } := by
  refine ⟨follows.published, follows.shown, ?_, follows.openId, ?_⟩
  · intro docUrl field found
    cases follows.others docUrl field found with
    | inl here => exact .inl here
    | inr stopping =>
        obtain ⟨call, signsAt, waits⟩ := stopping
        exact .inr ⟨call, signsAt, (same call _ signsAt).mpr waits⟩
  · intro call target signsAt waits
    exact follows.stoppingId call target signsAt ((same call target signsAt).mp waits)

theorem stopping_put (idle : ∀ target signsAt, host.calls call ≠ some (.stopping target signsAt))
    (other : ∀ target signsAt, waiting ≠ .stopping target signsAt) (each : CallId)
    (target : PublishedIn) (signsAt : JsString) :
    host.calls.put call waiting each = some (.stopping target signsAt) ↔
      host.calls each = some (.stopping target signsAt) := by
  by_cases same : each = call
  · subst same
    rw [Table.put_self, Option.some.injEq]
    exact ⟨fun stops => absurd stops (other target signsAt),
      fun waits => absurd waits (idle target signsAt)⟩
  · rw [Table.put_other same]

theorem stopping_remove
    (idle : ∀ target signsAt, host.calls call ≠ some (.stopping target signsAt)) (each : CallId)
    (target : PublishedIn) (signsAt : JsString) :
    host.calls.remove call each = some (.stopping target signsAt) ↔
      host.calls each = some (.stopping target signsAt) := by
  by_cases same : each = call
  · subst same
    rw [Table.remove_self]
    exact ⟨fun gone => (by cases gone), fun waits => absurd waits (idle target signsAt)⟩
  · rw [Table.remove_other same]

theorem FollowsOpen.answer (follows : FollowsOpen platform name host)
    (idle : ∀ target signsAt, host.calls call ≠ some (.stopping target signsAt))
    (result : SessionAnswer) : FollowsOpen platform name (host.answer call result) :=
  follows.withCalls (stopping_remove idle) _

theorem FollowsOpen.park (follows : FollowsOpen platform name host)
    (idle : ∀ target signsAt, host.calls call ≠ some (.stopping target signsAt))
    (other : ∀ target signsAt, waiting ≠ .stopping target signsAt) :
    FollowsOpen platform name (host.park call waiting) :=
  follows.withCalls (stopping_put idle other) host.answers

/-- An id that is given and not used. -/
theorem FollowsOpen.named (follows : FollowsOpen platform name host) (sessionId : JsString) :
    FollowsOpen platform name { host with sessionIds := sessionId :: host.sessionIds } := by
  refine ⟨follows.published, follows.shown, follows.others, ?_, ?_⟩
  · intro each found
    exact List.mem_cons_of_mem _ (follows.openId each found)
  · intro call target signsAt waits
    obtain ⟨known, apart⟩ := follows.stoppingId call target signsAt waits
    exact ⟨List.mem_cons_of_mem _ known, apart⟩

/-! ## One step -/

theorem not_stopping_of_none (none : host.calls call = none) (target : PublishedIn)
    (signsAt : JsString) : host.calls call ≠ some (.stopping target signsAt) := by
  rw [none]
  simp

theorem not_stopping_of_eq (waits : host.calls call = some waiting)
    (other : ∀ target signsAt, waiting ≠ .stopping target signsAt) (target : PublishedIn)
    (signsAt : JsString) : host.calls call ≠ some (.stopping target signsAt) := by
  rw [waits]
  exact fun same => other target signsAt (Option.some.inj same)

theorem Follows.start (follows : Follows platform host) (idle : host.calls call = none) :
    Follows platform (start host call docUrl) := by
  simp only [Sessions.start]
  split
  · exact FollowsOpen.answer follows (not_stopping_of_none idle) _
  · exact FollowsOpen.park follows (not_stopping_of_none idle) (fun _ _ => SessionCall.noConfusion)

theorem Follows.started (follows : Follows platform host)
    (waits : host.calls call = some (.starting docUrl)) (new : sessionId ∉ host.sessionIds) :
    Follows platform (started platform host call docUrl sessionId connections) := by
  have idle := not_stopping_of_eq waits fun _ _ => SessionCall.noConfusion
  simp only [Sessions.started]
  split
  · exact (FollowsOpen.named follows sessionId).answer idle _
  · rename_i free
    simp only [Bool.or_eq_true, not_or, Bool.not_eq_true] at free
    obtain ⟨closed, settled⟩ := free
    have was : host.recorder.opened.map Tracked.name = none := by
      rw [Option.map_eq_none_iff]
      exact Option.not_isSome_iff_eq_none.mp (by simp [closed])
    have opened := openSession_opened docUrl connections closed settled
    have still (each : CallId) (target : PublishedIn) (signsAt : JsString) :=
      stopping_remove idle each target signsAt
    simp only [Follows, HostSession.answer, opened]
    refine ⟨rfl, ?_, ?_, ?_, ?_⟩
    · intro each found
      cases found
      exact Table.put_self
    · intro other field found
      by_cases same : other = docUrl
      · exact .inl ⟨_, rfl, same.symm⟩
      · have held : host.session other = some field := (Table.put_other same).symm.trans found
        cases follows.others other field held with
        | inl here =>
            obtain ⟨each, isOpen, _⟩ := here
            rw [was] at isOpen
            cases isOpen
        | inr stopping =>
            obtain ⟨stopper, signsAt, stops⟩ := stopping
            exact .inr ⟨stopper, signsAt, (still stopper _ signsAt).mpr stops⟩
    · intro each found
      cases found
      exact List.mem_cons_self
    · intro stopper target signsAt stops
      have known := (follows.stoppingId stopper target signsAt
        ((still stopper target signsAt).mp stops)).1
      refine ⟨List.mem_cons_of_mem _ known, ?_⟩
      intro each found
      cases found
      intro same
      exact new ((show sessionId = target.sessionId from same) ▸ known)

theorem Follows.stop {graceMs : Nat} (follows : Follows platform host)
    (idle : host.calls call = none) : Follows platform (stop platform host call graceMs) := by
  simp only [Sessions.stop]
  split
  · exact FollowsOpen.answer follows (not_stopping_of_none idle) _
  · rename_i tracked isOpen
    have name : host.recorder.opened.map Tracked.name = some tracked.name := by rw [isOpen]; rfl
    rw [Follows, name] at follows
    have target : host.publishedIn = some ⟨tracked.sessionId, tracked.docUrl⟩ := follows.published
    have shown := follows.shown _ rfl
    simp only [target, ne_eq, not_true_eq_false, if_false, Follows, HostSession.park, close_opened]
    refine ⟨rfl, ?_, ?_, ?_, ?_⟩
    · intro each found
      cases found
    · intro other field found
      cases follows.others other field found with
      | inl here =>
          obtain ⟨each, isEach, same⟩ := here
          cases isEach
          have is_shown := found.symm.trans (same ▸ shown)
          cases is_shown
          subst same
          exact .inr ⟨call, _, Table.put_self⟩
      | inr stopping =>
          obtain ⟨stopper, signsAt, stops⟩ := stopping
          have different : stopper ≠ call := by
            intro same
            rw [same, idle] at stops
            cases stops
          exact .inr ⟨stopper, signsAt, (Table.put_other different).trans stops⟩
    · intro each found
      cases found
    · intro stopper other signsAt stops
      refine ⟨?_, fun each found => nomatch found⟩
      by_cases same : stopper = call
      · rw [same] at stops
        cases Table.put_self.symm.trans stops
        exact follows.openId _ rfl
      · exact (follows.stoppingId stopper other signsAt ((Table.put_other same).symm.trans stops)).1

/-- A call that ends, with the field of one document gone.  The field was not the open session's,
and no other call's field is still there. -/
theorem FollowsOpen.removed (follows : FollowsOpen platform name host)
    (foreign : ∀ each, name = some each → each.2.2 ≠ docUrl) (result : SessionAnswer)
    (gone : ∀ target signsAt, host.calls call = some (.stopping target signsAt) →
      target.docUrl = docUrl) :
    FollowsOpen platform name
      ({ host with session := host.session.remove docUrl }.answer call result) := by
  refine ⟨follows.published, ?_, ?_, follows.openId, ?_⟩
  · intro each found
    exact (Table.remove_other (foreign each found)).trans (follows.shown each found)
  · intro other field found
    by_cases same : other = docUrl
    · rw [same] at found
      cases found.symm.trans Table.remove_self
    · have held : host.session other = some field := (Table.remove_other same).symm.trans found
      cases follows.others other field held with
      | inl here => exact .inl here
      | inr stopping =>
          obtain ⟨stopper, signsAt, stops⟩ := stopping
          have different : stopper ≠ call := by
            intro this
            rw [this] at stops
            exact same (gone _ signsAt stops)
          exact .inr ⟨stopper, signsAt, (Table.remove_other different).trans stops⟩
  · intro stopper target signsAt stops
    by_cases same : stopper = call
    · rw [same] at stops
      cases stops.symm.trans Table.remove_self
    · exact follows.stoppingId stopper target signsAt ((Table.remove_other same).symm.trans stops)

theorem Follows.stopped {target : PublishedIn} {signsAt : JsString}
    (follows : Follows platform host) (waits : host.calls call = some (.stopping target signsAt)) :
    Follows platform (stopped host call target signsAt) := by
  have apart := (follows.stoppingId call target signsAt waits).2
  simp only [Sessions.stopped]
  split
  · rename_i same
    apply FollowsOpen.removed follows
    · intro each found here
      have shown := follows.shown each found
      rw [here] at shown
      rw [shown, Option.map_some, Option.some.injEq] at same
      exact apart each found same
    · intro other other_time stops
      cases waits.symm.trans stops
      rfl
  · rename_i different
    refine ⟨follows.published, follows.shown, ?_, follows.openId, ?_⟩
    · intro other field found
      cases follows.others other field found with
      | inl here => exact .inl here
      | inr stopping =>
          obtain ⟨stopper, stopper_time, stops⟩ := stopping
          have another : stopper ≠ call := by
            intro this
            rw [this] at stops
            cases waits.symm.trans stops
            exact different (by rw [show host.session other = some field from found]; rfl)
          exact .inr ⟨stopper, stopper_time, (Table.remove_other another).trans stops⟩
    · intro stopper other other_time stops
      by_cases same : stopper = call
      · rw [same] at stops
        cases stops.symm.trans Table.remove_self
      · exact follows.stoppingId stopper other other_time
          ((Table.remove_other same).symm.trans stops)

theorem Follows.cleared (follows : Follows platform host)
    (waits : host.calls call = some (.clearing docUrl)) :
    Follows platform (cleared host call docUrl) := by
  have idle := not_stopping_of_eq waits fun _ _ => SessionCall.noConfusion
  simp only [Sessions.cleared]
  split
  · exact FollowsOpen.answer follows idle _
  · rename_i stale isStale
    split
    · exact FollowsOpen.answer follows idle _
    · rename_i foreign
      apply FollowsOpen.removed follows
      · intro each found here
        have shown := follows.shown each found
        rw [here, isStale, Option.some.injEq] at shown
        obtain ⟨tracked, isOpen, named⟩ := Option.map_eq_some_iff.mp found
        apply foreign
        rw [isOpen, shown, ← named]
        rfl
      · intro target signsAt stops
        exact absurd stops (idle target signsAt)

/-! ## Every run -/

theorem Follows.hostStep {action : HostAction} (follows : Follows platform host)
    (new : IdIsNew host action) (taken : hostStep platform host action = some later) :
    Follows platform later := by
  cases action with
  | recorder action =>
      obtain ⟨recorder, rfl, same⟩ := hostStep_recorder taken
      rw [Follows, same]
      exact ⟨follows.published, follows.shown, follows.others, follows.openId, follows.stoppingId⟩
  | start call docUrl =>
      simp only [Sessions.hostStep] at taken
      split at taken
      · cases taken
      · rename_i idle
        cases taken
        exact follows.start (Option.not_isSome_iff_eq_none.mp idle)
  | stop call graceMs =>
      simp only [Sessions.hostStep] at taken
      split at taken
      · cases taken
      · rename_i idle
        cases taken
        exact follows.stop (Option.not_isSome_iff_eq_none.mp idle)
  | clearStale call docUrl =>
      simp only [Sessions.hostStep] at taken
      split at taken
      · cases taken
      · rename_i idle
        cases taken
        exact FollowsOpen.park follows
          (not_stopping_of_none (Option.not_isSome_iff_eq_none.mp idle))
          (fun _ _ => SessionCall.noConfusion)
  | startFound call sessionId connections =>
      simp only [Sessions.hostStep] at taken
      split at taken
      · rename_i waits
        cases taken
        exact follows.started waits new
      · cases taken
  | found call =>
      simp only [Sessions.hostStep] at taken
      split at taken
      · rename_i waits
        cases taken
        exact follows.stopped waits
      · rename_i waits
        cases taken
        exact follows.cleared waits
      · cases taken

/-- A call that throws has only its answer to show for it. -/
theorem unchanged_of_threw {action : HostAction} (taken : hostStep platform host action = some later)
    (threw : later.answers = (call, .threw) :: host.answers) :
    later.recorder = host.recorder ∧ later.session = host.session ∧
      later.publishedIn = host.publishedIn := by
  have none_said : host.answers ≠ (call, .threw) :: host.answers := by simp
  cases action with
  | recorder action =>
      obtain ⟨recorder, rfl, _⟩ := hostStep_recorder taken
      exact absurd threw none_said
  | start caller docUrl =>
      simp only [hostStep, start] at taken
      split at taken
      · cases taken
      · split at taken
        · cases taken
          exact ⟨rfl, rfl, rfl⟩
        · cases taken
          exact absurd threw none_said
  | stop caller graceMs =>
      simp only [hostStep, stop] at taken
      split at taken
      · cases taken
      · split at taken
        · cases taken
          cases threw
        · split at taken
          · cases taken
            cases threw
          · split at taken
            · cases taken
              cases threw
            · cases taken
              exact absurd threw none_said
  | clearStale caller docUrl =>
      simp only [hostStep] at taken
      split at taken
      · cases taken
      · cases taken
        exact absurd threw none_said
  | startFound caller sessionId connections =>
      simp only [hostStep, started] at taken
      split at taken
      · split at taken
        · cases taken
          exact ⟨rfl, rfl, rfl⟩
        · cases taken
          cases threw
      · cases taken
  | found caller =>
      simp only [hostStep, stopped, cleared] at taken
      split at taken
      · split at taken <;> cases taken <;> cases threw
      · split at taken
        · cases taken
          cases threw
        · split at taken <;> cases taken <;> cases threw
      · cases taken

/-- What holds whatever calls there have been. -/
structure FieldsMatch (platform : RecorderPlatform) (host : HostSession) : Prop where
  /-- With no call in progress, the document of the open session names it, and no other document
  names any. -/
  atRest : (∀ call, host.calls call = none) → ∀ docUrl,
    host.session docUrl =
      (host.recorder.opened.filter (·.docUrl = docUrl)).map (published platform)
  throwing : ∀ action later call, hostStep platform host action = some later →
    later.answers = (call, .threw) :: host.answers →
    later.recorder = host.recorder ∧ later.session = host.session ∧
      later.publishedIn = host.publishedIn

theorem fields_match_at_rest (follows : Follows platform host)
    (rest : ∀ call, host.calls call = none) (docUrl : JsString) :
    host.session docUrl =
      (host.recorder.opened.filter (·.docUrl = docUrl)).map (published platform) := by
  have others (field : PublishedSession) (held : host.session docUrl = some field) :
      ∃ tracked, host.recorder.opened = some tracked ∧ tracked.docUrl = docUrl := by
    cases follows.others docUrl field held with
    | inl here =>
        obtain ⟨each, isOpen, same⟩ := here
        obtain ⟨tracked, opened, rfl⟩ := Option.map_eq_some_iff.mp isOpen
        exact ⟨tracked, opened, same⟩
    | inr stopping =>
        obtain ⟨call, signsAt, waits⟩ := stopping
        cases (rest call).symm.trans waits
  cases opened : host.recorder.opened with
  | none =>
      cases held : host.session docUrl with
      | none => rfl
      | some field =>
          obtain ⟨tracked, isOpen, _⟩ := others field held
          cases opened.symm.trans isOpen
  | some tracked =>
      by_cases same : tracked.docUrl = docUrl
      · have shown := follows.shown tracked.name (by rw [opened]; rfl)
        have whole : some (shownAs platform tracked.name) = some (published platform tracked) := rfl
        rw [Option.filter_some, if_pos (by simpa using same), Option.map_some, ← same, ← whole]
        exact shown
      · rw [Option.filter_some, if_neg (by simpa using same), Option.map_none]
        cases held : host.session docUrl with
        | none => rfl
        | some field =>
            obtain ⟨other, isOpen, here⟩ := others field held
            cases opened.symm.trans isOpen
            exact absurd here same

theorem published_field_matches (platform : RecorderPlatform) (now : Int) (documents : Documents)
    (reached : Reaches (hostStep platform) IdIsNew
      (HostSession.created (Recorder.idle now documents)) host) : FieldsMatch platform host := by
  have follows : Follows platform host :=
    reached.invariant (Follows platform) (follows_created _ rfl) fun _ follows new taken =>
      follows.hostStep new taken
  exact ⟨fields_match_at_rest follows, fun _ _ _ taken threw => unchanged_of_threw taken threw⟩

/-! ## A stop and a start that cross -/

def plainPlatform : RecorderPlatform where
  hostKey := js "host"
  toISOString time := [time.toNat.toUInt16]
  storedHash _ := []
  statementAt _ := none

/-- The second session is opened while the field of the first is still to be cleared, and a
`clearStale` comes in between. -/
def crossing : List HostAction :=
  [.start 0 (js "root"), .startFound 0 (js "first") [], .stop 1 1000, .start 2 (js "root"),
    .clearStale 3 (js "root"), .startFound 2 (js "second") [], .found 3, .found 1]

instance (host : HostSession) (action : HostAction) : Decidable (IdIsNew host action) :=
  match action with
  | .startFound _ sessionId _ => inferInstanceAs (Decidable (sessionId ∉ host.sessionIds))
  | .recorder _ | .start _ _ | .stop _ _ | .clearStale _ _ | .found _ => isTrue trivial

def stepIfNew (host : HostSession) (action : HostAction) : Option HostSession :=
  if IdIsNew host action then hostStep plainPlatform host action else none

def beforeCrossing : HostSession :=
  HostSession.created (Recorder.idle 0 ⟨Table.empty, Table.empty⟩)

def crossed : HostSession := (run stepIfNew beforeCrossing crossing).getD beforeCrossing

theorem crossing_leaves_the_second_session :
    crossed.session (js "root") = some ⟨js "second", [0]⟩ ∧
      FieldsMatch plainPlatform crossed := by
  have runs : (run stepIfNew beforeCrossing crossing).isSome = true := by decide +kernel
  obtain ⟨final, ran⟩ := Option.isSome_iff_exists.mp runs
  have same : crossed = final := by rw [crossed, ran, Option.getD_some]
  refine ⟨by decide +kernel, ?_⟩
  rw [same]
  exact published_field_matches plainPlatform 0 ⟨Table.empty, Table.empty⟩
    (Reaches.of_guarded_run ran)

end Tapes.Sessions
