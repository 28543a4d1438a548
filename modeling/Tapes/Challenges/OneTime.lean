import Tapes.Challenges.SyncChallenges

namespace Tapes.Challenges

open Tapes.Js Tapes.Provenance Tapes.Machine

/-! A challenge authorizes one operation, soon after its issue.

The store is a front part of the challenges that were issued and not used since: it lacks only the
oldest of them, which made room for new ones.
-/

def Event.authorized? : Event → Option JsString
  | .used challenge true _ => some challenge
  | .used _ false _ | .issued _ _ | .succeeded _ _ => none

def Event.succeeded? : Event → Option JsString
  | .succeeded _ challenge => some challenge
  | .issued _ _ | .used _ _ _ => none

def Event.isIssued : Event → Bool
  | .issued _ _ => true
  | .used _ _ _ | .succeeded _ _ => false

/-- The challenges that were issued and not used since, the last one first. -/
def outstanding : List Event → IssuedAt
  | [] => []
  | .issued challenge time :: log => (challenge, time) :: outstanding log
  | .used challenge _ _ :: log => (outstanding log).filter (·.1 ≠ challenge)
  | .succeeded _ _ :: log => outstanding log

/-- No two results of `randomBytes` are the same. -/
def RandomIsNew (host : Host) : Action → Prop
  | .issue challenge => ∀ time, Event.issued challenge time ∉ host.log
  | _ => True

instance (host : Host) (action : Action) : Decidable (RandomIsNew host action) :=
  match action with
  | .issue challenge =>
      decidable_of_iff (host.log.all fun event =>
          match event with
          | .issued other _ => decide (other ≠ challenge)
          | .used _ _ _ | .succeeded _ _ => true) (by
        simp only [RandomIsNew, List.all_eq_true]
        apply Iff.intro
        · intro different time issued
          have self := different _ issued
          simp at self
        · intro new event member
          cases event with
          | issued other time =>
              apply decide_eq_true
              intro same
              exact new time (same ▸ member)
          | used other authorized time => rfl
          | succeeded call other => rfl)
  | .tick _ | .upgrade _ _ | .join _ _ | .put _ _ _ | .resume _ | .finish _ _ | .throw _ =>
      isTrue trivial

/-- What a challenge is good for. -/
structure OneTime (limits : Limits) (host : Host) : Prop where
  bounded : host.issuedAt.length ≤ limits.maxChallenges
  /-- An authorizing use comes soon after the issue, with fewer than `maxChallenges` unused
  challenges issued in between. -/
  fresh : ∀ later earlier challenge time,
    host.log = later ++ Event.used challenge true time :: earlier →
    ∃ newer older issuedTime, outstanding earlier = newer ++ (challenge, issuedTime) :: older ∧
      Event.issued challenge issuedTime ∈ earlier ∧ newer.length < limits.maxChallenges ∧
      time - issuedTime ≤ limits.ttlMs
  once : (host.log.filterMap Event.authorized?).Nodup
  succeedsOnce : (host.log.filterMap Event.succeeded?).Nodup
  authorized : ∀ challenge ∈ host.log.filterMap Event.succeeded?,
    challenge ∈ host.log.filterMap Event.authorized?

variable {platform : Platform} {limits : Limits} {host next : Host} {log : List Event}
  {issuedAt : IssuedAt} {challenge : JsString} {time now : Int} {call : CallId} {phase : Phase}

/-! ## The store -/

theorem evict_suffix (maxChallenges : Nat) (issuedAt : IssuedAt) :
    evict maxChallenges issuedAt <:+ issuedAt := by
  induction issuedAt with
  | nil => exact List.suffix_refl []
  | cons oldest rest induction =>
      rw [evict]
      split
      · exact induction.trans (List.suffix_cons oldest rest)
      · exact List.suffix_refl _

theorem length_evict {maxChallenges : Nat} (room : 1 ≤ maxChallenges) (issuedAt : IssuedAt) :
    (evict maxChallenges issuedAt).length < maxChallenges := by
  induction issuedAt with
  | nil => exact room
  | cons oldest rest induction =>
      rw [evict]
      split
      · exact induction
      · omega

theorem mem_outstanding {entry : JsString × Int} (held : entry ∈ outstanding log) :
    Event.issued entry.1 entry.2 ∈ log := by
  induction log with
  | nil => cases held
  | cons event log induction =>
      cases event with
      | issued challenge time =>
          cases List.mem_cons.mp held with
          | inl same =>
              rw [same]
              exact List.mem_cons_self
          | inr older => exact List.mem_cons_of_mem _ (induction older)
      | used challenge authorized time =>
          exact List.mem_cons_of_mem _ (induction (List.mem_of_mem_filter held))
      | succeeded call challenge => exact List.mem_cons_of_mem _ (induction held)

/-- A challenge of the store, with what was issued after it and is unused. -/
theorem newer_of_stored (stored : issuedAt.reverse <+: outstanding log)
    (bounded : issuedAt.length ≤ limits.maxChallenges) {entry : JsString × Int}
    (member : entry ∈ issuedAt) :
    ∃ newer older, outstanding log = newer ++ entry :: older ∧
      newer.length < limits.maxChallenges := by
  obtain ⟨rest, whole⟩ := stored
  obtain ⟨newer, older, split⟩ := List.append_of_mem (List.mem_reverse.mpr member)
  refine ⟨newer, older ++ rest, ?_, ?_⟩
  · rw [← whole, split]
    simp
  · have length := congrArg List.length split
    rw [List.length_reverse, List.length_append, List.length_cons] at length
    omega

/-! ## The invariant -/

/-- The challenge that authorized the call. -/
def Phase.challenge? : Phase → Option JsString
  | .checkingProof _ challenge | .joining challenge | .storing challenge => some challenge
  | .checkingJoin _ | .checkingWrite _ _ => none

structure Sound (limits : Limits) (host : Host) : Prop extends OneTime limits host where
  stored : host.issuedAt.reverse <+: outstanding host.log
  /-- A challenge that has authorized something was issued, and is used. -/
  spent : ∀ challenge ∈ host.log.filterMap Event.authorized?,
    (∃ time, Event.issued challenge time ∈ host.log) ∧
      challenge ∉ (outstanding host.log).map Prod.fst
  running : ∀ call phase challenge, host.calls call = some phase →
    phase.challenge? = some challenge →
    challenge ∈ host.log.filterMap Event.authorized? ∧
      challenge ∉ host.log.filterMap Event.succeeded?
  alone : ∀ call other phase held challenge, host.calls call = some phase →
    host.calls other = some held → phase.challenge? = some challenge →
    held.challenge? = some challenge → call = other

theorem sound_opened (now : Int) : Sound limits (Host.opened now) where
  bounded := Nat.zero_le _
  fresh := by
    intro later earlier challenge time split
    cases later <;> cases split
  once := List.nodup_nil
  succeedsOnce := List.nodup_nil
  authorized := by
    intro challenge member
    cases member
  stored := List.prefix_refl []
  spent := by
    intro challenge member
    cases member
  running := by
    intro call phase challenge found
    cases found
  alone := by
    intro call other phase held challenge found
    cases found

/-- Calls that only go away keep the invariant. -/
theorem Sound.calls {calls : Table CallId Phase} (sound : Sound limits host)
    (fewer : ∀ call phase challenge, calls call = some phase →
      phase.challenge? = some challenge → host.calls call = some phase) :
    Sound limits { host with calls } := by
  refine ⟨⟨sound.bounded, sound.fresh, sound.once, sound.succeedsOnce, sound.authorized⟩,
    sound.stored, sound.spent, ?_, ?_⟩
  · intro call phase challenge found names
    exact sound.running call phase challenge (fewer call phase challenge found names) names
  · intro call other phase held challenge found found_other names names_other
    exact sound.alone call other phase held challenge (fewer call phase challenge found names)
      (fewer other held challenge found_other names_other) names names_other

theorem Sound.stop (sound : Sound limits host) (call : CallId) :
    Sound limits (host.stop call) := by
  apply sound.calls
  intro other phase challenge found _
  by_cases same : other = call
  · rw [same, Table.remove_self] at found
    cases found
  · rwa [Table.remove_other same] at found

/-- A call that has used no challenge yet. -/
theorem Sound.park (sound : Sound limits host) (call : CallId) (unused : phase.challenge? = none) :
    Sound limits { host with calls := host.calls.put call phase } := by
  apply sound.calls
  intro other held challenge found names
  by_cases same : other = call
  · rw [same, Table.put_self, Option.some.injEq] at found
    rw [← found, unused] at names
    cases names
  · rwa [Table.put_other same] at found

/-- An event at the front of the log that uses nothing with success. -/
theorem fresh_of_cons {event : Event} (fresh : ∀ later earlier challenge time,
      log = later ++ Event.used challenge true time :: earlier →
      ∃ newer older issuedTime, outstanding earlier = newer ++ (challenge, issuedTime) :: older ∧
        Event.issued challenge issuedTime ∈ earlier ∧ newer.length < limits.maxChallenges ∧
        time - issuedTime ≤ limits.ttlMs)
    (first : ∀ challenge time, event = .used challenge true time →
      ∃ newer older issuedTime, outstanding log = newer ++ (challenge, issuedTime) :: older ∧
        Event.issued challenge issuedTime ∈ log ∧ newer.length < limits.maxChallenges ∧
        time - issuedTime ≤ limits.ttlMs)
    (later earlier : List Event) (challenge : JsString) (time : Int)
    (split : event :: log = later ++ Event.used challenge true time :: earlier) :
    ∃ newer older issuedTime, outstanding earlier = newer ++ (challenge, issuedTime) :: older ∧
      Event.issued challenge issuedTime ∈ earlier ∧ newer.length < limits.maxChallenges ∧
      time - issuedTime ≤ limits.ttlMs := by
  cases later with
  | nil =>
      cases split
      exact first challenge time rfl
  | cons newest later =>
      cases split
      exact fresh later earlier challenge time rfl

theorem Sound.issue (sound : Sound limits host) (room : 1 ≤ limits.maxChallenges)
    (new : ∀ time, Event.issued challenge time ∉ host.log) :
    Sound limits { host with
      issuedAt := issue limits host.issuedAt challenge host.now
      log := .issued challenge host.now :: host.log } := by
  have suffix := evict_suffix limits.maxChallenges host.issuedAt
  have absent : (evict limits.maxChallenges host.issuedAt).any (·.1 = challenge) = false := by
    rw [List.any_eq_false]
    intro entry held names
    have inside := sound.stored.subset (List.mem_reverse.mpr (suffix.subset held))
    have was := mem_outstanding inside
    rw [of_decide_eq_true names] at was
    exact new _ was
  have whole : Challenges.issue limits host.issuedAt challenge host.now =
      evict limits.maxChallenges host.issuedAt ++ [(challenge, host.now)] := by
    rw [Challenges.issue, setEntry, absent]
    rfl
  refine ⟨⟨?_, ?_, sound.once, sound.succeedsOnce, sound.authorized⟩, ?_, ?_, sound.running,
    sound.alone⟩
  · have short := length_evict room host.issuedAt
    rw [whole, List.length_append, List.length_singleton]
    omega
  · apply fresh_of_cons sound.fresh
    intro other time used
    cases used
  · rw [whole, List.reverse_append]
    have front := List.reverse_prefix.mpr suffix
    exact List.cons_prefix_cons.mpr ⟨rfl, front.trans sound.stored⟩
  · intro other authorized
    obtain ⟨⟨time, issued⟩, used⟩ := sound.spent other authorized
    refine ⟨⟨time, List.mem_cons_of_mem _ issued⟩, ?_⟩
    simp only [outstanding, List.map_cons, List.mem_cons, not_or]
    refine ⟨?_, used⟩
    rintro rfl
    exact new time issued

/-- Once a call succeeds, no other call has its challenge. -/
theorem Sound.succeed (sound : Sound limits host) (running : host.calls call = some phase)
    (names : phase.challenge? = some challenge) : Sound limits (host.succeed call challenge) := by
  obtain ⟨authorized, not_yet⟩ := sound.running call phase challenge running names
  have stopped := sound.stop call
  refine ⟨⟨sound.bounded, ?_, sound.once, ?_, ?_⟩, sound.stored, ?_, ?_, stopped.alone⟩
  · apply fresh_of_cons sound.fresh
    intro other time used
    cases used
  · exact List.nodup_cons.mpr ⟨not_yet, sound.succeedsOnce⟩
  · intro other succeeded
    cases List.mem_cons.mp succeeded with
    | inl same =>
        rw [same]
        exact authorized
    | inr earlier => exact sound.authorized other earlier
  · intro other spent
    obtain ⟨⟨time, issued⟩, used⟩ := sound.spent other spent
    exact ⟨⟨time, List.mem_cons_of_mem _ issued⟩, used⟩
  · intro other held other_challenge found other_names
    obtain ⟨other_authorized, other_waits⟩ :=
      stopped.running other held other_challenge found other_names
    refine ⟨other_authorized, ?_⟩
    intro succeeded
    cases List.mem_cons.mp succeeded with
    | inr earlier => exact other_waits earlier
    | inl same =>
        by_cases this_call : other = call
        · rw [this_call] at found
          exact absurd (found.symm.trans Table.remove_self) (by simp)
        · have still : host.calls other = some held := (Table.remove_other this_call).symm.trans found
          rw [same] at other_names
          exact this_call (sound.alone other call held phase challenge still running other_names
            names)

/-! ## Using a challenge -/

/-- An authorizing answer of the store comes from an entry of it. -/
theorem entry_of_consume (authorized : (consume limits issuedAt challenge now).2 = true) :
    ∃ issuedTime, (challenge, issuedTime) ∈ issuedAt ∧ now - issuedTime ≤ limits.ttlMs := by
  obtain ⟨entry, found, fresh⟩ := (Option.any_eq_true _ _).mp authorized
  have names : entry.1 = challenge := by simpa using List.find?_some found
  refine ⟨entry.2, ?_, by simpa using fresh⟩
  rw [← names]
  exact List.mem_of_find?_eq_some found

theorem Sound.use (sound : Sound limits host) (names : phase.challenge? = some challenge) :
    Sound limits (host.use limits call challenge phase) := by
  -- A challenge that the store answers for has authorized nothing before.
  have unspent : (consume limits host.issuedAt challenge host.now).2 = true →
      challenge ∉ host.log.filterMap Event.authorized? := by
    intro authorized spent
    obtain ⟨issuedTime, held, _⟩ := entry_of_consume authorized
    have inside := sound.stored.subset (List.mem_reverse.mpr held)
    exact (sound.spent challenge spent).2 (List.mem_map.mpr ⟨_, inside, rfl⟩)
  have stored : (consume limits host.issuedAt challenge host.now).1.reverse <+:
      (outstanding host.log).filter (·.1 ≠ challenge) := by
    rw [consume, ← List.filter_reverse]
    exact sound.stored.filter _
  have bounded : (consume limits host.issuedAt challenge host.now).1.length ≤
      limits.maxChallenges :=
    (List.length_filter_le _ _).trans sound.bounded
  have first : ∀ other time,
      Event.used challenge (consume limits host.issuedAt challenge host.now).2 host.now =
        .used other true time →
      ∃ newer older issuedTime, outstanding host.log = newer ++ (other, issuedTime) :: older ∧
        Event.issued other issuedTime ∈ host.log ∧ newer.length < limits.maxChallenges ∧
        time - issuedTime ≤ limits.ttlMs := by
    intro other time same
    injection same with same_challenge authorized same_time
    subst same_challenge same_time
    obtain ⟨issuedTime, held, fresh⟩ := entry_of_consume authorized
    obtain ⟨newer, older, split, few⟩ := newer_of_stored sound.stored sound.bounded held
    have inside := sound.stored.subset (List.mem_reverse.mpr held)
    exact ⟨newer, older, issuedTime, split, mem_outstanding inside, few, fresh⟩
  have issued : (consume limits host.issuedAt challenge host.now).2 = true →
      ∃ time, Event.issued challenge time ∈ host.log := by
    intro authorized
    obtain ⟨issuedTime, held, _⟩ := entry_of_consume authorized
    exact ⟨issuedTime, mem_outstanding (sound.stored.subset (List.mem_reverse.mpr held))⟩
  have spent : ∀ other ∈ host.log.filterMap Event.authorized?,
      (∃ time, Event.issued other time ∈ Event.used challenge
        (consume limits host.issuedAt challenge host.now).2 host.now :: host.log) ∧
      other ∉ ((outstanding host.log).filter (·.1 ≠ challenge)).map Prod.fst := by
    intro other authorized
    obtain ⟨⟨time, was_issued⟩, used⟩ := sound.spent other authorized
    refine ⟨⟨time, List.mem_cons_of_mem _ was_issued⟩, ?_⟩
    intro still
    exact used ((List.filter_sublist.map Prod.fst).subset still)
  have fresh := fresh_of_cons sound.fresh first
  cases authorized : (consume limits host.issuedAt challenge host.now).2 with
  | false =>
      have stopped := sound.stop call
      have shape : host.use limits call challenge phase =
          { host with
            issuedAt := (consume limits host.issuedAt challenge host.now).1
            calls := host.calls.remove call
            log := .used challenge false host.now :: host.log } := by
        simp [Host.use, authorized]
      rw [authorized] at fresh spent
      rw [shape]
      exact ⟨⟨bounded, fresh, sound.once, sound.succeedsOnce, sound.authorized⟩, stored, spent,
        stopped.running, stopped.alone⟩
  | true =>
      have new := unspent authorized
      have shape : host.use limits call challenge phase =
          { host with
            issuedAt := (consume limits host.issuedAt challenge host.now).1
            calls := host.calls.put call phase
            log := .used challenge true host.now :: host.log } := by
        simp [Host.use, authorized]
      rw [authorized] at fresh spent
      rw [shape]
      refine ⟨⟨bounded, fresh, ?_, sound.succeedsOnce, ?_⟩, stored, ?_, ?_, ?_⟩
      · exact List.nodup_cons.mpr ⟨new, sound.once⟩
      · intro other succeeded
        exact List.mem_cons_of_mem _ (sound.authorized other succeeded)
      · intro other member
        cases List.mem_cons.mp member with
        | inr earlier => exact spent other earlier
        | inl same =>
            obtain ⟨time, was_issued⟩ := issued authorized
            rw [same]
            refine ⟨⟨time, List.mem_cons_of_mem _ was_issued⟩, ?_⟩
            simp [outstanding]
      · intro other held other_challenge found other_names
        dsimp only at found
        by_cases this_call : other = call
        · subst this_call
          rw [Table.put_self, Option.some.injEq] at found
          rw [← found, names, Option.some.injEq] at other_names
          subst other_names
          exact ⟨List.mem_cons_self, fun succeeded => new (sound.authorized _ succeeded)⟩
        · rw [Table.put_other this_call] at found
          obtain ⟨other_authorized, waits⟩ :=
            sound.running other held other_challenge found other_names
          exact ⟨List.mem_cons_of_mem _ other_authorized, waits⟩
      · -- Two calls with one challenge are two that were running before.
        have runs : ∀ one held, host.calls.put call phase one = some held →
            held.challenge? = some challenge →
            one = call := by
          intro one held found one_names
          by_contra other_call
          rw [Table.put_other other_call] at found
          exact new (sound.running one held challenge found one_names).1
        intro one other one_phase held shared found found_other one_names other_names
        by_cases same : shared = challenge
        · subst same
          exact (runs one one_phase found one_names).trans
            (runs other held found_other other_names).symm
        · have before : ∀ one held, host.calls.put call phase one = some held →
              held.challenge? = some shared →
              host.calls one = some held := by
            intro one held found one_names
            by_cases this_call : one = call
            · subst this_call
              rw [Table.put_self, Option.some.injEq] at found
              rw [← found, names, Option.some.injEq] at one_names
              exact absurd one_names.symm same
            · rwa [Table.put_other this_call] at found
          exact sound.alone one other one_phase held shared (before one one_phase found one_names)
            (before other held found_other other_names) one_names other_names

/-! ## Every run -/

theorem Sound.resume (sound : Sound limits host) (running : host.calls call = some phase)
    (taken : resume platform limits host call phase = some next) : Sound limits next := by
  cases phase with
  | checkingProof signed challenge =>
      simp only [Challenges.resume] at taken
      split at taken
      · cases taken
        exact sound.succeed running rfl
      · cases taken
        exact sound.stop call
  | checkingJoin signed =>
      simp only [Challenges.resume] at taken
      split at taken
      · cases taken
        exact sound.stop call
      · cases taken
        exact sound.use rfl
  | checkingWrite signed record =>
      simp only [Challenges.resume] at taken
      split at taken
      · cases taken
        exact sound.stop call
      · split at taken
        · cases taken
          exact sound.use rfl
        · cases taken
          exact sound.stop call
  | joining challenge => cases taken
  | storing challenge => cases taken

theorem Sound.finish (sound : Sound limits host) (running : host.calls call = some phase)
    (names : phase.challenge? = some challenge) (succeeded : Bool) :
    Sound limits (if succeeded then host.succeed call challenge else host.stop call) := by
  cases succeeded with
  | true => exact sound.succeed running names
  | false => exact sound.stop call

theorem step_sound {action : Action} (room : 1 ≤ limits.maxChallenges)
    (sound : Sound limits host) (new : RandomIsNew host action)
    (taken : step platform limits host action = some next) : Sound limits next := by
  cases action with
  | tick elapsed =>
      cases taken
      exact ⟨⟨sound.bounded, sound.fresh, sound.once, sound.succeedsOnce, sound.authorized⟩,
        sound.stored, sound.spent, sound.running, sound.alone⟩
  | issue challenge =>
      cases taken
      exact sound.issue room new
  | upgrade call signed =>
      simp only [step] at taken
      split at taken
      · cases taken
      · split at taken
        · cases taken
          exact sound
        · split at taken
          · cases taken
            exact sound
          · cases taken
            exact sound.use rfl
  | join call signed =>
      simp only [step] at taken
      split at taken
      · cases taken
      · cases taken
        exact sound.park call rfl
  | put call signed record =>
      simp only [step] at taken
      split at taken
      · cases taken
      · split at taken
        · cases taken
          exact sound
        · cases taken
          exact sound.park call rfl
  | resume call =>
      obtain ⟨phase, running, resumed⟩ := Option.bind_eq_some_iff.mp taken
      exact sound.resume running resumed
  | finish call succeeded =>
      simp only [step] at taken
      split at taken
      · rename_i running
        cases taken
        exact sound.finish running rfl succeeded
      · rename_i running
        cases taken
        exact sound.finish running rfl succeeded
      · cases taken
  | throw call =>
      obtain ⟨phase, running, rfl⟩ := Option.map_eq_some_iff.mp taken
      exact sound.stop call

theorem challenges_are_one_time (platform : Platform) (limits : Limits) (now : Int)
    (room : 1 ≤ limits.maxChallenges)
    (reached : Reaches (step platform limits) RandomIsNew (Host.opened now) host) :
    OneTime limits host := by
  have sound : Sound limits host :=
    reached.invariant (Sound limits) (sound_opened now) fun _ sound new taken =>
      step_sound room sound new taken
  exact sound.toOneTime

/-! ## A challenge that outlives more than the cap -/

/-- The authorizing use of a challenge, with all that was issued after it counted. -/
def FewIssuedSince (limits : Limits) (host : Host) : Prop :=
  ∀ later between before challenge time issuedTime,
    host.log = later ++ Event.used challenge true time ::
      (between ++ Event.issued challenge issuedTime :: before) →
    between.countP Event.isIssued < limits.maxChallenges

def openPlatform : Platform where
  sha256 _ := []
  importKey _ := true
  verify _ _ _ := true
  dateParse _ := none

def proofOver (challenge : JsString) : Signed JsValue :=
  ⟨.object [(js "type", .string syncProofType), (js "challenge", .string challenge),
    (js "deviceKey", .string (js "QUJDREVGR0hJSktMTU5PUFFSU1RVVldYWVphYmNkZWY"))], js "sig"⟩

/-- With room for two challenges, the second is used, which makes room for a third, and then the
first is used. -/
def roomForTwo : List Action :=
  [.issue (js "first"), .issue (js "second"), .upgrade 0 (some (proofOver (js "second"))),
    .issue (js "third"), .upgrade 1 (some (proofOver (js "first")))]

def stepIfNew (host : Host) (action : Action) : Option Host :=
  if RandomIsNew host action then step openPlatform ⟨60000, 2⟩ host action else none

def afterRoomForTwo : Host := (run stepIfNew (Host.opened 0) roomForTwo).getD (Host.opened 0)

theorem log_afterRoomForTwo : afterRoomForTwo.log =
    [.used (js "first") true 0, .issued (js "third") 0, .used (js "second") true 0,
      .issued (js "second") 0, .issued (js "first") 0] := by decide +kernel

theorem reaches_afterRoomForTwo :
    Reaches (step openPlatform ⟨60000, 2⟩) RandomIsNew (Host.opened 0) afterRoomForTwo := by
  have runs : (run stepIfNew (Host.opened 0) roomForTwo).isSome = true := by decide +kernel
  obtain ⟨final, ran⟩ := Option.isSome_iff_exists.mp runs
  have same : afterRoomForTwo = final := by rw [afterRoomForTwo, ran, Option.getD_some]
  rw [same]
  exact Reaches.of_guarded_run ran

/-- Two challenges were issued after the first, which is used with success all the same. -/
theorem old_challenge_outlives_the_cap :
    ¬ ∀ (platform : Platform) (limits : Limits) (now : Int) (host : Host),
      1 ≤ limits.maxChallenges →
      Reaches (step platform limits) RandomIsNew (Host.opened now) host →
      FewIssuedSince limits host := by
  intro few
  have bounded := few openPlatform ⟨60000, 2⟩ 0 afterRoomForTwo (by decide) reaches_afterRoomForTwo
    [] [.issued (js "third") 0, .used (js "second") true 0, .issued (js "second") 0] []
    (js "first") 0 0 log_afterRoomForTwo
  exact absurd bounded (by decide)

/-- With a signature of sixty-four bytes. -/
def signedProofOver (challenge : JsString) : Signed JsValue :=
  { proofOver challenge with signature := List.replicate 86 0x41 }

/-- The same with a proof that passes its check, and is then shown once more. -/
def replayedProof : List Action :=
  [.issue (js "first"), .issue (js "second"), .upgrade 0 (some (proofOver (js "second"))),
    .issue (js "third"), .upgrade 1 (some (signedProofOver (js "first"))), .resume 1,
    .upgrade 2 (some (signedProofOver (js "first")))]

theorem replayedProof_log :
    (run stepIfNew (Host.opened 0) replayedProof).map Host.log =
      some [.used (js "first") false 0, .succeeded 1 (js "first"), .used (js "first") true 0,
        .issued (js "third") 0, .used (js "second") true 0, .issued (js "second") 0,
        .issued (js "first") 0] := by
  decide +kernel

/-- One upgrade succeeds with the first challenge, and the replay of its proof does not. -/
theorem replayed_proof_succeeds_once :
    ∃ host, Reaches (step openPlatform ⟨60000, 2⟩) RandomIsNew (Host.opened 0) host ∧
      host.log.head? = some (.used (js "first") false 0) ∧
      host.log.filterMap Event.succeeded? = [js "first"] ∧ OneTime ⟨60000, 2⟩ host := by
  obtain ⟨host, ran, log⟩ := Option.map_eq_some_iff.mp replayedProof_log
  have reached : Reaches (step openPlatform ⟨60000, 2⟩) RandomIsNew (Host.opened 0) host :=
    Reaches.of_guarded_run ran
  exact ⟨host, reached, by rw [log]; rfl, by rw [log]; rfl,
    challenges_are_one_time openPlatform ⟨60000, 2⟩ 0 (by decide) reached⟩

end Tapes.Challenges
