import Tapes.Vouching.Resolution

namespace Tapes.Vouching

open Tapes.Js Tapes.Provenance Tapes.Machine
open Tapes.Roster (FirstCertificate RosterEntry SignedVouch joinEntry)

variable {platform : HostPlatform} {host next : Host} {call : CallId} {phase : Call}
  {entry : Entry} {id other : RequestId}

/-! ## Resuming a call -/

theorem progress_of_not_inVouchFor (outside : phase.inVouchFor = false) : phase.progress = none := by
  cases phase <;> first | rfl | cases outside

theorem resumeCheckPin_follows (parked : host.calls call = some phase)
    (outside : phase.inVouchFor = false)
    (undisturbed : Undisturbed host (.resume call)) (other : RequestId) :
    Follows other host (resumeCheckPin platform host call entry phase) := by
  have unseen : host.vouchers other call = none := by
    rw [vouchers_of_parked parked]
    simp [Call.progressOn, progress_of_not_inVouchFor outside]
  cases phase with
  | countingGuess id pin =>
      simp only [resumeCheckPin]
      split
      · exact .of_same (about_park_unseen { host with roster := _ } unseen
          (by simp [Call.progressOn, Call.progress]))
      · exact .of_same (about_park_unseen { host with roster := _ } unseen
          (by simp [Call.progressOn, Call.progress]))
  | findingPin id =>
      simp only [resumeCheckPin]
      split <;> exact .of_same (about_answer_unseen host unseen rfl)
  | matchingPin id pin stored failures =>
      simp only [resumeCheckPin]
      split
      · exact .of_same (about_park_unseen host unseen (by simp [Call.progressOn, Call.progress]))
      · split <;> exact .of_same (about_answer_unseen host unseen rfl)
  | clearingFailures id =>
      simp only [resumeCheckPin]
      by_cases same : id = other
      · subst other
        obtain ⟨free, pending⟩ := undisturbed id parked
        exact follows_enter { host with roster := _ } pending free
      · exact .of_same (about_park_unseen { host with roster := _ } unseen
          (progressOn_other _ same))
  | findingPerson | signing | addressing | recording | recorded => cases outside

/-- What shows of a request while a parked call is inside `vouchFor` for it. -/
theorem Resolution.eq_of_parked {resolution : Resolution} {progress : Progress}
    (parked : host.calls call = some phase) (onIt : phase.progressOn id = some progress)
    (shown : host.about id = resolution.view) :
    match progress with
    | .unsigned => ∃ lost, resolution = .vouching call lost
    | .signed => ∃ lost, resolution = .signed call lost
    | .recorded => ∃ lost inRoster, resolution = .recorded call lost inRoster := by
  have voucher : resolution.view.vouchers call = some progress := by
    rw [← shown]
    exact (vouchers_of_parked parked id).trans onIt
  cases resolution with
  | unknown | waiting lost | vouched vouch lost inRoster | rejected lost =>
      simp [Resolution.view, nobody] at voucher
  | vouching other lost =>
      obtain ⟨rfl, rfl⟩ := only_eq_some voucher
      exact ⟨lost, rfl⟩
  | signed other lost =>
      obtain ⟨rfl, rfl⟩ := only_eq_some voucher
      exact ⟨lost, rfl⟩
  | recorded other lost inRoster =>
      obtain ⟨rfl, rfl⟩ := only_eq_some voucher
      exact ⟨lost, inRoster, rfl⟩

/-- A call inside `vouchFor` that fails before it has signed leaves the request waiting. -/
theorem follows_giveUp (parked : host.calls call = some phase)
    (unsigned : phase.progressOn id = some .unsigned) :
    Follows id host (host.answer call id .threw) := by
  intro resolution shown
  obtain ⟨lost, rfl⟩ := Resolution.eq_of_parked parked unsigned shown
  refine ⟨.waiting lost, ?_, .inr .giveUp⟩
  rw [Host.about_answer, shown, View.note_other _ rfl rfl rfl rfl]
  simp [View.withVoucher, Resolution.view, update_only, update_nobody_none]

/-- A call inside `vouchFor` that stays as far as it was. -/
theorem follows_parked (parked : host.calls call = some phase) {later : Call}
    (same : later.progressOn id = phase.progressOn id) :
    Follows id host (host.park call later) := by
  refine .of_same ?_
  rw [Host.about_park, same, ← vouchers_of_parked parked]
  simp [View.withVoucher, Host.about]

theorem follows_sign (parked : host.calls call = some phase)
    (unsigned : phase.progressOn id = some .unsigned) (personKey : JsString) (vouch : Vouch) :
    Follows id host ((host.note (.signed id vouch)).park call (.addressing id personKey vouch)) := by
  intro resolution shown
  obtain ⟨lost, rfl⟩ := Resolution.eq_of_parked parked unsigned shown
  refine ⟨.signed call lost, ?_, .inr .sign⟩
  rw [Host.about_park, Host.about_note, shown]
  simp [View.withVoucher, View.note, Resolution.view, Call.progressOn, Call.id, Call.progress,
    Event.isSigned, Event.isLost, Event.isRecorded, Event.isVouched, update_only, update_nobody]

theorem follows_record (host : Host) (parked : host.calls call = some phase)
    (signed : phase.progressOn id = some .signed) (record : SignedVouch) (vouch : Vouch) :
    Follows id host ((host.note (.recorded id record)).park call (.recorded id vouch)) := by
  intro resolution shown
  obtain ⟨lost, rfl⟩ := Resolution.eq_of_parked parked signed shown
  refine ⟨.recorded call lost true, ?_, .inr .record⟩
  rw [Host.about_park, Host.about_note, shown]
  simp [View.withVoucher, View.note, Resolution.view, Call.progressOn, Call.id, Call.progress,
    Event.isSigned, Event.isLost, Event.isRecorded, Event.isVouched, update_only, update_nobody]

/-- The person left the roster in the meantime: nothing is written. -/
theorem follows_unrecorded (parked : host.calls call = some phase)
    (signed : phase.progressOn id = some .signed) (vouch : Vouch) :
    Follows id host (host.park call (.recorded id vouch)) := by
  intro resolution shown
  obtain ⟨lost, rfl⟩ := Resolution.eq_of_parked parked signed shown
  refine ⟨.recorded call lost false, ?_, .inr .record⟩
  rw [Host.about_park, shown]
  simp [View.withVoucher, Resolution.view, Call.progressOn, Call.id, Call.progress, update_only,
    update_nobody]

theorem follows_vouch (parked : host.calls call = some phase)
    (recorded : phase.progressOn id = some .recorded) (entry : Entry) (vouch : Vouch) :
    Follows id host
      ((host.setEntry id { entry with status := .vouched, vouch := some vouch }).answer call id
        (.vouched vouch)) := by
  intro resolution shown
  obtain ⟨lost, inRoster, rfl⟩ := Resolution.eq_of_parked parked recorded shown
  refine ⟨.vouched (some vouch) lost inRoster, ?_, .inr .vouch⟩
  rw [Host.about_answer, Host.about_setEntry_same, shown]
  simp [View.withVoucher, View.note, Resolution.view, Entry.reading, Event.isSigned, Event.isLost,
    Event.isRecorded, Event.isVouched, update_only, update_nobody_none]

/-- A vouch signed by a call that then fails is lost. -/
theorem follows_lose (parked : host.calls call = some phase)
    (signed : phase.progressOn id = some .signed) :
    Follows id host ((host.note (.lost id)).answer call id .threw) := by
  intro resolution shown
  obtain ⟨lost, rfl⟩ := Resolution.eq_of_parked parked signed shown
  refine ⟨.waiting (lost + 1), ?_, .inr .lose⟩
  rw [Host.about_answer, Host.about_note, shown]
  simp [View.withVoucher, View.note, Resolution.view, Event.isSigned, Event.isLost,
    Event.isRecorded, Event.isVouched, update_only, update_nobody_none]

theorem progressOn_self (phase : Call) : phase.progressOn phase.id = phase.progress := by
  simp [Call.progressOn]

theorem resumeVouchFor_follows_self (parked : host.calls call = some phase)
    (inside : phase.inVouchFor = true) :
    Follows phase.id host (resumeVouchFor platform host call entry phase) := by
  have onIt := progressOn_self phase
  cases phase with
  | findingPerson id method =>
      simp only [resumeVouchFor]
      split
      · exact follows_giveUp parked onIt
      · exact follows_parked parked rfl
  | signing id personKey details => exact follows_sign parked onIt _ _
  | addressing id personKey vouch => exact follows_parked parked rfl
  | recording id personKey vouch record =>
      simp only [resumeVouchFor]
      split
      · exact follows_record { host with roster := _ } parked onIt record vouch
      · exact follows_unrecorded parked onIt vouch
  | recorded id vouch => exact follows_vouch parked onIt entry vouch
  | countingGuess | findingPin | matchingPin | clearingFailures => cases inside

theorem about_note_other (host : Host) {event : Event} (signed : event.isSigned id = false)
    (lost : event.isLost id = false) (recorded : event.isRecorded id = false)
    (vouched : event.isVouched id = false) : (host.note event).about id = host.about id := by
  rw [Host.about_note, View.note_other _ signed lost recorded vouched]

theorem resumeVouchFor_follows_other (parked : host.calls call = some phase)
    (different : phase.id ≠ other) :
    Follows other host (resumeVouchFor platform host call entry phase) := by
  have unseen : host.vouchers other call = none :=
    (vouchers_of_parked parked other).trans (progressOn_other _ different)
  refine .of_same ?_
  cases phase with
  | findingPerson id method =>
      simp only [resumeVouchFor]
      split
      · exact about_answer_unseen host unseen rfl
      · exact about_park_unseen host unseen (progressOn_other _ different)
  | signing id personKey details =>
      have elsewhere : id ≠ other := different
      have signed : (host.note (.signed id (createDeviceVouch platform details))).about other =
          host.about other := about_note_other host (decide_eq_false elsewhere) rfl rfl rfl
      exact (about_park_unseen (host.note _) unseen
        (progressOn_other (.addressing id personKey _) elsewhere)).trans
        signed
  | addressing id personKey vouch => exact about_park_unseen host unseen (progressOn_other _ different)
  | recording id personKey vouch record =>
      have elsewhere : id ≠ other := different
      simp only [resumeVouchFor]
      split
      · rename_i roster saved updated
        have recorded : (Host.note { host with roster } (.recorded id record)).about other =
            host.about other := about_note_other { host with roster } rfl rfl
          (decide_eq_false elsewhere) rfl
        exact (about_park_unseen (Host.note { host with roster } _) unseen
          (progressOn_other (.recorded id vouch) elsewhere)).trans recorded
      · exact about_park_unseen host unseen (progressOn_other _ different)
  | recorded id vouch =>
      have elsewhere : id ≠ other := different
      have silent : (Event.answered id (.vouched vouch)).isVouched other = false :=
        decide_eq_false elsewhere
      exact (about_answer_unseen (host.setEntry id _) unseen silent).trans
        (Host.about_setEntry_other host _ elsewhere.symm)
  | countingGuess | findingPin | matchingPin | clearingFailures => rfl

theorem resume_follows (parked : host.calls call = some phase)
    (undisturbed : Undisturbed host (.resume call)) (other : RequestId) :
    Follows other host (resume platform host call phase entry) := by
  cases inside : phase.inVouchFor with
  | false =>
      simp only [resume, inside]
      exact resumeCheckPin_follows parked inside undisturbed other
  | true =>
      simp only [resume, inside, if_true]
      by_cases same : phase.id = other
      · subst other
        exact resumeVouchFor_follows_self parked inside
      · exact resumeVouchFor_follows_other parked same

theorem throwIn_follows (parked : host.calls call = some phase)
    (thrown : throwIn host call phase = some next) (other : RequestId) :
    Follows other host next := by
  by_cases same : phase.id = other
  · subst other
    have onIt := progressOn_self phase
    cases phase with
    | recorded id vouch => cases thrown
    | addressing id personKey vouch =>
        cases thrown
        exact follows_lose parked onIt
    | recording id personKey vouch record =>
        cases thrown
        exact follows_lose parked onIt
    | findingPerson id method =>
        cases thrown
        exact follows_giveUp parked onIt
    | signing id personKey details =>
        cases thrown
        exact follows_giveUp parked onIt
    | countingGuess | findingPin | matchingPin | clearingFailures =>
        cases thrown
        exact .of_same (about_answer_unseen host ((vouchers_of_parked parked _).trans onIt) rfl)
  · have unseen : host.vouchers other call = none :=
      (vouchers_of_parked parked other).trans (progressOn_other _ same)
    refine .of_same ?_
    cases phase with
    | recorded id vouch => cases thrown
    | addressing id personKey vouch | recording id personKey vouch record =>
        cases thrown
        have elsewhere : id ≠ other := same
        rw [about_answer_unseen (host.note _) unseen rfl]
        exact about_note_other host rfl (decide_eq_false elsewhere) rfl rfl
    | countingGuess | findingPin | matchingPin | clearingFailures | findingPerson | signing =>
        cases thrown
        exact about_answer_unseen host unseen rfl

/-- Every step that disturbs no resolution moves each request along its resolution. -/
theorem step_follows {action : Action} (undisturbed : Undisturbed host action)
    (taken : step platform host action = some next) (other : RequestId) :
    Follows other host next := by
  cases action with
  | tick | renameHost | editRoster | poll =>
      cases taken
      exact .of_same rfl
  | request id wanted personName deviceFingerprint =>
      simp only [step] at taken
      split at taken
      · rename_i fresh
        cases taken
        exact request_follows (Option.isNone_iff_eq_none.mp fresh) other
      · cases taken
  | confirm call id =>
      simp only [step] at taken
      split at taken
      · rename_i idle
        cases taken
        exact confirm_follows (Option.isNone_iff_eq_none.mp idle) undisturbed other
      · cases taken
  | reject id =>
      cases taken
      exact reject_follows undisturbed other
  | enterPin call id pin =>
      simp only [step] at taken
      split at taken
      · rename_i idle
        cases taken
        exact enterPin_follows (Option.isNone_iff_eq_none.mp idle) other
      · cases taken
  | resume call =>
      simp only [step] at taken
      cases parked : host.calls call with
      | none => simp [parked] at taken
      | some phase =>
          simp only [parked, Option.map_eq_some_iff] at taken
          obtain ⟨entry, -, rfl⟩ := taken
          exact resume_follows parked undisturbed other
  | throw call =>
      simp only [step, Option.bind_eq_some_iff] at taken
      obtain ⟨phase, parked, thrown⟩ := taken
      exact throwIn_follows parked thrown other

/-! ## Dropping a stale entry -/

/-- The request came in at `time`, and the host lists it unless it has gone stale. -/
structure ListedSince (id : RequestId) (time : Int) (host : Host) : Prop where
  received : (host.heap id).map Entry.receivedAt = some time
  listed : id ∈ host.entries ∨ time < host.now - pendingTtlMs

theorem ListedSince.dropStale {time : Int} (since : ListedSince id time host) :
    ListedSince id time (dropStale host) := by
  refine ⟨since.received, ?_⟩
  rcases since.listed with listed | stale
  · obtain ⟨entry, inHeap, rfl⟩ := Option.map_eq_some_iff.mp since.received
    by_cases stale : entry.receivedAt < host.now - pendingTtlMs
    · exact .inr stale
    · refine .inl (List.mem_filter.mpr ⟨listed, ?_⟩)
      simp [inHeap, isStale, stale]
  · exact .inr stale

theorem ListedSince.setEntry {time : Int} (since : ListedSince id time host)
    (inHeap : host.heap other = some entry) (changed : Entry)
    (same : changed.receivedAt = entry.receivedAt) :
    ListedSince id time (host.setEntry other changed) := by
  refine ⟨?_, since.listed⟩
  by_cases here : id = other
  · subst other
    simpa [Host.setEntry, same, inHeap] using since.received
  · simpa [Host.setEntry, Function.update_of_ne here] using since.received

/-- Parking, answering and noting touch neither the entries nor the clock. -/
theorem ListedSince.of_same {time : Int} (since : ListedSince id time host)
    (heap : next.heap = host.heap) (entries : next.entries = host.entries)
    (now : next.now = host.now) : ListedSince id time next := by
  refine ⟨?_, ?_⟩
  · rw [heap]
    exact since.received
  · rw [entries, now]
    exact since.listed

theorem ListedSince.resume {time : Int} (since : ListedSince id time host)
    (inHeap : host.heap phase.id = some entry) :
    ListedSince id time (resume platform host call phase entry) := by
  cases phase with
  | recorded other vouch =>
      have vouched := since.setEntry inHeap
        { entry with status := .vouched, vouch := some vouch } rfl
      exact vouched.of_same rfl rfl rfl
  | countingGuess | matchingPin | findingPin | findingPerson | recording =>
      simp only [Vouching.resume, Call.inVouchFor, resumeCheckPin, resumeVouchFor, if_true,
        Bool.false_eq_true, if_false]
      repeat' split
      all_goals exact since.of_same rfl rfl rfl
  | clearingFailures | signing | addressing => exact since.of_same rfl rfl rfl

theorem ListedSince.step {time : Int} {action : Action} (since : ListedSince id time host)
    (taken : step platform host action = some next) : ListedSince id time next := by
  cases action with
  | tick elapsed =>
      cases taken
      refine ⟨since.received, since.listed.imp_right fun stale => ?_⟩
      show time < host.now + elapsed - pendingTtlMs
      omega
  | renameHost | editRoster =>
      cases taken
      exact since.of_same rfl rfl rfl
  | poll =>
      cases taken
      exact since.dropStale
  | request asked wanted personName deviceFingerprint =>
      simp only [Vouching.step] at taken
      split at taken
      · rename_i fresh
        cases taken
        have different : id ≠ asked := by
          intro same
          subst asked
          have inHeap := since.received
          simp [Option.isNone_iff_eq_none.mp fresh] at inHeap
        simp only [request]
        split
        · exact since
        · split
          · exact since
          · refine ⟨?_, since.listed.imp_left fun listed => List.mem_append_left _ listed⟩
            simpa [Host.setEntry, Function.update_of_ne different] using since.received
      · cases taken
  | confirm | enterPin =>
      simp only [Vouching.step, confirm, enterPin] at taken
      split at taken
      · cases taken
        split <;> exact since.dropStale.of_same rfl rfl rfl
      · cases taken
  | reject rejected =>
      cases taken
      simp only [reject]
      cases found : pendingEntry host rejected with
      | none => exact since.dropStale
      | some entry =>
          have inHeap : (Vouching.dropStale host).heap rejected = some entry :=
            (pendingEntry_eq_some found).1
          exact since.dropStale.setEntry inHeap _ rfl
  | resume call =>
      simp only [Vouching.step] at taken
      cases parked : host.calls call with
      | none => simp [parked] at taken
      | some phase =>
          simp only [parked, Option.map_eq_some_iff] at taken
          obtain ⟨entry, inHeap, rfl⟩ := taken
          exact since.resume inHeap
  | throw call =>
      simp only [Vouching.step, Option.bind_eq_some_iff] at taken
      obtain ⟨phase, -, thrown⟩ := taken
      cases phase <;> cases thrown <;> exact since.of_same rfl rfl rfl

/-! ## Runs -/

def Reading.Final : Reading → Prop
  | .pending => False
  | .rejected | .vouched _ => True

/-- What holds of a request in one state of the host. -/
structure ResolvedOnce (host : Host) (id : RequestId) : Prop where
  one_signed : (host.about id).signed ≤ (host.about id).lost + 1
  one_recorded : (host.about id).recorded ≤ 1
  one_returned : (host.about id).vouched ≤ 1
  none_once_rejected : (host.heap id).map Entry.reading = some .rejected →
    (host.about id).recorded = 0 ∧ (host.about id).vouched = 0

/-- What holds of a request between a state and a later one. The guest is told
nothing any more once the host has dropped the entry for its age. -/
structure StatusKept (host later : Host) (id : RequestId) : Prop where
  entry_kept : ∀ reading : Reading, reading.Final →
    (host.heap id).map Entry.reading = some reading →
    (later.heap id).map Entry.reading = some reading
  reading_kept : ∀ reading : Reading, reading.Final → status host id = some reading →
    status later id = some reading ∨
      status later id = none ∧ ∃ entry, later.heap id = some entry ∧ isStale later.now entry

/-- Every request is resolved once, in every run from `start` that keeps to the guard. -/
def ResolvesOnce (platform : HostPlatform) (guard : Host → Action → Prop) (start : Host) : Prop :=
  ∀ host, Reaches (step platform) guard start host → ∀ id, ResolvedOnce host id ∧
    ∀ later, Reaches (step platform) guard host later → StatusKept host later id

theorem about_opened (now : Int) (label : JsString) (roster : PersonRoster) (id : RequestId) :
    (Host.opened now label roster).about id = Resolution.unknown.view := rfl

theorem reaches_resolution {now : Int} {label : JsString} {roster : PersonRoster}
    (reached : Reaches (step platform) Undisturbed (Host.opened now label roster) host)
    (id : RequestId) : ∃ resolution : Resolution, host.about id = resolution.view := by
  refine reached.invariant (fun host => ∃ resolution : Resolution, host.about id = resolution.view)
    ⟨.unknown, about_opened now label roster id⟩ ?_
  intro state next action _ shows undisturbed taken
  obtain ⟨resolution, shown⟩ := shows
  obtain ⟨later, shownLater, -⟩ := step_follows undisturbed taken id resolution shown
  exact ⟨later, shownLater⟩

theorem settled_kept {later : Host} {resolution : Resolution} (settled : resolution.Settled)
    (shown : host.about id = resolution.view)
    (reached : Reaches (step platform) Undisturbed host later) :
    later.about id = resolution.view := by
  refine reached.invariant (fun host => host.about id = resolution.view) shown ?_
  intro state next action _ shown undisturbed taken
  obtain ⟨final, shownFinal, same | moved⟩ := step_follows undisturbed taken id resolution shown
  · rwa [same] at shownFinal
  · exact absurd settled moved.not_settled

theorem Resolution.resolvedOnce {resolution : Resolution} (shown : host.about id = resolution.view) :
    ResolvedOnce host id := by
  have reading : (host.heap id).map Entry.reading = resolution.view.reading := by
    rw [← shown]
    rfl
  cases resolution with
  | unknown | waiting lost | vouching call lost | signed call lost | rejected lost =>
      constructor <;> simp [shown, view]
  | recorded call lost inRoster | vouched vouch lost inRoster =>
      constructor <;> simp [shown, reading, view, Bool.toNat_le]

theorem Resolution.settled_of_final {resolution : Resolution} {reading : Reading}
    (final : reading.Final) (read : resolution.view.reading = some reading) :
    resolution.Settled := by
  cases resolution with
  | vouched | rejected => trivial
  | unknown => cases read
  | waiting | vouching | signed | recorded =>
      cases read
      exact final

theorem status_eq (host : Host) (id : RequestId) :
    status host id = none ∨ status host id = (host.heap id).map Entry.reading := by
  simp only [status, Host.entryOf]
  split
  · exact .inr rfl
  · exact .inl rfl

theorem heap_of_status {reading : Reading} (read : status host id = some reading) :
    (host.heap id).map Entry.reading = some reading := by
  rcases status_eq host id with gone | here
  · rw [gone] at read
    cases read
  · rw [← here, read]

theorem listed_of_status {reading : Reading} (read : status host id = some reading) :
    id ∈ host.entries := by
  simp only [status, Host.entryOf] at read
  split at read
  · rename_i listed
    exact List.mem_of_mem_filter listed
  · cases read

/-- A request the host still lists reads as its entry, unless it has gone stale. -/
theorem ListedSince.read {time : Int} (since : ListedSince id time host) :
    status host id = (host.heap id).map Entry.reading ∨
      status host id = none ∧ ∃ entry, host.heap id = some entry ∧ isStale host.now entry := by
  obtain ⟨entry, inHeap, rfl⟩ := Option.map_eq_some_iff.mp since.received
  rcases since.dropStale.listed with listed | stale
  · refine .inl ?_
    simp only [status, Host.entryOf, listed, if_true]
    rfl
  · rcases status_eq host id with gone | here
    · exact .inr ⟨gone, entry, inHeap, decide_eq_true stale⟩
    · exact .inl here

theorem reaches_statusKept {later : Host} {resolution : Resolution}
    (shown : host.about id = resolution.view)
    (reached : Reaches (step platform) Undisturbed host later) : StatusKept host later id := by
  have kept : ∀ reading : Reading, reading.Final →
      (host.heap id).map Entry.reading = some reading →
      (later.heap id).map Entry.reading = some reading := by
    intro reading final read
    have viewed : resolution.view.reading = some reading := by
      rw [← shown]
      exact read
    have settled := Resolution.settled_of_final final viewed
    rw [← viewed, ← settled_kept settled shown reached]
    rfl
  refine ⟨kept, fun reading final read => ?_⟩
  have inHeap := heap_of_status read
  obtain ⟨entry, found, -⟩ := Option.map_eq_some_iff.mp inHeap
  have listedNow : ListedSince id entry.receivedAt host :=
    ⟨by simp [found], .inl (listed_of_status read)⟩
  have listedLater : ListedSince id entry.receivedAt later :=
    reached.invariant _ listedNow fun _ since _ taken => since.step taken
  rw [← kept reading final inHeap]
  exact listedLater.read

/-- While no two resolutions of a request overlap, each request is resolved once. -/
theorem resolves_once_undisturbed (platform : HostPlatform) (now : Int) (label : JsString)
    (roster : PersonRoster) :
    ResolvesOnce platform Undisturbed (Host.opened now label roster) := by
  intro host reached id
  obtain ⟨resolution, shown⟩ := reaches_resolution reached id
  exact ⟨resolution.resolvedOnce shown, fun later onwards => reaches_statusKept shown onwards⟩

/-! ## Overlapping resolutions -/

def samplePlatform : HostPlatform where
  hostKey := js "studio-key"
  sign payload := js "signed " ++ payload.vouchedAt
  statementAddress vouch := js "address of " ++ vouch.signature
  derives pin stored := pin = stored.hash
  toISOString time := js "1970-01-01T00:00:00.00" ++ [0x30 + time.toNat.toUInt16] ++ js "Z"

def sampleCertificate : FirstCertificate := ⟨js "certificate", ⟨.null, js "signature"⟩⟩

def sam : RosterEntry :=
  joinEntry (js "sam-key") (js "Sam") sampleCertificate none (js "1970-01-01T00:00:00.000Z")

def sampleHost : Host :=
  Host.opened 0 (js "Studio") fun personKey => if personKey = sam.personKey then some sam else none

def samRequest : VouchRequest where
  deviceKey := js "phone-key"
  personKey := sam.personKey
  deviceLabel := js "phone"
  requestedAt := js "1970-01-01T00:00:00.000Z"

/-- The operator clicks twice, and the host reads its clock once for each click. -/
def doubleConfirm : List Action :=
  [.request (js "r") samRequest sam.name (js "fingerprint"), .confirm 0 (js "r"), .resume 0,
    .tick 1, .confirm 1 (js "r"), .resume 1, .resume 0, .resume 0, .resume 0, .resume 0,
    .resume 1, .resume 1, .resume 1, .resume 1]

def confirmThenReject : List Action :=
  [.request (js "r") samRequest sam.name (js "fingerprint"), .confirm 0 (js "r"), .reject (js "r")]

def vouchAfterAll : List Action := [.resume 0, .resume 0, .resume 0, .resume 0, .resume 0]

theorem doubleConfirm_records_two :
    ((run (step samplePlatform) sampleHost doubleConfirm).map fun host =>
      ((host.about (js "r")).recorded, (host.roster sam.personKey).map fun entry =>
        (entry.vouches.getD []).length)) = some (2, some 2) := by
  decide +kernel

theorem confirmThenReject_rejects :
    ((run (step samplePlatform) sampleHost confirmThenReject).map fun host =>
      status host (js "r")) = some (some .rejected) := by
  decide +kernel

theorem vouchAfterAll_records :
    (((run (step samplePlatform) sampleHost confirmThenReject).bind fun host =>
      run (step samplePlatform) host vouchAfterAll).map fun host =>
        (host.about (js "r")).recorded) = some 1 := by
  decide +kernel

/-- Two clicks on confirm record two vouches for one request, and a request that
was rejected during its confirm is vouched for all the same. -/
theorem overlapping_resolutions_vouch_again :
    ¬ ResolvesOnce samplePlatform anyAction sampleHost ∧
      ∃ rejected later, Reaches (step samplePlatform) anyAction sampleHost rejected ∧
        status rejected (js "r") = some .rejected ∧
        Reaches (step samplePlatform) anyAction rejected later ∧
        (later.about (js "r")).recorded = 1 := by
  refine ⟨fun resolvesOnce => ?_, ?_⟩
  · obtain ⟨host, ran, shows⟩ := Option.map_eq_some_iff.mp doubleConfirm_records_two
    have reached : Reaches (step samplePlatform) anyAction sampleHost host :=
      .of_run ran (meetsAlong_anyAction _ _)
    have recorded : (host.about (js "r")).recorded = 2 := congrArg Prod.fst shows
    have once := (resolvesOnce host reached (js "r")).1.one_recorded
    omega
  · obtain ⟨rejected, ran, reads⟩ := Option.map_eq_some_iff.mp confirmThenReject_rejects
    have vouches := vouchAfterAll_records
    rw [ran, Option.bind_some] at vouches
    obtain ⟨later, ranOn, recorded⟩ := Option.map_eq_some_iff.mp vouches
    exact ⟨rejected, later, .of_run ran (meetsAlong_anyAction _ _), reads,
      .of_run ranOn (meetsAlong_anyAction _ _), recorded⟩

/-! ## One resolution at a time -/

/-- A confirm or a reject of what waits no more, and a call that is inside `vouchFor`. -/
def apartCheck (host : Host) : Action → Bool
  | .confirm _ id | .reject id => (pendingEntry host id).isNone
  | .resume call => (host.calls call).all Call.inVouchFor
  | _ => true

theorem undisturbed_of_check {host : Host} {action : Action}
    (checked : apartCheck host action = true) : Undisturbed host action := by
  cases action with
  | confirm call id | reject id =>
      intro pending
      exact absurd (Option.isNone_iff_eq_none.mp checked) pending
  | resume call =>
      intro id clearing
      simp [apartCheck, clearing, Call.inVouchFor] at checked
  | _ => trivial

def requestedHost : Host :=
  request sampleHost (js "r") samRequest sam.name (js "fingerprint")

def confirmedHost : Host := confirm requestedHost 0 (js "r")

theorem reaches_confirmedHost :
    Reaches (step samplePlatform) Undisturbed sampleHost confirmedHost := by
  have asked : step samplePlatform sampleHost
      (.request (js "r") samRequest sam.name (js "fingerprint")) = some requestedHost := rfl
  have clicked : step samplePlatform requestedHost (.confirm 0 (js "r")) = some confirmedHost := rfl
  have requested : Reaches (step samplePlatform) Undisturbed sampleHost requestedHost :=
    Reaches.refl.tail (by trivial) asked
  refine requested.tail ?_ clicked
  intro _
  rfl

/-- The confirm returns, and a second click comes after it. -/
def confirmAgain : List Action :=
  [.resume 0, .resume 0, .resume 0, .resume 0, .resume 0, .confirm 1 (js "r"), .reject (js "r")]

theorem confirmAgain_answers :
    (run (guarded (apartCheck · ·) (step samplePlatform)) confirmedHost confirmAgain).any (fun host => (host.about (js "r")).recorded = 1 ∧
        host.history.head? = some (.answered (js "r") .undefined)) = true := by
  decide +kernel

/-- The second click finds the request vouched for, and nothing is signed for it. -/
theorem second_click_resolves_nothing :
    ∃ host, Reaches (step samplePlatform) Undisturbed sampleHost host ∧
      (host.about (js "r")).recorded = 1 ∧
      host.history.head? = some (.answered (js "r") .undefined) ∧ ResolvedOnce host (js "r") := by
  obtain ⟨host, ran, shows⟩ := (Option.any_eq_true _ _).mp confirmAgain_answers
  obtain ⟨recorded, answered⟩ := of_decide_eq_true shows
  have later : Reaches (step samplePlatform) Undisturbed confirmedHost host :=
    .of_checked_run ran fun _ _ _ _ => undisturbed_of_check
  have reached := reaches_confirmedHost.trans later
  have once := resolves_once_undisturbed samplePlatform 0 (js "Studio") sampleHost.roster host
    reached (js "r")
  exact ⟨host, reached, recorded, answered, once.1⟩

end Tapes.Vouching
