import Tapes.Machine.Run
import Tapes.Vouching.HostVouching

namespace Tapes.Vouching

open Tapes.Js Tapes.Provenance Tapes.Machine

/-! What answering one request is meant to be: a request waits, at most one call at
a time tries to vouch for it, and it ends vouched or rejected for good. -/

inductive Progress where
  | unsigned
  | signed
  | recorded
deriving DecidableEq

/-- `lost` counts signed vouches whose call failed before the roster had them. -/
inductive Resolution where
  | unknown
  | waiting (lost : Nat)
  | vouching (call : CallId) (lost : Nat)
  | signed (call : CallId) (lost : Nat)
  | recorded (call : CallId) (lost : Nat) (inRoster : Bool)
  | vouched (vouch : Option Vouch) (lost : Nat) (inRoster : Bool)
  | rejected (lost : Nat)

inductive Resolution.Moves : Resolution → Resolution → Prop
  | ask : Moves .unknown (.waiting 0)
  | reject : Moves (.waiting lost) (.rejected lost)
  | start : Moves (.waiting lost) (.vouching call lost)
  | sign : Moves (.vouching call lost) (.signed call lost)
  | record : Moves (.signed call lost) (.recorded call lost inRoster)
  | vouch : Moves (.recorded call lost inRoster) (.vouched vouch lost inRoster)
  | giveUp : Moves (.vouching call lost) (.waiting lost)
  | lose : Moves (.signed call lost) (.waiting (lost + 1))

def Resolution.Settled : Resolution → Prop
  | .vouched .. | .rejected .. => True
  | _ => False

theorem Resolution.Moves.not_settled {before after : Resolution}
    (move : before.Moves after) : ¬ before.Settled := by
  cases move <;> exact id

/-! ## What the host's state shows of one request -/

structure View where
  reading : Option Reading
  vouchers : CallId → Option Progress
  signed : Nat
  lost : Nat
  recorded : Nat
  vouched : Nat

def nobody : CallId → Option Progress := fun _ => none

def only (call : CallId) (progress : Progress) : CallId → Option Progress :=
  Function.update nobody call (some progress)

def Resolution.view : Resolution → View
  | .unknown => ⟨none, nobody, 0, 0, 0, 0⟩
  | .waiting lost => ⟨some .pending, nobody, lost, lost, 0, 0⟩
  | .vouching call lost => ⟨some .pending, only call .unsigned, lost, lost, 0, 0⟩
  | .signed call lost => ⟨some .pending, only call .signed, lost + 1, lost, 0, 0⟩
  | .recorded call lost inRoster =>
      ⟨some .pending, only call .recorded, lost + 1, lost, inRoster.toNat, 0⟩
  | .vouched vouch lost inRoster =>
      ⟨some (.vouched vouch), nobody, lost + 1, lost, inRoster.toNat, 1⟩
  | .rejected lost => ⟨some .rejected, nobody, lost, lost, 0, 0⟩

def Call.progress : Call → Option Progress
  | .findingPerson .. | .signing .. => some .unsigned
  | .addressing .. | .recording .. => some .signed
  | .recorded .. => some .recorded
  | _ => none

def Call.progressOn (id : RequestId) (phase : Call) : Option Progress :=
  if phase.id = id then phase.progress else none

def Host.vouchers (host : Host) (id : RequestId) : CallId → Option Progress :=
  fun call => (host.calls call).bind (Call.progressOn id)

def Event.isSigned (id : RequestId) : Event → Bool
  | .signed of _ => of = id
  | _ => false

def Event.isLost (id : RequestId) : Event → Bool
  | .lost of => of = id
  | _ => false

def Event.isRecorded (id : RequestId) : Event → Bool
  | .recorded of _ => of = id
  | _ => false

def Event.isVouched (id : RequestId) : Event → Bool
  | .answered of (.vouched _) => of = id
  | _ => false

def Host.about (host : Host) (id : RequestId) : View where
  reading := (host.heap id).map Entry.reading
  vouchers := host.vouchers id
  signed := host.history.countP (Event.isSigned id)
  lost := host.history.countP (Event.isLost id)
  recorded := host.history.countP (Event.isRecorded id)
  vouched := host.history.countP (Event.isVouched id)

/-! ## What each change of the host does to the view -/

def View.withVoucher (view : View) (call : CallId) (progress : Option Progress) : View :=
  { view with vouchers := Function.update view.vouchers call progress }

def View.note (view : View) (id : RequestId) (event : Event) : View :=
  { view with
    signed := view.signed + (event.isSigned id).toNat
    lost := view.lost + (event.isLost id).toNat
    recorded := view.recorded + (event.isRecorded id).toNat
    vouched := view.vouched + (event.isVouched id).toNat }

theorem countP_cons_toNat (counted : Event → Bool) (event : Event) (history : List Event) :
    (event :: history).countP counted = history.countP counted + (counted event).toNat := by
  cases found : counted event <;> simp [found]

theorem Host.about_note (host : Host) (id : RequestId) (event : Event) :
    (host.note event).about id = (host.about id).note id event := by
  simp only [Host.about, Host.note, View.note, countP_cons_toNat]
  rfl

theorem Host.about_park (host : Host) (id : RequestId) (call : CallId) (phase : Call) :
    (host.park call phase).about id =
      (host.about id).withVoucher call (phase.progressOn id) := by
  have vouchers : (host.park call phase).vouchers id =
      Function.update (host.vouchers id) call (phase.progressOn id) := by
    funext other
    by_cases same : other = call
    · subst other
      simp [Host.vouchers, Host.park]
    · simp [Host.vouchers, Host.park, Function.update_of_ne same]
  simp only [Host.about, View.withVoucher, vouchers]
  rfl

theorem Host.about_answer (host : Host) (id other : RequestId) (call : CallId) (answer : Answer) :
    (host.answer call other answer).about id =
      ((host.about id).withVoucher call none).note id (.answered other answer) := by
  have vouchers : (host.answer call other answer).vouchers id =
      Function.update (host.vouchers id) call none := by
    funext another
    by_cases same : another = call
    · subst another
      simp [Host.vouchers, Host.answer]
    · simp [Host.vouchers, Host.answer, Function.update_of_ne same]
  simp only [Host.about, View.withVoucher, View.note, vouchers]
  simp only [Host.answer, countP_cons_toNat]

theorem Host.about_setEntry_same (host : Host) (id : RequestId) (entry : Entry) :
    (host.setEntry id entry).about id = { host.about id with reading := some entry.reading } := by
  simp only [Host.about, Host.setEntry, Function.update_self, Option.map_some]
  rfl

theorem Host.about_setEntry_other (host : Host) {id other : RequestId} (entry : Entry)
    (different : id ≠ other) : (host.setEntry other entry).about id = host.about id := by
  simp only [Host.about, Host.setEntry, Function.update_of_ne different]
  rfl

theorem View.note_other (view : View) {id : RequestId} {event : Event}
    (signed : event.isSigned id = false) (lost : event.isLost id = false)
    (recorded : event.isRecorded id = false) (vouched : event.isVouched id = false) :
    view.note id event = view := by
  simp [View.note, signed, lost, recorded, vouched]

/-- A call that is not inside `vouchFor` for this request comes and goes unseen. -/
theorem View.withVoucher_none {host : Host} {id : RequestId} {call : CallId}
    (unseen : host.vouchers id call = none) :
    (host.about id).withVoucher call none = host.about id := by
  have same : Function.update (host.vouchers id) call none = host.vouchers id := by
    rw [← unseen]
    exact Function.update_eq_self call _
  simp only [View.withVoucher, Host.about, same]

theorem update_nobody (call : CallId) (progress : Progress) :
    Function.update nobody call (some progress) = only call progress := rfl

theorem update_only (call : CallId) (progress : Progress) (next : Option Progress) :
    Function.update (only call progress) call next = Function.update nobody call next := by
  simp [only]

theorem update_nobody_none (call : CallId) : Function.update nobody call none = nobody :=
  Function.update_eq_self call nobody

theorem only_eq_some {call other : CallId} {progress found : Progress}
    (voucher : only call progress other = some found) : call = other ∧ progress = found := by
  by_cases same : other = call
  · subst other
    simp only [only, Function.update_self, Option.some.injEq] at voucher
    exact ⟨rfl, voucher⟩
  · simp [only, Function.update_of_ne same, nobody] at voucher

/-! ## The host keeps to the resolution -/

/-- A resolution starts only on a request that nothing else is resolving: a confirm,
a reject or a right PIN finds no other call inside `vouchFor` for the request, and a
right PIN finds it still pending. -/
def Undisturbed (host : Host) : Action → Prop
  | .confirm _ id | .reject id => pendingEntry host id ≠ none → host.vouchers id = nobody
  | .resume call => ∀ id, host.calls call = some (.clearingFailures id) →
      host.vouchers id = nobody ∧ (host.heap id).map Entry.reading = some .pending
  | _ => True

/-- The host after a step shows the same resolution of the request, or its next one. -/
def Follows (id : RequestId) (before after : Host) : Prop :=
  ∀ resolution : Resolution, before.about id = resolution.view →
    ∃ later : Resolution, after.about id = later.view ∧
      (later = resolution ∨ resolution.Moves later)

theorem Follows.of_same {id : RequestId} {before after : Host}
    (same : after.about id = before.about id) : Follows id before after :=
  fun resolution shown => ⟨resolution, same.trans shown, .inl rfl⟩

theorem Follows.trans_same {id : RequestId} {before after : Host} (middle : Host)
    (same : middle.about id = before.about id) (follows : Follows id middle after) :
    Follows id before after :=
  fun resolution shown => follows resolution (same.trans shown)

theorem pendingEntry_eq_some {host : Host} {id : RequestId} {entry : Entry}
    (found : pendingEntry host id = some entry) :
    host.heap id = some entry ∧ entry.reading = .pending := by
  simp only [pendingEntry, Host.entryOf, Option.filter_eq_some_iff] at found
  obtain ⟨inHeap, pending⟩ := found
  have status : entry.status = .pending := of_decide_eq_true pending
  refine ⟨?_, by simp [Entry.reading, status]⟩
  split at inHeap
  · exact inHeap
  · cases inHeap

/-- Of all resolutions only `waiting` shows a pending request nobody vouches for. -/
theorem Resolution.eq_waiting {resolution : Resolution} {view : View}
    (shown : view = resolution.view) (pending : view.reading = some .pending)
    (free : view.vouchers = nobody) : ∃ lost, resolution = .waiting lost := by
  subst view
  cases resolution with
  | waiting lost => exact ⟨lost, rfl⟩
  | unknown | vouched vouch lost inRoster | rejected lost => cases pending
  | vouching call lost | signed call lost | recorded call lost inRoster =>
      have here := congrFun free call
      simp [Resolution.view, only, nobody] at here

/-- A parked call that has nothing to do with the request's vouching. -/
theorem about_park_unseen (host : Host) {id : RequestId} {call : CallId} {phase : Call}
    (unseen : host.vouchers id call = none) (elsewhere : phase.progressOn id = none) :
    (host.park call phase).about id = host.about id := by
  rw [Host.about_park, elsewhere, View.withVoucher_none unseen]

theorem about_answer_unseen (host : Host) {id other : RequestId} {call : CallId} {answer : Answer}
    (unseen : host.vouchers id call = none)
    (silent : (Event.answered other answer).isVouched id = false) :
    (host.answer call other answer).about id = host.about id := by
  rw [Host.about_answer, View.withVoucher_none unseen]
  exact View.note_other _ rfl rfl rfl silent

theorem vouchers_of_idle {host : Host} {call : CallId} (idle : host.calls call = none)
    (id : RequestId) : host.vouchers id call = none := by
  simp [Host.vouchers, idle]

theorem vouchers_of_parked {host : Host} {call : CallId} {phase : Call}
    (parked : host.calls call = some phase) (id : RequestId) :
    host.vouchers id call = phase.progressOn id := by
  simp [Host.vouchers, parked]

theorem progressOn_other {id : RequestId} (phase : Call) (different : phase.id ≠ id) :
    phase.progressOn id = none := by
  simp [Call.progressOn, different]

/-- Entering `vouchFor` on a pending request nobody else vouches for. -/
theorem follows_enter (host : Host) {call : CallId} {id : RequestId} {method : VouchMethod}
    (pending : (host.heap id).map Entry.reading = some .pending)
    (free : host.vouchers id = nobody) :
    Follows id host (host.park call (.findingPerson id method)) := by
  intro resolution shown
  obtain ⟨lost, rfl⟩ := Resolution.eq_waiting shown pending free
  refine ⟨.vouching call lost, ?_, .inr .start⟩
  rw [Host.about_park, shown]
  simp [View.withVoucher, Resolution.view, Call.progressOn, Call.id, Call.progress,
    update_nobody]

theorem confirm_follows {host : Host} {call : CallId} {id : RequestId}
    (idle : host.calls call = none)
    (free : pendingEntry host id ≠ none → host.vouchers id = nobody) (other : RequestId) :
    Follows other host (confirm host call id) := by
  have unseen := vouchers_of_idle idle other
  simp only [confirm]
  cases found : pendingEntry host id with
  | none => exact .of_same (about_answer_unseen (dropStale host) unseen rfl)
  | some entry =>
      by_cases same : id = other
      · subst other
        obtain ⟨inHeap, pending⟩ := pendingEntry_eq_some found
        have waiting : ((dropStale host).heap id).map Entry.reading = some .pending := by
          simp [dropStale, inHeap, pending]
        exact Follows.trans_same (dropStale host) rfl
          (follows_enter (dropStale host) waiting (free (by simp [found])))
      · exact .of_same
          (about_park_unseen (dropStale host) unseen (progressOn_other _ same))

theorem reject_follows {host : Host} {id : RequestId}
    (free : pendingEntry host id ≠ none → host.vouchers id = nobody) (other : RequestId) :
    Follows other host (reject host id) := by
  simp only [reject]
  cases found : pendingEntry host id with
  | none => exact .of_same rfl
  | some entry =>
      by_cases same : other = id
      · subst other
        obtain ⟨inHeap, pending⟩ := pendingEntry_eq_some found
        intro resolution shown
        have waiting : (host.about id).reading = some .pending := by
          simp [Host.about, inHeap, pending]
        obtain ⟨lost, rfl⟩ := Resolution.eq_waiting shown waiting (free (by simp [found]))
        refine ⟨.rejected lost, ?_, .inr .reject⟩
        have dropped : (dropStale host).about id = host.about id := rfl
        rw [Host.about_setEntry_same, dropped, shown]
        rfl
      · exact .of_same (Host.about_setEntry_other (dropStale host) _ same)

theorem enterPin_follows {host : Host} {call : CallId} {id : RequestId} {pin : JsString}
    (idle : host.calls call = none) (other : RequestId) :
    Follows other host (enterPin host call id pin) := by
  have unseen := vouchers_of_idle idle other
  simp only [enterPin]
  cases pendingEntry host id with
  | none => exact .of_same (about_answer_unseen (dropStale host) unseen rfl)
  | some entry =>
      exact .of_same (about_park_unseen (dropStale host) unseen
        (by simp [Call.progressOn, Call.progress]))

theorem request_follows {host : Host} {id : RequestId} {wanted : VouchRequest}
    {personName deviceFingerprint : JsString} (fresh : host.heap id = none) (other : RequestId) :
    Follows other host (request host id wanted personName deviceFingerprint) := by
  simp only [request]
  split
  · exact .of_same rfl
  · split
    · exact .of_same rfl
    · by_cases same : other = id
      · subst other
        intro resolution shown
        have unread : (host.about id).reading = none := by simp [Host.about, fresh]
        cases resolution with
        | unknown =>
            refine ⟨.waiting 0, ?_, .inr .ask⟩
            have entered := Host.about_setEntry_same host id
              { request := wanted, personName, deviceFingerprint, receivedAt := host.now
                status := .pending, vouch := none }
            rw [shown] at entered
            exact entered
        | waiting | vouching | signed | recorded | vouched | rejected =>
            rw [shown] at unread
            cases unread
      · exact .of_same (Host.about_setEntry_other host _ same)

end Tapes.Vouching
