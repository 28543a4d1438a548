import Tapes.Js.Utf8
import Tapes.Outbox.OnTheWay

namespace Tapes.Outbox

open Tapes.Js Tapes.Machine
open Tapes.Events (Log NoSeparator PlaybackEvent replay)

/-! No play is lost or counted twice on its way from a queue to the log. -/

variable {isDate : JsString → Bool} {limits : Limits} {cap : Nat} {system next : System} {log : Log}
  {event : PlaybackEvent} {device : JsString}

/-! ## Runs -/

theorem sound_start : Sound isDate start [] := by
  have nothing : Holds .empty [] := ⟨fun _ => rfl, by simp, by simp [keysOf]⟩
  refine ⟨hostSound_openHost nothing, ?_, ?_, ?_, ?_, ?_, ?_, ?_, ?_, ?_⟩
  · intro event absent
    cases absent
  · intro event absent
    cases absent
  · intro device event absent
    cases absent
  · intro event absent
    cases absent
  · intro entry absent
    cases absent
  · intro name exchange absent
    cases absent
  · intro pending absent
    cases absent
  · intro append absent
    cases absent
  · intro append absent
    cases absent

theorem Sound.step {action : Action} (sound : Sound isDate system log)
    (proper : OnOneLine isDate system action)
    (taken : step isDate limits cap system action = some next) : ∃ more, Sound isDate next more := by
  cases action with
  | enqueue device event =>
      cases taken
      obtain ⟨⟨sendable, scope, new⟩, dated⟩ := proper
      exact ⟨log, sound.enqueue sendable (dated device event rfl) scope new⟩
  | flush device id =>
      simp only [Outbox.step] at taken
      split at taken
      · rename_i event rest free queue
        cases taken
        exact ⟨log, sound.flush free queue⟩
      · cases taken
  | receive id =>
      obtain ⟨exchange, found, received⟩ := Option.bind_eq_some_iff.mp taken
      exact ⟨log, sound.receive found received⟩
  | judge id known =>
      obtain ⟨exchange, found, judged⟩ := Option.bind_eq_some_iff.mp taken
      exact ⟨log, sound.judgeNext found judged⟩
  | append id now =>
      obtain ⟨exchange, found, called⟩ := Option.bind_eq_some_iff.mp taken
      exact ⟨log, sound.callAppend found called⟩
  | begin =>
      simp only [Outbox.step] at taken
      split at taken
      · rename_i pending rest idle waiting
        cases taken
        exact ⟨log, sound.begin idle waiting⟩
      · cases taken
  | write succeeds =>
      obtain ⟨append, running, written⟩ := Option.map_eq_some_iff.mp taken
      split at written
      · subst written
        exact ⟨grown log append, sound.wrote running⟩
      · subst written
        exact ⟨log, sound.failed running⟩
  | record =>
      simp only [Outbox.step] at taken
      split at taken
      · rename_i append rest resolved
        cases taken
        exact ⟨log, sound.record resolved⟩
      · cases taken
  | settle id =>
      obtain ⟨exchange, found, settled⟩ := Option.bind_eq_some_iff.mp taken
      exact ⟨log, sound.settle found settled⟩
  | lose id =>
      obtain ⟨exchange, found, rfl⟩ := Option.map_eq_some_iff.mp taken
      exact ⟨log, sound.put found rfl rfl rfl (fun still => by cases still)
        (sound.exchanges id exchange found).phase⟩
  | restart =>
      cases taken
      exact ⟨log, sound.restart⟩

/-- Every play that was enqueued is in its queue or in the log, unless the cap dropped it or it was in
a batch that the host refused; the log has it once, and the rollup counts what the log has. -/
theorem plays_are_kept_and_counted_once (isDate : JsString → Bool) (limits : Limits) (cap : Nat)
    (system : System)
    (reached : Reaches (step isDate limits cap) (OnOneLine isDate) start system) :
    Delivered isDate system := by
  obtain ⟨log, sound⟩ := reached.invariant (fun state => ∃ log, Sound isDate state log)
    ⟨[], sound_start⟩ fun _ ⟨_, sound⟩ proper taken => sound.step proper taken
  exact sound.delivered

/-! ## A run -/

/-- What `Date.parse` says of the texts here. -/
def sampleDates (text : JsString) : Bool := (js "2026-01-01").isPrefixOf text

def phone : JsString := js "phone"

theorem hosts_of_checked (identified : event.id ≠ []) (url : isRecordingUrl event.recordingUrl = true)
    (finite : Events.isFinite event.completion = true) (dated : isDate event.occurredAt = true) :
    ∃ hosted, Hosts isDate event hosted := by
  have id : (reread (eventValue event)).get (js "id") = .string event.id :=
    get_eventValue (List.mem_cons_self ..)
  have urlMember : (js "recordingUrl", JsValue.string event.recordingUrl) ∈ eventMembers event := by
    simp [eventMembers]
  have typeMember : (js "type", JsValue.string (js "play")) ∈ eventMembers event := by
    simp [eventMembers]
  have completionMember : (js "completion", JsValue.number event.completion) ∈ eventMembers event := by
    simp [eventMembers]
  have dateMember : (js "occurredAt", JsValue.string event.occurredAt) ∈ eventMembers event := by
    simp [eventMembers]
  unfold Hosts validate
  rw [id, nonEmpty_string, if_neg identified, get_eventValue urlMember, get_eventValue typeMember,
    get_eventValue completionMember, get_eventValue dateMember]
  cases completion : event.completion with
  | nan => simp [completion, Events.isFinite] at finite
  | infinite negative => simp [completion, Events.isFinite] at finite
  | finite negative magnitude =>
      simp [JsValue.isUndefined, reread, JsValue.string?, JsValue.number?, JsNumber.written, url, dated]

def playOn (id occurredAt : JsString) : PlaybackEvent where
  id := id
  recordingUrl := js "automerge:1111111111111111"
  completion := .finite false .one
  occurredAt := occurredAt
  deviceId := some phone

def dated : JsString := js "2026-01-01T00:00:00.000Z"

/-- The event's way to the log, up to the write. -/
def carried : List Action :=
  [.flush phone 0, .receive 0, .judge 0 true, .append 0 0, .begin, .write true]

def atPhone (event : PlaybackEvent) (rest : List Action) : Option System :=
  run (step sampleDates defaultLimits 500) start (.enqueue phone event :: rest)

theorem sendable_playOn {id occurredAt : JsString} (identified : id ≠ []) (safe : NoSeparator id)
    (dates : sampleDates occurredAt = true) : Sendable sampleDates (playOn id occurredAt) where
  device := ⟨phone, rfl, by decide, by decide, by decide⟩
  id := safe
  wellFormed := by
    have url : isRecordingUrl (js "automerge:1111111111111111") = true := by decide
    exact hosts_of_checked identified url rfl dates

theorem ownEvents_start (sendable : Sendable isDate event) (scope : event.deviceId = some device) :
    OwnEvents isDate start (.enqueue device event) :=
  ⟨sendable, scope, fun _ absent => by cases absent⟩

theorem onOneLine_other {action : Action} (other : ∀ device event, action ≠ .enqueue device event)
    (state : System) : OnOneLine isDate state action := by
  refine ⟨?_, fun device event same => absurd same (other device event)⟩
  cases action with
  | enqueue device event => exact absurd rfl (other device event)
  | flush | receive | judge | append | begin | write | record | settle | lose | restart => trivial

theorem carried_other {action : Action} (member : action ∈ carried ++ [.record, .settle 0])
    (device : JsString) (event : PlaybackEvent) : action ≠ .enqueue device event := by
  rintro rfl
  simp [carried] at member

theorem reached_atPhone {guard : System → Action → Prop} {rest : List Action}
    (first : guard start (.enqueue phone event)) (others : ∀ action ∈ rest, ∀ state, guard state action)
    (ran : atPhone event rest = some system) :
    Reaches (step sampleDates defaultLimits 500) guard start system :=
  .of_run ran ⟨first, fun next _ => meetsAlong_of_forall others next⟩

theorem onOneLine_playOn {id occurredAt : JsString}
    (sendable : Sendable sampleDates (playOn id occurredAt)) (line : NoSeparator occurredAt) :
    OnOneLine sampleDates start (.enqueue phone (playOn id occurredAt)) := by
  refine ⟨ownEvents_start sendable rfl, fun device event same => ?_⟩
  cases same
  exact line

theorem ownPlay : OnOneLine sampleDates start (.enqueue phone (playOn (js "a") dated)) := by
  have identified : js "a" ≠ [] := by decide
  exact onOneLine_playOn (sendable_playOn identified (by decide) (by decide)) (by decide)

/-- A play that is sent, written, counted and settled. -/
theorem play_is_delivered : ∃ system,
    Reaches (step sampleDates defaultLimits 500) (OnOneLine sampleDates) start system ∧
      system.queues phone = [] ∧ (replay system.host.store.dir).length = 1 ∧
        Delivered sampleDates system := by
  have observed : (atPhone (playOn (js "a") dated) (carried ++ [.record, .settle 0])).map
      (fun system => (system.queues phone, (replay system.host.store.dir).length)) =
        some ([], 1) := by decide +kernel
  obtain ⟨system, ran, seen⟩ := Option.map_eq_some_iff.mp observed
  obtain ⟨queue, logged⟩ := Prod.mk.inj seen
  have reached := reached_atPhone ownPlay
    (fun action member state => onOneLine_other (carried_other member) state) ran
  exact ⟨system, reached, queue, logged,
    plays_are_kept_and_counted_once sampleDates defaultLimits 500 system reached⟩

/-- The event is where it should be: in its queue or in the log, or the cap has dropped it. -/
def Kept (isDate : JsString → Bool) (system : System) (event : PlaybackEvent) : Prop :=
  Queued system event ∨ InLog isDate system event ∨ event ∈ system.evicted

theorem not_kept (scope : event.deviceId = some phone) (queue : system.queues phone = [])
    (nothing : replay system.host.store.dir = []) (cap : system.evicted = []) :
    ¬ Kept isDate system event := by
  intro kept
  obtain ⟨device, owned, queued⟩ | ⟨stored, _, logged⟩ | evicted := kept
  · rw [scope, Option.some.injEq] at owned
    subst owned
    rw [queue] at queued
    cases queued
  · rw [nothing] at logged
    cases logged
  · rw [cap] at evicted
    cases evicted

/-! ### A batch that is too large -/

theorem length_lt_requestBody (event : PlaybackEvent) :
    event.id.length < (requestBody [event]).length := by
  have quoted := length_lt_quote event.id
  have inside : (quote event.id).length ≤ (stringify (eventValue event)).length := by
    rw [eventValue, eventMembers, Events.stringify_members _ _ (by simp [JsValue.isUndefined]), stringify]
    simp only [List.length_append]
    omega
  rw [requestBody, Events.stringify_members _ _ (by simp [JsValue.isUndefined]), List.map_singleton,
    stringify, stringifyItems, stringifyItems, joinComma]
  simp only [List.length_append]
  omega

theorem readBatch_oversized (large : limits.maxBodyBytes ≤ event.id.length) :
    readBatch limits (requestBody [event]) = .error 413 := by
  have bytes := length_le_utf8Encode (requestBody [event])
  have body := length_lt_requestBody event
  rw [readBatch, if_pos (by omega)]

/-- A batch that is refused whole is dropped. -/
theorem refused_whole {guard : System → Action → Prop}
    (reached : Reaches (step isDate limits cap) guard start system)
    (free : ∀ state, guard state (.receive 0) ∧ guard state (.settle 0))
    (found : system.exchanges 0 = some ⟨device, [event], true, .sent, []⟩)
    (large : limits.maxBodyBytes ≤ event.id.length) :
    Reaches (step isDate limits cap) guard start
      { (system.put 0 ⟨device, [event], true, .answered (.error 413), []⟩).put 0
          ⟨device, [event], false, .answered (.error 413), []⟩ with
        queues := Function.update system.queues device []
        refused := system.refused ++ [event]
        crossed := system.crossed ++ [] } := by
  have received : step isDate limits cap system (.receive 0) =
      some (system.put 0 ⟨device, [event], true, .answered (.error 413), []⟩) := by
    simp only [step, found, Option.bind_some, receive, readBatch_oversized large, moveTo_eq found,
      Exchange.to]
  have answered : (system.put 0 ⟨device, [event], true, .answered (.error 413), []⟩).exchanges 0 =
      some ⟨device, [event], true, .answered (.error 413), []⟩ := by
    simp [System.put]
  refine (reached.tail (free system).1 received).tail (free _).2 ?_
  simp only [step, answered, Option.bind_some, settle]
  rfl

theorem oversized_play_is_dropped (own : OnOneLine isDate start (.enqueue phone event))
    (scope : event.deviceId = some phone) (large : limits.maxBodyBytes ≤ event.id.length) :
    ∃ system, Reaches (step isDate limits 500) (OnOneLine isDate) start system ∧
      event ∈ system.enqueued ∧ ¬ Kept isDate system event := by
  let queued : System := { start with
    queues := Function.update start.queues phone [event], enqueued := [event] }
  have taken : step isDate limits 500 start (.enqueue phone event) = some queued := by
    simp [step, start, queued, enqueueEvent, evictedBy, overflow]
    rfl
  have enqueued : Reaches (step isDate limits 500) (OnOneLine isDate) start queued :=
    Reaches.refl.tail own taken
  have queue : queued.queues phone = [event] := by simp [queued]
  have flushed : step isDate limits 500 queued (.flush phone 0) =
      some (queued.put 0 ⟨phone, [event], true, .sent, []⟩) := by
    simp only [step, queue]
    rfl
  have sent := enqueued.tail (onOneLine_other (by simp) queued) flushed
  have found : (queued.put 0 ⟨phone, [event], true, .sent, []⟩).exchanges 0 =
      some ⟨phone, [event], true, .sent, []⟩ := by
    simp [System.put]
  have dropped := refused_whole sent
    (fun state => ⟨onOneLine_other (by simp) state, onOneLine_other (by simp) state⟩) found large
  exact ⟨_, dropped, List.mem_cons_self, not_kept scope (by simp) rfl rfl⟩

/-- A play with an id of a mebibyte. -/
def largePlay : PlaybackEvent := playOn (.replicate (1024 * 1024) 0x61) dated

theorem large_play_is_dropped : ∃ system,
    Reaches (step sampleDates defaultLimits 500) (OnOneLine sampleDates) start system ∧
      ∃ event ∈ system.enqueued, ¬ Kept sampleDates system event := by
  have identified : List.replicate (1024 * 1024) (0x61 : UInt16) ≠ [] := by
    refine List.ne_nil_of_length_pos ?_
    rw [List.length_replicate]
    omega
  have safe : NoSeparator (List.replicate (1024 * 1024) 0x61) := by
    intro unit member
    rw [List.eq_of_mem_replicate member]
    decide
  have own : OnOneLine sampleDates start (.enqueue phone largePlay) :=
    onOneLine_playOn (sendable_playOn identified safe (by decide)) (by decide)
  have large : defaultLimits.maxBodyBytes ≤ largePlay.id.length :=
    Nat.le_of_eq List.length_replicate.symm
  obtain ⟨system, reached, enqueued, dropped⟩ := oversized_play_is_dropped own rfl large
  exact ⟨system, reached, largePlay, enqueued, dropped⟩

/-! ### A line that breaks -/

def broken : JsString := js "2026-01-01 (" ++ 0x2028 :: js ")"

theorem broken_play_is_lost : ∃ system,
    Reaches (step sampleDates defaultLimits 500) (OwnEvents sampleDates) start system ∧
      system.refused = [] ∧ ∃ event ∈ system.enqueued, ¬ Kept sampleDates system event := by
  have observed : (atPhone (playOn (js "a") broken) (carried ++ [.record, .settle 0])).map
      (fun system => (system.enqueued, system.refused, system.evicted, system.queues phone,
        (replay system.host.store.dir).length)) =
        some ([playOn (js "a") broken], [], [], [], 0) := by decide +kernel
  obtain ⟨system, ran, seen⟩ := Option.map_eq_some_iff.mp observed
  simp only [Prod.mk.injEq] at seen
  obtain ⟨enqueued, refused, evicted, queue, nothing⟩ := seen
  have identified : js "a" ≠ [] := by decide
  have own : OwnEvents sampleDates start (.enqueue phone (playOn (js "a") broken)) :=
    ownEvents_start (sendable_playOn identified (by decide) (by decide)) rfl
  have reached := reached_atPhone own
    (fun action member state => (onOneLine_other (carried_other member) state).1) ran
  exact ⟨system, reached, refused, playOn (js "a") broken, by simp [enqueued],
    not_kept rfl queue (List.length_eq_zero_iff.mp nothing) evicted⟩

/-! ### A count that is late -/

theorem play_is_counted_late : ∃ system,
    Reaches (step sampleDates defaultLimits 500) (OnOneLine sampleDates) start system ∧
      ∃ url, system.host.plays url ≠ ((replay system.host.store.dir).filter (isOf url)).length := by
  have observed : (atPhone (playOn (js "a") dated) carried).map
      (fun system => (system.host.plays (js "automerge:1111111111111111"),
        ((replay system.host.store.dir).filter
          (isOf (js "automerge:1111111111111111"))).length)) = some (0, 1) := by decide +kernel
  obtain ⟨system, ran, seen⟩ := Option.map_eq_some_iff.mp observed
  obtain ⟨plays, logged⟩ := Prod.mk.inj seen
  have others (action : Action) (member : action ∈ carried) (state : System) :
      OnOneLine sampleDates state action :=
    onOneLine_other (carried_other (List.mem_append_left _ member)) state
  refine ⟨system, reached_atPhone ownPlay others ran, js "automerge:1111111111111111", ?_⟩
  rw [plays, logged]
  exact Nat.zero_ne_one

/-- A refused batch drops a play, a separator in its time loses one, and the rollup counts a play
after the log has it. -/
theorem plays_are_dropped_and_counted_late :
    (∃ system, Reaches (step sampleDates defaultLimits 500) (OnOneLine sampleDates) start system ∧
      ∃ event ∈ system.enqueued, ¬ Kept sampleDates system event) ∧
    (∃ system, Reaches (step sampleDates defaultLimits 500) (OwnEvents sampleDates) start system ∧
      system.refused = [] ∧ ∃ event ∈ system.enqueued, ¬ Kept sampleDates system event) ∧
    ∃ system, Reaches (step sampleDates defaultLimits 500) (OnOneLine sampleDates) start system ∧
      ∃ url, system.host.plays url ≠ ((replay system.host.store.dir).filter (isOf url)).length :=
  ⟨large_play_is_dropped, broken_play_is_lost, play_is_counted_late⟩

end Tapes.Outbox
