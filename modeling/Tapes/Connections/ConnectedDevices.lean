import Tapes.Connections.SyncConnections
import Tapes.Machine.Run
import Tapes.Machine.Table

namespace Tapes.Connections

open Tapes.Js Tapes.Machine

/-! The panel of connected devices: the host sends its whole list at every change, and a panel asks
once for the list there is. What the panel shows is the host's list as soon as no event is on its
way. -/

/-! ## The panel -/

inductive HeldStatus where
  | ready
  | unavailable
deriving DecidableEq

inductive ConnectedDevicesStatus where
  | loading
  | ready
  | unavailable
deriving DecidableEq

/-- What the host last told, and which attempt it answered. -/
structure Held where
  attempt : Nat
  connections : List SyncConnection
  status : HeldStatus
  error : Option JsString

/-- One run of the effect. What was asked in another run is cancelled. -/
structure EffectRun where
  run : Nat
  attempt : Nat

structure Panel where
  attempt : Nat
  held : Option Held
  effect : Option EffectRun

def Panel.mounted : Panel := ⟨0, none, none⟩

/-- How the host answers, or how asking it fails. -/
inductive SnapshotAnswer where
  | success (connections : Option (List SyncConnection))
  | failure (error : Option JsString)
  | nothing
  | rejected (error : JsString)

namespace Panel

def refresh (panel : Panel) : Panel := { panel with attempt := panel.attempt + 1 }

/-- An event is always a real answer. -/
def event (panel : Panel) (connections : List SyncConnection) : Panel :=
  match panel.effect with
  | none => panel
  | some effect => { panel with held := some ⟨effect.attempt, connections, .ready, none⟩ }

/-- An event that answered the same attempt is newer than the snapshot. -/
def answered (panel : Panel) (next : Held) : Panel :=
  match panel.held with
  | some current =>
      if current.attempt = next.attempt ∧ current.status = .ready then panel
      else { panel with held := some next }
  | none => { panel with held := some next }

def noAnswer : JsString := js "The host did not answer with its connected devices"

def heldOf (attempt : Nat) : SnapshotAnswer → Held
  | .success connections => ⟨attempt, connections.getD [], .ready, none⟩
  | .failure error => ⟨attempt, [], .unavailable, some (error.getD noAnswer)⟩
  | .nothing => ⟨attempt, [], .unavailable, some noAnswer⟩
  | .rejected error => ⟨attempt, [], .unavailable, some error⟩

def snapshot (panel : Panel) (run : Nat) (answer : SnapshotAnswer) : Panel :=
  match panel.effect with
  | none => panel
  | some effect =>
      if effect.run = run then panel.answered (heldOf effect.attempt answer) else panel

end Panel

/-- What the panel shows. -/
structure ConnectedDevicesState where
  connections : List SyncConnection
  status : ConnectedDevicesStatus
  error : Option JsString

def HeldStatus.shown : HeldStatus → ConnectedDevicesStatus
  | .ready => .ready
  | .unavailable => .unavailable

def useConnectedDevices (panel : Panel) : ConnectedDevicesState :=
  match panel.held with
  | none => ⟨[], .loading, none⟩
  | some held =>
      if held.attempt ≠ panel.attempt then ⟨[], .loading, none⟩
      else ⟨held.connections, held.status.shown, held.error⟩

/-! ## The host, the window and what is between them -/

inductive Asking where
  | requested
  | answered (answer : SnapshotAnswer)

/-- `running` is whether a server is current. `events` are on their way to the window, the oldest
first, and `asking` holds what each run of the effect has asked. -/
structure Devices where
  registry : Registry
  running : Bool
  window : Bool
  panel : Option Panel
  events : List (List SyncConnection)
  asking : Table Nat Asking
  runs : Nat

def Devices.idle (nextId : Nat) : Devices :=
  ⟨⟨.empty, nextId, false⟩, false, false, none, [], .empty, 0⟩

/-- `GetConnectedDevicesChannel.handle`. -/
def Devices.handle (devices : Devices) : SnapshotAnswer :=
  if devices.running then .success (some devices.registry.list)
  else .failure (some (js "The sync server is not running on this device"))

/-- `startConnectedDevicesPush`: a change is sent to the window there is. -/
def push (devices : Devices) : Effect → Devices
  | .change connections =>
      if devices.window then { devices with events := devices.events ++ [connections] } else devices
  | .ping _ | .terminate _ => devices

def Devices.onPanel (devices : Devices) (change : Panel → Panel) : Devices :=
  { devices with panel := devices.panel.map change }

inductive DevicesAction where
  | registry (now : Int) (action : Action)
  | setRunning (running : Bool)
  | openWindow
  | closeWindow
  | mount
  | unmount
  | refresh
  /-- The effect runs, and with it the one before is cleaned up. -/
  | commit
  | deliver
  | handle (run : Nat)
  | answer (run : Nat)
  | reject (run : Nat) (error : JsString)

def devicesStep (devices : Devices) : DevicesAction → Option Devices
  | .registry now action => (act now devices.registry action).map fun result =>
      result.2.foldl push { devices with registry := result.1 }
  | .setRunning running => some { devices with running }
  | .openWindow => if devices.window then none else some { devices with window := true }
  | .closeWindow =>
      some { devices with window := false, panel := none, events := [], asking := .empty }
  | .mount =>
      if devices.window && devices.panel.isNone then
        some { devices with panel := some .mounted }
      else none
  | .unmount => some { devices with panel := none }
  | .refresh => some (devices.onPanel Panel.refresh)
  | .commit => devices.panel.map fun panel =>
      { devices with
        panel := some { panel with effect := some ⟨devices.runs, panel.attempt⟩ }
        asking := devices.asking.put devices.runs .requested
        runs := devices.runs + 1 }
  | .deliver =>
      match devices.events with
      | [] => none
      | first :: rest => some (({ devices with events := rest }).onPanel (·.event first))
  | .handle run =>
      match devices.asking run with
      | some .requested =>
          some { devices with asking := devices.asking.put run (.answered devices.handle) }
      | _ => none
  | .answer run =>
      match devices.asking run with
      | some (.answered answer) =>
          some (({ devices with asking := devices.asking.remove run }).onPanel
            (·.snapshot run answer))
      | _ => none
  | .reject run error => (devices.asking run).map fun _ =>
      ({ devices with asking := devices.asking.remove run }).onPanel
        (·.snapshot run (.rejected error))

/-! ## What the registry tells -/

variable {registry next : Registry} {socket : Socket} {effects later : List Effect}
  {devices after : Devices} {panel : Panel} {effect : EffectRun} {action : DevicesAction}

def Effect.changed : Effect → Option (List SyncConnection)
  | .change connections => some connections
  | .ping _ | .terminate _ => none

def changes (effects : List Effect) : List (List SyncConnection) := effects.filterMap Effect.changed

/-- The last change told is the list there is, and without one it is as it was. -/
def Told (registry next : Registry) (effects : List Effect) : Prop :=
  next.list = (changes effects).getLast?.getD registry.list

theorem Told.trans {middle : Registry} (first : Told registry middle effects)
    (second : Told middle next later) : Told registry next (effects ++ later) := by
  unfold Told changes at *
  rw [List.filterMap_append, List.getLast?_append]
  cases last : (later.filterMap Effect.changed).getLast? with
  | none => rwa [last, Option.getD_none, first] at second
  | some connections => rwa [last] at second

theorem list_setAlive (alive : Bool) : (registry.setAlive socket alive).list = registry.list := by
  unfold Registry.setAlive
  split
  · rename_i entry found
    have there : registry.entries.entries.any (·.1 = socket) = true :=
      OrderedMap.has_iff.mpr ⟨entry, found⟩
    simp only [Registry.list, OrderedMap.values, OrderedMap.set, setEntry, there, if_true,
      List.map_map]
    apply List.map_congr_left
    intro held inside
    simp only [Function.comp]
    split
    · rename_i same
      have only : registry.entries.get? socket = some held.2 :=
        OrderedMap.get?_eq_some_iff.mpr (same ▸ inside)
      rw [found, Option.some.injEq] at only
      rw [only]
    · rfl
  · rfl

theorem told_remove : Told registry (registry.remove socket).1 (registry.remove socket).2 := by
  unfold Registry.remove
  split <;> rfl

theorem told_visit : Told registry (registry.visit socket).1 (registry.visit socket).2 := by
  unfold Registry.visit
  split
  · rfl
  · split
    · exact list_setAlive false
    · exact told_remove

theorem told_visitAll (sockets : List Socket) :
    Told registry (registry.visitAll sockets).1 (registry.visitAll sockets).2 := by
  induction sockets generalizing registry with
  | nil => rfl
  | cons first rest induction => exact told_visit.trans induction

/-- The listener is told of every change of the list. -/
theorem told_act {now : Int} {action : Action} {result : Registry × List Effect}
    (acted : act now registry action = some result) : Told registry result.1 result.2 := by
  cases action with
  | create =>
      simp only [act] at acted
      split at acted
      · cases acted
      · rename_i stopped
        simp only [Bool.or_eq_true, Bool.not_eq_true', not_or, Bool.not_eq_false,
          List.isEmpty_iff] at stopped
        cases acted
        simp [Told, changes, Registry.list, OrderedMap.values, stopped.2,
          createSyncConnectionRegistry]
  | add socket details =>
      cases acted
      rfl
  | event socket event =>
      cases event <;> cases acted
      · exact list_setAlive true
      · exact told_remove
      · exact told_remove
  | heartbeat =>
      simp only [act] at acted
      split at acted <;> cases acted
      exact told_visitAll _
  | close =>
      cases acted
      rfl

theorem foldl_push (effects : List Effect) : effects.foldl push devices =
    if devices.window then { devices with events := devices.events ++ changes effects }
    else devices := by
  induction effects generalizing devices with
  | nil => simp [changes]
  | cons first rest induction =>
      rw [List.foldl_cons, induction]
      cases first with
      | change connections => by_cases windowOpen : devices.window <;> simp [push, windowOpen, changes, Effect.changed]
      | ping | terminate => rfl

/-! ## The invariant -/

/-- The effect's attempt has an answer, which an event gave or which is `ready`. -/
def Panel.Answered (panel : Panel) (effect : EffectRun) (status : HeldStatus → Prop) : Prop :=
  ∃ held, panel.held = some held ∧ held.attempt = effect.attempt ∧ status held.status

structure Watches (list : List SyncConnection) (quiet : Prop) (asking : Table Nat Asking)
    (panel : Panel) : Prop where
  attempts : ∀ effect, panel.effect = some effect → effect.attempt ≤ panel.attempt
  held : ∀ held, panel.held = some held → ∃ effect, panel.effect = some effect ∧
    held.attempt ≤ effect.attempt ∧
      (held.attempt = effect.attempt → held.status = .ready → quiet →
        held.connections = list)
  asked : ∀ effect, panel.effect = some effect →
    panel.Answered effect (fun _ => True) ∨ (asking effect.run).isSome = true
  answer : ∀ effect connections, panel.effect = some effect →
    asking effect.run = some (.answered (.success connections)) →
      panel.Answered effect (· = .ready) ∨
        (quiet → connections.getD [] = list)

structure Informed (devices : Devices) : Prop where
  last : ∀ connections, devices.events.getLast? = some connections →
    connections = devices.registry.list
  shut : devices.window = false → devices.events = [] ∧ devices.panel = none
  panel : ∀ panel, devices.panel = some panel →
    Watches devices.registry.list (devices.events = []) devices.asking panel

/-! ## One step -/

section

variable {list : List SyncConnection} {quiet : Prop} {asking : Table Nat Asking} {run : Nat}

/-- It stays so as long as every change of the list is on its way. -/
theorem Watches.retold {list' : List SyncConnection} {quiet' : Prop}
    (watches : Watches list quiet asking panel) (told : quiet' → quiet ∧ list' = list) :
    Watches list' quiet' asking panel := by
  constructor
  · exact watches.attempts
  · intro held is
    obtain ⟨effect, runs, before, current⟩ := watches.held held is
    refine ⟨effect, runs, before, ?_⟩
    intro this ready still
    obtain ⟨still, same⟩ := told still
    rw [same]
    exact current this ready still
  · exact watches.asked
  · intro effect connections runs answered
    rcases watches.answer effect connections runs answered with newer | current
    · exact .inl newer
    · right
      intro still
      obtain ⟨still, same⟩ := told still
      rw [same]
      exact current still

theorem Watches.mounted : Watches list quiet asking .mounted := by
  constructor
  · intro effect absent
    cases absent
  · intro held absent
    cases absent
  · intro effect absent
    cases absent
  · intro effect connections absent
    cases absent

theorem Watches.refresh (watches : Watches list quiet asking panel) :
    Watches list quiet asking panel.refresh := by
  constructor
  · intro effect runs
    have before : effect.attempt ≤ panel.attempt := watches.attempts effect runs
    exact Nat.le_succ_of_le before
  · exact watches.held
  · exact watches.asked
  · exact watches.answer

theorem Watches.commit (watches : Watches list quiet asking panel) :
    Watches list quiet (asking.put run .requested)
      { panel with effect := some ⟨run, panel.attempt⟩ } := by
  constructor
  · intro effect runs
    cases runs
    exact Nat.le_refl _
  · intro held is
    obtain ⟨effect, runs, before, current⟩ := watches.held held is
    have latest := watches.attempts effect runs
    refine ⟨_, rfl, Nat.le_trans before latest, ?_⟩
    intro this
    dsimp only at this
    exact current (by omega)
  · intro effect runs
    cases runs
    simp
  · intro effect connections runs answered
    cases runs
    rw [Table.put_self] at answered
    cases answered

theorem Watches.event {quiet' : Prop} {first : List SyncConnection}
    (watches : Watches list quiet asking panel) (last : quiet' → first = list) :
    Watches list quiet' asking (panel.event first) := by
  cases runs : panel.effect with
  | none =>
      have same : panel.event first = panel := by rw [Panel.event, runs]
      rw [same]
      constructor
      · exact watches.attempts
      · intro held is
        obtain ⟨effect, there, -⟩ := watches.held held is
        rw [runs] at there
        cases there
      · exact watches.asked
      · intro effect connections there
        rw [runs] at there
        cases there
  | some effect =>
      have told : panel.event first = { panel with held := some ⟨effect.attempt, first, .ready, none⟩ } := by
        rw [Panel.event, runs]
      rw [told]
      constructor
      · exact watches.attempts
      · intro held is
        cases is
        exact ⟨effect, runs, Nat.le_refl _, fun _ _ quiet => last quiet⟩
      · intro other there
        cases runs.symm.trans there
        exact .inl ⟨_, rfl, rfl, trivial⟩
      · intro other connections there _
        cases runs.symm.trans there
        exact .inl ⟨_, rfl, rfl, rfl⟩

theorem Watches.handle {answer : SnapshotAnswer} (watches : Watches list quiet asking panel)
    (truth : ∀ connections, answer = .success connections → connections.getD [] = list) :
    Watches list quiet (asking.put run (.answered answer)) panel := by
  constructor
  · exact watches.attempts
  · exact watches.held
  · intro effect runs
    by_cases this : effect.run = run
    · right
      simp [this]
    · rw [Table.put_other this]
      exact watches.asked effect runs
  · intro effect connections runs answered
    by_cases this : effect.run = run
    · right
      intro _
      simp only [this, Table.put_self, Option.some.injEq, Asking.answered.injEq] at answered
      exact truth connections answered
    · rw [Table.put_other this] at answered
      exact watches.answer effect connections runs answered

/-- The answer is dropped where an event has come before it. -/
theorem Watches.forget (watches : Watches list quiet asking panel)
    (early : ∀ effect, panel.effect = some effect → effect.run = run →
      panel.Answered effect (· = .ready)) :
    Watches list quiet (asking.remove run) panel := by
  constructor
  · exact watches.attempts
  · exact watches.held
  · intro effect runs
    by_cases this : effect.run = run
    · obtain ⟨held, is, attempt, -⟩ := early effect runs this
      exact .inl ⟨held, is, attempt, trivial⟩
    · rw [Table.remove_other this]
      exact watches.asked effect runs
  · intro effect connections runs answered
    by_cases this : effect.run = run
    · exact .inl (early effect runs this)
    · rw [Table.remove_other this] at answered
      exact watches.answer effect connections runs answered

theorem Watches.snapshot {answer : SnapshotAnswer} (watches : Watches list quiet asking panel)
    (given : ∀ connections, answer = .success connections →
      asking run = some (.answered (.success connections))) :
    Watches list quiet (asking.remove run) (panel.snapshot run answer) := by
  cases runs : panel.effect with
  | none =>
      have same : panel.snapshot run answer = panel := by rw [Panel.snapshot, runs]
      rw [same]
      apply watches.forget
      intro effect there
      rw [runs] at there
      cases there
  | some effect =>
      by_cases this : effect.run = run
      · have told : panel.snapshot run answer = panel.answered (Panel.heldOf effect.attempt answer) := by
          rw [Panel.snapshot, runs]
          exact if_pos this
        have attempt : (Panel.heldOf effect.attempt answer).attempt = effect.attempt := by
          cases answer <;> rfl
        rw [told]
        by_cases newer : panel.Answered effect (· = .ready)
        · obtain ⟨held, is, same, ready⟩ := newer
          have kept : panel.answered (Panel.heldOf effect.attempt answer) = panel := by
            simp [Panel.answered, is, attempt, same, ready]
          rw [kept]
          apply watches.forget
          intro other there _
          cases runs.symm.trans there
          exact ⟨held, is, same, ready⟩
        · have taken : panel.answered (Panel.heldOf effect.attempt answer) =
              { panel with held := some (Panel.heldOf effect.attempt answer) } := by
            unfold Panel.answered
            split
            · rename_i held is
              apply if_neg
              intro both
              exact newer ⟨held, is, both.1.trans attempt, both.2⟩
            · rfl
          rw [taken]
          constructor
          · exact watches.attempts
          · intro held is
            cases is
            refine ⟨effect, runs, Nat.le_of_eq attempt, ?_⟩
            intro _ ready still
            cases answer with
            | success connections =>
                have asked := given connections rfl
                rw [← this] at asked
                rcases watches.answer effect connections runs asked with early | current
                · exact absurd early newer
                · exact current still
            | failure | nothing | rejected => cases ready
          · intro other there
            cases runs.symm.trans there
            exact .inl ⟨_, rfl, attempt, trivial⟩
          · intro other connections there answered
            cases runs.symm.trans there
            rw [this, Table.remove_self] at answered
            cases answered
      · have same : panel.snapshot run answer = panel := by
          rw [Panel.snapshot, runs]
          exact if_neg this
        rw [same]
        apply watches.forget
        intro other there there'
        cases runs.symm.trans there
        exact absurd there' this

end

/-- Steps that tell the panel something change nothing at the host. -/
theorem Informed.onPanel {change : Panel → Panel} {asking : Table Nat Asking}
    {running : Bool} (informed : Informed devices)
    (kept : ∀ panel, Watches devices.registry.list (devices.events = []) devices.asking panel →
      Watches devices.registry.list (devices.events = []) asking (change panel)) :
    Informed { devices with running, asking, panel := devices.panel.map change } := by
  constructor
  · exact informed.last
  · intro shut
    obtain ⟨quiet, gone⟩ := informed.shut shut
    exact ⟨quiet, by rw [gone]; rfl⟩
  · intro panel there
    obtain ⟨before, was, rfl⟩ := Option.map_eq_some_iff.mp there
    exact kept before (informed.panel before was)

theorem Informed.told {now : Int} {action : Action} {result : Registry × List Effect}
    (informed : Informed devices) (acted : act now devices.registry action = some result) :
    Informed (result.2.foldl push { devices with registry := result.1 }) := by
  have told := told_act acted
  rw [foldl_push]
  by_cases windowOpen : devices.window = true
  · rw [if_pos windowOpen]
    unfold Told at told
    constructor
    · intro connections last
      rw [List.getLast?_append] at last
      cases newest : (changes result.2).getLast? with
      | none =>
          rw [newest] at last told
          exact (informed.last connections last).trans told.symm
      | some other =>
          rw [newest] at last told
          cases last
          exact told.symm
    · intro shut
      rw [windowOpen] at shut
      cases shut
    · intro panel there
      refine (informed.panel panel there).retold ?_
      intro quiet
      obtain ⟨before, none⟩ := List.append_eq_nil_iff.mp quiet
      rw [none] at told
      exact ⟨before, told⟩
  · rw [if_neg windowOpen]
    obtain ⟨quiet, gone⟩ := informed.shut (Bool.not_eq_true _ ▸ windowOpen)
    constructor
    · intro connections last
      dsimp only at last
      rw [quiet] at last
      cases last
    · exact informed.shut
    · intro panel there
      dsimp only at there
      rw [gone] at there
      cases there

theorem Informed.step (informed : Informed devices)
    (taken : devicesStep devices action = some after) : Informed after := by
  cases action with
  | registry now action =>
      obtain ⟨result, acted, rfl⟩ := Option.map_eq_some_iff.mp taken
      exact informed.told acted
  | setRunning running =>
      cases taken
      exact ⟨informed.last, informed.shut, informed.panel⟩
  | openWindow =>
      simp only [devicesStep] at taken
      split at taken <;> cases taken
      rename_i shut
      obtain ⟨quiet, gone⟩ := informed.shut (Bool.not_eq_true _ ▸ shut)
      refine ⟨informed.last, ?_, ?_⟩
      · intro shut
        cases shut
      · intro panel there
        dsimp only at there
        rw [gone] at there
        cases there
  | closeWindow =>
      cases taken
      refine ⟨?_, fun _ => ⟨rfl, rfl⟩, ?_⟩
      · intro connections last
        cases last
      · intro panel there
        cases there
  | mount =>
      simp only [devicesStep] at taken
      split at taken <;> cases taken
      rename_i free
      obtain ⟨windowOpen, -⟩ := Bool.and_eq_true_iff.mp free
      refine ⟨informed.last, ?_, ?_⟩
      · intro shut
        dsimp only at shut
        rw [windowOpen] at shut
        cases shut
      · intro panel there
        cases there
        exact .mounted
  | unmount =>
      cases taken
      refine ⟨informed.last, fun shut => ⟨(informed.shut shut).1, rfl⟩, ?_⟩
      intro panel there
      cases there
  | refresh =>
      cases taken
      exact informed.onPanel fun panel watches => watches.refresh
  | commit =>
      obtain ⟨panel, there, rfl⟩ := Option.map_eq_some_iff.mp taken
      refine ⟨informed.last, ?_, ?_⟩
      · intro shut
        rw [(informed.shut shut).2] at there
        cases there
      · intro other same
        cases same
        exact (informed.panel panel there).commit
  | deliver =>
      simp only [devicesStep] at taken
      split at taken
      · cases taken
      · rename_i first rest queued
        cases taken
        have last : rest = [] → first = devices.registry.list := by
          intro none
          apply informed.last
          rw [queued, none]
          rfl
        constructor
        · intro connections newest
          apply informed.last
          rw [queued]
          cases rest with
          | nil => cases newest
          | cons second rest => exact newest
        · intro shut
          rw [(informed.shut shut).1] at queued
          cases queued
        · intro panel there
          obtain ⟨before, was, rfl⟩ := Option.map_eq_some_iff.mp there
          exact (informed.panel before was).event last
  | handle run =>
      simp only [devicesStep] at taken
      split at taken
      · cases taken
        refine ⟨informed.last, informed.shut, ?_⟩
        intro panel there
        apply (informed.panel panel there).handle
        intro connections success
        rw [Devices.handle] at success
        split at success <;> cases success
        rfl
      · cases taken
  | answer run =>
      simp only [devicesStep] at taken
      split at taken
      · rename_i answer asked
        cases taken
        apply informed.onPanel
        intro panel watches
        apply watches.snapshot
        intro connections success
        rw [asked, success]
      · cases taken
  | reject run error =>
      obtain ⟨asking, asked, rfl⟩ := Option.map_eq_some_iff.mp taken
      apply informed.onPanel
      intro panel watches
      apply watches.snapshot
      intro connections success
      cases success

/-! ## Runs -/

theorem informed_idle (nextId : Nat) : Informed (.idle nextId) := by
  refine ⟨?_, fun _ => ⟨rfl, rfl⟩, ?_⟩
  · intro connections last
    cases last
  · intro panel there
    cases there

theorem informed_reached {nextId : Nat} (reached : Reaches devicesStep anyAction (.idle nextId) devices) :
    Informed devices :=
  reached.invariant Informed (informed_idle nextId) fun _ informed _ taken => informed.step taken

theorem useConnectedDevices_of_held {held : Held} (is : panel.held = some held)
    (current : held.attempt = panel.attempt) :
    useConnectedDevices panel = ⟨held.connections, held.status.shown, held.error⟩ := by
  simp only [useConnectedDevices, is, current, ne_eq, not_true, if_false]

theorem useConnectedDevices_ready (ready : (useConnectedDevices panel).status = .ready) :
    ∃ held, panel.held = some held ∧ held.attempt = panel.attempt ∧ held.status = .ready ∧
      (useConnectedDevices panel).connections = held.connections := by
  unfold useConnectedDevices at *
  split at ready
  · cases ready
  · rename_i held is
    split at ready
    · cases ready
    · rename_i current
      rw [ne_eq, not_not] at current
      refine ⟨held, is, current, ?_, ?_⟩
      · cases status : held.status with
        | ready => rfl
        | unavailable =>
            rw [status] at ready
            cases ready
      · simp [current]

/-- Once every event has come the panel has the last of them. -/
theorem deliver_all {events : List (List SyncConnection)} (queued : devices.events = events)
    (there : devices.panel = some panel) (runs : panel.effect = some effect) :
    ∃ after panel', run devicesStep devices (events.map fun _ => .deliver) = some after ∧
      after.events = [] ∧ after.registry = devices.registry ∧ after.panel = some panel' ∧
      panel'.effect = some effect ∧ panel'.attempt = panel.attempt ∧
      (events ≠ [] → panel'.Answered effect (· = .ready)) := by
  induction events generalizing devices panel with
  | nil => exact ⟨devices, panel, rfl, queued, rfl, there, runs, rfl, fun some => absurd rfl some⟩
  | cons first rest induction =>
      let next := { devices with events := rest }.onPanel (·.event first)
      have taken : devicesStep devices .deliver = some next := by simp only [devicesStep, queued, next]
      have told : panel.event first = { panel with held := some ⟨effect.attempt, first, .ready, none⟩ } := by
        rw [Panel.event, runs]
      have shown : next.panel = some (panel.event first) := by
        simp only [next, Devices.onPanel, there, Option.map_some]
      rw [told] at shown
      obtain ⟨after, panel', ran, quiet, list, last, still, attempt, answered⟩ :=
        induction (rfl : next.events = rest) shown runs
      refine ⟨after, panel', ?_, quiet, list, last, still, attempt, ?_⟩
      · rw [List.map_cons, run, taken]
        exact ran
      · intro _
        cases rest with
        | cons => exact answered (List.cons_ne_nil _ _)
        | nil =>
            have same : next = after := Option.some.inj ran
            rw [← same, shown] at last
            cases last
            exact ⟨_, rfl, rfl, rfl⟩

/-- However the messages cross: with no event on its way a list shown as ready is the host's list,
and the panel is not left looking with nothing asked. Where events are on their way, the panel shows
the host's list as soon as they have come. -/
theorem panel_shows_the_list (nextId : Nat) (devices : Devices) (panel : Panel)
    (reached : Reaches devicesStep anyAction (.idle nextId) devices)
    (there : devices.panel = some panel) :
    (devices.events = [] → (useConnectedDevices panel).status = .ready →
      (useConnectedDevices panel).connections = devices.registry.list) ∧
    ∀ effect, panel.effect = some effect → effect.attempt = panel.attempt →
      (devices.asking effect.run = none → (useConnectedDevices panel).status ≠ .loading) ∧
      (devices.events ≠ [] → ∃ after panel',
        run devicesStep devices (devices.events.map fun _ => .deliver) = some after ∧
          after.panel = some panel' ∧ (useConnectedDevices panel').status = .ready ∧
          (useConnectedDevices panel').connections = devices.registry.list) := by
  have watches := (informed_reached reached).panel panel there
  constructor
  · intro quiet ready
    obtain ⟨held, is, current, status, shown⟩ := useConnectedDevices_ready ready
    obtain ⟨effect, runs, before, list⟩ := watches.held held is
    have latest := watches.attempts effect runs
    rw [shown]
    exact list (by omega) status quiet
  · intro effect runs current
    constructor
    · intro nothing
      rcases watches.asked effect runs with answered | asked
      · obtain ⟨held, is, attempt, -⟩ := answered
        rw [useConnectedDevices_of_held is (attempt.trans current)]
        cases status : held.status <;> simp [HeldStatus.shown]
      · rw [nothing] at asked
        cases asked
    · intro queued
      obtain ⟨after, panel', ran, quiet, list, last, still, attempt, answered⟩ :=
        deliver_all rfl there runs
      obtain ⟨held, is, this, ready⟩ := answered queued
      have later : Reaches devicesStep anyAction (.idle nextId) after :=
        reached.trans (.of_run ran (meetsAlong_anyAction _ _))
      obtain ⟨other, runs', -, newest⟩ := ((informed_reached later).panel panel' last).held held is
      cases still.symm.trans runs'
      refine ⟨after, panel', ran, last, ?_⟩
      rw [useConnectedDevices_of_held is ((this.trans current).trans attempt.symm), ← list]
      exact ⟨by rw [ready]; rfl, newest this ready quiet⟩

def panelPhone : SyncConnectionDetails := ⟨some (js "Phone"), none, false, none⟩

/-- A phone joins between the answer to the panel and its arrival. -/
def phoneJoins : List DevicesAction :=
  [.registry 0 .create, .setRunning true, .openWindow, .mount, .commit, .handle 0,
    .registry 5 (.add 1 panelPhone), .deliver, .answer 0]

theorem panel_keeps_the_phone : ∃ (devices : Devices) (panel : Panel),
    run devicesStep (.idle 1) phoneJoins = some devices ∧ devices.panel = some panel ∧
      (useConnectedDevices panel).connections = devices.registry.list ∧
      devices.registry.list.map (·.label) = [some (js "Phone")] := by
  have shown : (run devicesStep (.idle 1) phoneJoins).bind (fun devices => devices.panel.map fun panel =>
      (devices.events.length, (useConnectedDevices panel).status,
        devices.registry.list.map (·.label))) = some (0, .ready, [some (js "Phone")]) := by
    decide +kernel
  obtain ⟨devices, ran, shown⟩ := Option.bind_eq_some_iff.mp shown
  obtain ⟨panel, there, shown⟩ := Option.map_eq_some_iff.mp shown
  obtain ⟨quiet, ready⟩ := Prod.mk.inj shown
  obtain ⟨ready, list⟩ := Prod.mk.inj ready
  have told := panel_shows_the_list 1 devices panel (.of_run ran (meetsAlong_anyAction _ _)) there
  exact ⟨devices, panel, ran, there, told.1 (List.eq_nil_of_length_eq_zero quiet) ready, list⟩

end Tapes.Connections
