import Mathlib.Data.List.Induction
import Tapes.Connections.SyncConnections
import Tapes.Machine.Run

namespace Tapes.Connections

open Tapes.Js Tapes.Machine

/-! Which sockets are listed: those that have answered every ping but the last one. -/

/-- A step at a time that the clock gives. -/
def registryStep (registry : Registry) (stamped : Int × Action) : Option Registry :=
  (act stamped.1 registry stamped.2).map Prod.fst

/-! ## What is to be told of one socket -/

/-- After this the socket is not listed, or it is listed anew. -/
def Ends (socket : Socket) : Action → Prop
  | .add other _ | .event other .close | .event other .error => other = socket
  | .close => True
  | .create | .event _ .pong | .heartbeat => False

/-- Between one ping and the next the socket answers. -/
def Paced (socket : Socket) (later : List Action) : Prop :=
  ∀ first quiet last, later = first ++ .heartbeat :: (quiet ++ .heartbeat :: last) →
    .event socket .pong ∈ quiet

/-- Since the socket was last added nothing ended it, and it has answered in time. -/
def Answering (socket : Socket) (history : List Action) : Prop :=
  ∃ before details later, history = before ++ .add socket details :: later ∧
    (∀ action ∈ later, ¬ Ends socket action) ∧ Paced socket later

/-! ## One socket as a machine of three states -/

inductive Pulse where
  | gone
  | answered
  | asked
deriving DecidableEq

namespace Pulse

def beat : Pulse → Pulse
  | .answered => .asked
  | .asked | .gone => .gone

def set (pulse : Pulse) (alive : Bool) : Pulse :=
  match pulse with
  | .gone => .gone
  | .answered | .asked => if alive then .answered else .asked

def after (socket : Socket) (pulse : Pulse) : Action → Pulse
  | .add other _ => if other = socket then .answered else pulse
  | .event other .pong => if other = socket then pulse.set true else pulse
  | .event other .close | .event other .error => if other = socket then .gone else pulse
  | .heartbeat => pulse.beat
  | .close => .gone
  | .create => pulse

end Pulse

variable {registry next : Registry} {socket other : Socket} {action : Action} {now : Int}
  {history later : List Action}

def Registry.pulse (registry : Registry) (socket : Socket) : Pulse :=
  match registry.entries.get? socket with
  | none => .gone
  | some entry => if entry.alive then .answered else .asked

theorem Registry.pulse_gone_iff :
    registry.pulse socket = .gone ↔ registry.entries.get? socket = none := by
  unfold Registry.pulse
  split
  · rename_i absent
    simp [absent]
  · rename_i entry found
    simp only [found, reduceCtorEq, iff_false]
    split <;> simp

theorem pulse_setAlive (alive : Bool) :
    (registry.setAlive socket alive).pulse socket = (registry.pulse socket).set alive := by
  unfold Registry.setAlive
  split
  · rename_i entry found
    simp only [Registry.pulse, OrderedMap.get?_set_self, found]
    cases entry.alive <;> rfl
  · rename_i absent
    simp only [Registry.pulse, absent, Pulse.set]

theorem pulse_setAlive_other (different : socket ≠ other) (alive : Bool) :
    (registry.setAlive other alive).pulse socket = registry.pulse socket := by
  unfold Registry.setAlive
  split
  · simp only [Registry.pulse, OrderedMap.get?_set_other different]
  · rfl

theorem pulse_remove : (registry.remove socket).1.pulse socket = .gone := by
  rw [Registry.pulse_gone_iff, Registry.remove]
  split
  · exact OrderedMap.get?_delete_self
  · rename_i absent
    rw [Bool.not_eq_true] at absent
    exact OrderedMap.get?_eq_none_iff.mpr absent

theorem pulse_remove_other (different : socket ≠ other) :
    (registry.remove other).1.pulse socket = registry.pulse socket := by
  unfold Registry.remove
  split
  · simp only [Registry.pulse, OrderedMap.get?_delete_other different]
  · rfl

theorem pulse_visit : (registry.visit socket).1.pulse socket = (registry.pulse socket).beat := by
  unfold Registry.visit
  split
  · rename_i absent
    simp only [Registry.pulse, absent, Pulse.beat]
  · rename_i entry found
    have now : registry.pulse socket = if entry.alive then .answered else .asked := by
      simp only [Registry.pulse, found]
    split
    · rename_i alive
      rw [pulse_setAlive, now, if_pos alive]
      rfl
    · rename_i silent
      rw [now, if_neg silent]
      exact pulse_remove

theorem pulse_visit_other (different : socket ≠ other) :
    (registry.visit other).1.pulse socket = registry.pulse socket := by
  unfold Registry.visit
  split
  · rfl
  · split
    · exact pulse_setAlive_other different _
    · exact pulse_remove_other different

theorem pulse_visitAll_absent {sockets : List Socket} (absent : socket ∉ sockets) :
    (registry.visitAll sockets).1.pulse socket = registry.pulse socket := by
  induction sockets generalizing registry with
  | nil => rfl
  | cons first rest induction =>
      rw [List.mem_cons, not_or] at absent
      have later : ((registry.visit first).1.visitAll rest).1.pulse socket =
          (registry.visit first).1.pulse socket := induction absent.2
      exact later.trans (pulse_visit_other absent.1)

theorem pulse_visitAll {sockets : List Socket} (distinct : sockets.Nodup)
    (visited : socket ∈ sockets) :
    (registry.visitAll sockets).1.pulse socket = (registry.pulse socket).beat := by
  induction sockets generalizing registry with
  | nil => cases visited
  | cons first rest induction =>
      rw [List.nodup_cons] at distinct
      by_cases here : socket = first
      · subst here
        exact (pulse_visitAll_absent distinct.1).trans pulse_visit
      · have later : socket ∈ rest := (List.mem_cons.mp visited).resolve_left here
        have final : ((registry.visit first).1.visitAll rest).1.pulse socket =
            ((registry.visit first).1.pulse socket).beat := induction distinct.2 later
        rw [pulse_visit_other here] at final
        exact final

theorem pulse_heartbeat : registry.heartbeat.1.pulse socket = (registry.pulse socket).beat := by
  by_cases listed : socket ∈ registry.entries.keys
  · exact pulse_visitAll registry.entries.distinct listed
  · have absent : registry.pulse socket = .gone := by
      rw [Registry.pulse_gone_iff, OrderedMap.get?_eq_none_iff]
      exact Bool.not_eq_true _ ▸ mt OrderedMap.has_iff_mem_keys.mp listed
    exact (pulse_visitAll_absent listed).trans (by rw [absent]; rfl)

/-- The registry keeps a machine for each socket. -/
theorem pulse_step (taken : registryStep registry (now, action) = some next) :
    next.pulse socket = (registry.pulse socket).after socket action := by
  obtain ⟨result, acted, rfl⟩ := Option.map_eq_some_iff.mp taken
  clear taken
  cases action with
  | create =>
      simp only [act] at acted
      split at acted
      · cases acted
      · rename_i stopped
        simp only [Bool.or_eq_true, Bool.not_eq_true', not_or, Bool.not_eq_false,
          List.isEmpty_iff] at stopped
        cases acted
        simp [Registry.pulse, createSyncConnectionRegistry, Pulse.after, OrderedMap.get?, stopped.2]
  | add other details =>
      cases acted
      by_cases same : other = socket
      · subst same
        simp [Registry.pulse, Registry.add, Pulse.after]
      · simp [Registry.pulse, Registry.add, Pulse.after, OrderedMap.get?_set_other (Ne.symm same),
          same]
  | event other event =>
      by_cases same : other = socket
      · subst same
        cases event <;> cases acted
        · simp only [Pulse.after, if_true, pulse_setAlive]
        · simp only [Pulse.after, if_true, pulse_remove]
        · simp only [Pulse.after, if_true, pulse_remove]
      · cases event <;> cases acted
        · simp only [Pulse.after, if_neg same, pulse_setAlive_other (Ne.symm same)]
        · simp only [Pulse.after, if_neg same, pulse_remove_other (Ne.symm same)]
        · simp only [Pulse.after, if_neg same, pulse_remove_other (Ne.symm same)]
  | heartbeat =>
      simp only [act] at acted
      split at acted <;> cases acted
      exact pulse_heartbeat
  | close =>
      cases acted
      rfl

theorem pulse_run {stamped : List (Int × Action)}
    (ran : run registryStep registry stamped = some next) :
    next.pulse socket =
      (stamped.map Prod.snd).foldl (Pulse.after socket) (registry.pulse socket) := by
  induction stamped generalizing registry with
  | nil =>
      cases ran
      rfl
  | cons first rest induction =>
      simp only [run] at ran
      split at ran
      · rename_i middle taken
        rw [List.map_cons, List.foldl_cons, ← pulse_step taken]
        exact induction ran
      · cases ran

/-! ## What the machine says of a history -/

/-- The socket has answered the last ping. -/
def Fresh (socket : Socket) (later : List Action) : Prop :=
  ∀ first last, later = first ++ .heartbeat :: last → .event socket .pong ∈ last

theorem fresh_heartbeat : ¬ Fresh socket (later ++ [.heartbeat]) := by
  intro fresh
  have none := fresh later [] rfl
  cases none

theorem fresh_pong : Fresh socket (later ++ [.event socket .pong]) := by
  intro first last same
  rcases List.eq_nil_or_concat' last with rfl | other
  · cases (List.append_singleton_inj.mp same).2
  · obtain ⟨front, lastEvent, rfl⟩ := other
    rw [← List.cons_append, ← List.append_assoc] at same
    rw [(List.append_singleton_inj.mp same).2]
    simp

theorem fresh_snoc (plain : action ≠ .heartbeat) (silent : action ≠ .event socket .pong) :
    Fresh socket (later ++ [action]) ↔ Fresh socket later := by
  constructor
  · intro fresh first last same
    have inside := fresh first (last ++ [action]) (by rw [same]; simp)
    simpa [Ne.symm silent] using inside
  · intro fresh first last same
    rcases List.eq_nil_or_concat' last with rfl | other
    · exact absurd (List.append_singleton_inj.mp same).2 plain
    · obtain ⟨front, lastEvent, rfl⟩ := other
      rw [← List.cons_append, ← List.append_assoc] at same
      exact List.mem_append_left _ (fresh first front (List.append_singleton_inj.mp same).1)

theorem paced_snoc (plain : action ≠ .heartbeat) :
    Paced socket (later ++ [action]) ↔ Paced socket later := by
  constructor
  · intro paced first quiet last same
    exact paced first quiet (last ++ [action]) (by rw [same]; simp)
  · intro paced first quiet last same
    rcases List.eq_nil_or_concat' last with rfl | other
    · rw [← List.cons_append, ← List.append_assoc] at same
      exact absurd (List.append_singleton_inj.mp same).2 plain
    · obtain ⟨front, lastEvent, rfl⟩ := other
      apply paced first quiet front
      have whole : later ++ [action] =
          (first ++ .heartbeat :: (quiet ++ .heartbeat :: front)) ++ [lastEvent] := by
        rw [same]
        simp
      exact (List.append_singleton_inj.mp whole).1

theorem paced_heartbeat :
    Paced socket (later ++ [.heartbeat]) ↔ Paced socket later ∧ Fresh socket later := by
  constructor
  · intro paced
    constructor
    · intro first quiet last same
      exact paced first quiet (last ++ [.heartbeat]) (by rw [same]; simp)
    · intro first quiet same
      exact paced first quiet [] (by rw [same]; simp)
  · intro both first quiet last same
    obtain ⟨paced, fresh⟩ := both
    rcases List.eq_nil_or_concat' last with rfl | other
    · have whole : later ++ [.heartbeat] = (first ++ .heartbeat :: quiet) ++ [.heartbeat] := by
        rw [same]
        simp
      exact fresh first quiet (List.append_singleton_inj.mp whole).1
    · obtain ⟨front, lastEvent, rfl⟩ := other
      apply paced first quiet front
      have whole : later ++ [.heartbeat] =
          (first ++ .heartbeat :: (quiet ++ .heartbeat :: front)) ++ [lastEvent] := by
        rw [same]
        simp
      exact (List.append_singleton_inj.mp whole).1

structure Lasting (socket : Socket) (later : List Action) : Prop where
  unended : ∀ action ∈ later, ¬ Ends socket action
  paced : Paced socket later

namespace Pulse

/-- What a state says of the events since the socket was added. -/
def Means (socket : Socket) (later : List Action) : Pulse → Prop
  | .gone => ¬ Lasting socket later
  | .answered => Lasting socket later ∧ Fresh socket later
  | .asked => Lasting socket later ∧ ¬ Fresh socket later

end Pulse

theorem lasting_snoc (plain : action ≠ .heartbeat) (lasts : ¬ Ends socket action) :
    Lasting socket (later ++ [action]) ↔ Lasting socket later := by
  constructor
  · intro lasting
    constructor
    · intro other member
      exact lasting.unended other (List.mem_append_left _ member)
    · exact (paced_snoc plain).mp lasting.paced
  · intro lasting
    constructor
    · intro other member
      rcases List.mem_append.mp member with before | last
      · exact lasting.unended other before
      · rw [List.mem_singleton.mp last]
        exact lasts
    · exact (paced_snoc plain).mpr lasting.paced

theorem lasting_heartbeat :
    Lasting socket (later ++ [.heartbeat]) ↔ Lasting socket later ∧ Fresh socket later := by
  constructor
  · intro lasting
    have both := paced_heartbeat.mp lasting.paced
    refine ⟨⟨?_, both.1⟩, both.2⟩
    intro other member
    exact lasting.unended other (List.mem_append_left _ member)
  · intro both
    obtain ⟨lasting, fresh⟩ := both
    refine ⟨?_, paced_heartbeat.mpr ⟨lasting.paced, fresh⟩⟩
    intro other member
    rcases List.mem_append.mp member with before | last
    · exact lasting.unended other before
    · rw [List.mem_singleton.mp last]
      exact id

variable {pulse : Pulse}

theorem means_ended (ends : Ends socket action) : Pulse.gone.Means socket (later ++ [action]) := by
  intro lasting
  exact lasting.unended action (by simp) ends

theorem means_plain (means : pulse.Means socket later) (plain : action ≠ .heartbeat)
    (silent : action ≠ .event socket .pong) (lasts : ¬ Ends socket action) :
    pulse.Means socket (later ++ [action]) := by
  cases pulse <;>
    simpa only [Pulse.Means, lasting_snoc plain lasts, fresh_snoc plain silent] using means

theorem means_pong (means : pulse.Means socket later) :
    (pulse.set true).Means socket (later ++ [.event socket .pong]) := by
  have lasts : ¬ Ends socket (.event socket .pong) := id
  have same : Lasting socket (later ++ [.event socket .pong]) ↔ Lasting socket later :=
    lasting_snoc (by simp) lasts
  cases pulse with
  | gone => exact mt same.mp means
  | answered | asked => exact ⟨same.mpr means.1, fresh_pong⟩

theorem means_beat (means : pulse.Means socket later) :
    pulse.beat.Means socket (later ++ [.heartbeat]) := by
  cases pulse with
  | gone => exact fun lasting => means (lasting_heartbeat.mp lasting).1
  | answered => exact ⟨lasting_heartbeat.mpr means, fresh_heartbeat⟩
  | asked => exact fun lasting => means.2 (lasting_heartbeat.mp lasting).2

theorem means_after (means : pulse.Means socket later)
    (kept : ∀ details, action ≠ .add socket details) :
    (pulse.after socket action).Means socket (later ++ [action]) := by
  cases action with
  | create => exact means_plain means (by simp) (by simp) id
  | add other details =>
      have different : other ≠ socket := by
        rintro rfl
        exact kept details rfl
      rw [Pulse.after, if_neg different]
      exact means_plain means (by simp) (by simp) different
  | event other event =>
      by_cases same : other = socket
      · subst same
        cases event with
        | pong =>
            rw [Pulse.after, if_pos rfl]
            exact means_pong means
        | close | error =>
            rw [Pulse.after, if_pos rfl]
            exact means_ended rfl
      · have plain : pulse.Means socket (later ++ [.event other event]) := by
          apply means_plain means (by simp)
          · simp [same]
          · cases event with
            | pong => exact id
            | close | error => exact same
        cases event <;> simpa only [Pulse.after, if_neg same] using plain
  | heartbeat => exact means_beat means
  | close => exact means_ended trivial

/-- Either the socket was never added, or the state tells of what came since. -/
def Tells (socket : Socket) (history : List Action) (pulse : Pulse) : Prop :=
  (pulse = .gone ∧ ∀ details, .add socket details ∉ history) ∨
    ∃ before details later, history = before ++ .add socket details :: later ∧
      (∀ details, .add socket details ∉ later) ∧ pulse.Means socket later

theorem lasting_nil : Lasting socket [] := by
  constructor
  · intro action absent
    cases absent
  · intro first quiet last same
    simp at same

theorem tells_after (tells : Tells socket history pulse) :
    Tells socket (history ++ [action]) (pulse.after socket action) := by
  by_cases added : ∃ details, action = .add socket details
  · obtain ⟨details, rfl⟩ := added
    refine .inr ⟨history, details, [], rfl, by simp, ?_⟩
    rw [Pulse.after, if_pos rfl]
    refine ⟨lasting_nil, ?_⟩
    intro first last same
    simp at same
  · have kept : ∀ details, action ≠ .add socket details := by
      intro details same
      exact added ⟨details, same⟩
    rcases tells with never | since
    · obtain ⟨rfl, absent⟩ := never
      refine .inl ⟨?_, ?_⟩
      · cases action with
        | add other details =>
            rw [Pulse.after, if_neg]
            rintro rfl
            exact kept details rfl
        | event other event => cases event <;> simp [Pulse.after, Pulse.set]
        | create | heartbeat | close => rfl
      · intro details member
        rcases List.mem_append.mp member with before | last
        · exact absent details before
        · exact kept details (List.mem_singleton.mp last).symm
    · obtain ⟨before, details, later, rfl, once, means⟩ := since
      refine .inr ⟨before, details, later ++ [action], by simp, ?_, means_after means kept⟩
      intro other member
      rcases List.mem_append.mp member with before | last
      · exact once other before
      · exact kept other (List.mem_singleton.mp last).symm

theorem tells_history (socket : Socket) (history : List Action) :
    Tells socket history (history.foldl (Pulse.after socket) .gone) := by
  induction history using List.reverseRecOn with
  | nil => exact .inl ⟨rfl, by simp⟩
  | append_singleton before last induction =>
      rw [List.foldl_append]
      exact tells_after induction

/-- What follows the last of several is told by the whole. -/
theorem later_unique {α : Type} {marks : α → Prop} {before before' later later' : List α}
    {mark mark' : α} (same : before ++ mark :: later = before' ++ mark' :: later')
    (isMark : marks mark) (isMark' : marks mark') (last : ∀ item ∈ later, ¬ marks item)
    (last' : ∀ item ∈ later', ¬ marks item) : later = later' := by
  rcases List.append_eq_append_iff.mp same with longer | shorter
  · obtain ⟨between, -, rest⟩ := longer
    cases between with
    | nil => exact (List.cons.inj rest).2
    | cons first between =>
        have inside : mark' ∈ later := by
          rw [(List.cons.inj rest).2]
          simp
        exact absurd isMark' (last mark' inside)
  · obtain ⟨between, -, rest⟩ := shorter
    cases between with
    | nil => exact (List.cons.inj rest).2.symm
    | cons first between =>
        have inside : mark ∈ later' := by
          rw [(List.cons.inj rest).2]
          simp
        exact absurd isMark (last' mark inside)

theorem answering_iff (tells : Tells socket history pulse) :
    pulse ≠ .gone ↔ Answering socket history := by
  rcases tells with never | since
  · obtain ⟨rfl, absent⟩ := never
    refine iff_of_false (fun other => other rfl) ?_
    intro answering
    obtain ⟨before, details, later, rfl, -⟩ := answering
    exact absent details (by simp)
  · obtain ⟨before, details, later, split, once, means⟩ := since
    have lasting_iff : pulse ≠ .gone ↔ Lasting socket later := by
      cases pulse with
      | gone => exact iff_of_false (fun other => other rfl) means
      | answered | asked => exact iff_of_true (by simp) means.1
    rw [lasting_iff]
    constructor
    · intro lasting
      exact ⟨before, details, later, split, lasting.unended, lasting.paced⟩
    · intro answering
      obtain ⟨before', details', later', split', unended, paced⟩ := answering
      have same : later = later' := by
        let adds (action : Action) : Prop := ∃ details, action = .add socket details
        have first : adds (.add socket details) := ⟨details, rfl⟩
        have second : adds (.add socket details') := ⟨details', rfl⟩
        apply later_unique (split.symm.trans split') first second
        · intro action member added
          obtain ⟨other, rfl⟩ := added
          exact once other member
        · intro action member added
          obtain ⟨other, rfl⟩ := added
          exact unended _ member rfl
      rw [same]
      exact ⟨unended, paced⟩

/-- After any run a socket is listed if and only if it was added, has not closed or failed and is
of no stopped server, and answered between each ping and the next. -/
theorem listed_sockets_are_answering (nextId : Nat) (stamped : List (Int × Action))
    (registry : Registry)
    (ran : run registryStep (createSyncConnectionRegistry nextId) stamped = some registry)
    (socket : Socket) :
    registry.entries.has socket = true ↔ Answering socket (stamped.map Prod.snd) := by
  have tells := tells_history socket (stamped.map Prod.snd)
  have pulse : registry.pulse socket =
      (stamped.map Prod.snd).foldl (Pulse.after socket) .gone := pulse_run ran
  rw [← answering_iff tells, ← pulse, Ne, Registry.pulse_gone_iff, OrderedMap.get?_eq_none_iff,
    Bool.not_eq_false]

def quietPhone : SyncConnectionDetails := ⟨some (js "Phone"), none, false, none⟩

/-- Two phones, of which the second is carried out of range. -/
def heldConnections : List Action :=
  [.add 1 quietPhone, .add 2 quietPhone, .heartbeat, .event 1 .pong, .heartbeat]

theorem first_phone_is_answering : Answering 1 heldConnections ∧ ¬ Answering 2 heldConnections := by
  have listed : (run registryStep (createSyncConnectionRegistry 1) (heldConnections.map (0, ·))).map
      (fun registry => (registry.entries.has 1, registry.entries.has 2)) = some (true, false) := by
    decide +kernel
  obtain ⟨registry, ran, both⟩ := Option.map_eq_some_iff.mp listed
  obtain ⟨first, second⟩ := Prod.mk.inj both
  have told := listed_sockets_are_answering 1 _ registry ran
  have history : (heldConnections.map ((0 : Int), ·)).map Prod.snd = heldConnections := rfl
  rw [history] at told
  constructor
  · exact (told 1).mp first
  · intro answering
    rw [(told 2).mpr answering] at second
    cases second

end Tapes.Connections
