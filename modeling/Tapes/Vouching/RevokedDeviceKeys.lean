import Tapes.Machine.Run
import Tapes.Machine.Table
import Tapes.Vouching.ResolvedOnce
import Tapes.Vouching.VouchRevocation

namespace Tapes.Vouching

open Tapes.Js Tapes.Provenance Tapes.Machine
open Tapes.Roster (FirstCertificate PinHash RosterEntry SignedVouch addVouch clearFailures countGuess
  joinEntry markEach markEach_deviceKey markRevoked rename)

/-! The question asked on every sync upgrade, on a host where people join, devices are
vouched for and vouches are withdrawn. -/

/-- Whether this host knows a device key to be revoked. -/
def isRevokedDeviceKey (people : List RosterEntry) (deviceKey : JsString) : Bool :=
  people.any fun person => (person.vouches.getD []).any fun vouch =>
    vouch.deviceKey = deviceKey && vouch.revokedAt.isSome

/-! ## The host with its joins and withdrawals -/

/-- A `revokeVouch` that found its vouch standing, named for what it awaits. -/
inductive Revoking where
  | signing (personKey address : JsString)
  | delivering (personKey address revokedAt revocation : JsString)
  | marking (personKey address revokedAt revocation : JsString)
deriving DecidableEq

/-- `people` are the keys on the roster, in no particular order, `joining` the entries that
joins in flight are about to put, and `withdrawn` the vouches whose withdrawal has finished. -/
structure Desk where
  host : Host
  people : List JsString
  joining : Table CallId RosterEntry
  revoking : Table CallId Revoking
  withdrawn : List JsString

def Desk.opened (now : Int) (hostLabel : JsString) : Desk :=
  ⟨Host.opened now hostLabel fun _ => none, [], Table.empty, Table.empty, []⟩

def Desk.list (desk : Desk) : List RosterEntry := desk.people.filterMap desk.host.roster

def Desk.withRoster (desk : Desk) (roster : PersonRoster) : Desk :=
  { desk with host := { desk.host with roster } }

inductive DeskAction where
  | host (action : Action)
  | join (call : CallId) (personKey name : JsString) (firstCertificate : FirstCertificate)
      (pin : Option (Option PinHash)) (joinedAt : JsString)
  | put (call : CallId)
  | revokeVouch (call : CallId) (personKey address : JsString)
  | sign (call : CallId) (revocation : JsString)
  | deliver (call : CallId)
  | mark (call : CallId)
  | fail (call : CallId)
  | restart

/-- `join` is a join whose checks passed, at its update of the roster. A `revokeVouch` finds
its vouch in some entry that holds it. -/
def deskStep (platform : HostPlatform) (desk : Desk) : DeskAction → Option Desk
  | .host (.editRoster _) => none
  | .host action => (step platform desk.host action).map fun host => { desk with host }
  | .join call personKey name firstCertificate pin joinedAt =>
      if (desk.joining call).isSome then none
      else match desk.host.roster.update personKey (rename name pin) with
        | (roster, some _) => some (desk.withRoster roster)
        | (_, none) =>
            some { desk with
              joining := desk.joining.put call
                (joinEntry personKey name firstCertificate pin.join joinedAt) }
  | .put call =>
      (desk.joining call).map fun entry =>
        { desk.withRoster (Function.update desk.host.roster entry.personKey (some entry)) with
          joining := desk.joining.remove call
          people := desk.people.insert entry.personKey }
  | .revokeVouch call personKey address =>
      if (desk.revoking call).isSome then none
      else match (desk.host.roster personKey).bind fun entry =>
          (entry.vouches.getD []).find? (·.address = address) with
        | none => some desk
        | some vouch =>
            if vouch.revokedAt.isSome then some desk
            else some { desk with
              revoking := desk.revoking.put call (.signing personKey address) }
  | .sign call revocation =>
      match desk.revoking call with
      | some (.signing personKey address) =>
          some { desk with
            revoking := desk.revoking.put call
              (.delivering personKey address (platform.toISOString desk.host.now) revocation) }
      | _ => none
  | .deliver call =>
      match desk.revoking call with
      | some (.delivering personKey address revokedAt revocation) =>
          some { desk with
            revoking := desk.revoking.put call (.marking personKey address revokedAt revocation) }
      | _ => none
  | .mark call =>
      match desk.revoking call with
      | some (.marking personKey address revokedAt revocation) =>
          some { desk.withRoster
              (desk.host.roster.update personKey (markRevoked address revokedAt revocation)).1 with
            revoking := desk.revoking.remove call
            withdrawn := address :: desk.withdrawn }
      | _ => none
  | .fail call => some { desk with
      joining := desk.joining.remove call
      revoking := desk.revoking.remove call }
  | .restart => some { desk with
      host := { desk.host with entries := [], calls := fun _ => none }
      joining := Table.empty
      revoking := Table.empty }

/-! ## The last vouch for a device key -/

def Event.vouchFor (deviceKey : JsString) : Event → Option Vouch
  | .signed _ vouch => if vouch.payload.deviceKey = deviceKey then some vouch else none
  | _ => none

/-- The vouch the host signed most recently for the key, for whichever person. -/
def lastVouch (history : List Event) (deviceKey : JsString) : Option Vouch :=
  history.findSome? (Event.vouchFor deviceKey)

def LastWithdrawn (platform : HostPlatform) (history : List Event) (withdrawn : List JsString)
    (deviceKey : JsString) : Prop :=
  ∃ vouch, lastVouch history deviceKey = some vouch ∧
    platform.statementAddress vouch ∈ withdrawn

/-- A device is refused only if the last vouch for its key has been withdrawn. -/
def RefusedOnlyIfWithdrawn (platform : HostPlatform) (desk : Desk) : Prop :=
  ∀ deviceKey, isRevokedDeviceKey desk.list deviceKey = true →
    LastWithdrawn platform desk.host.history desk.withdrawn deviceKey

/-- In every state reached by steps that meet the guard. -/
def RefusesOnlyWithdrawn (platform : HostPlatform) (guard : Desk → DeskAction → Prop)
    (start : Desk) : Prop :=
  ∀ desk, Reaches (deskStep platform) guard start desk → RefusedOnlyIfWithdrawn platform desk

/-- No entry of the roster holds a withdrawn vouch for the key. -/
def NoneWithdrawn (roster : PersonRoster) (deviceKey : JsString) : Prop :=
  ∀ personKey entry, roster personKey = some entry → ∀ vouch ∈ entry.vouches.getD [],
    vouch.deviceKey = deviceKey → vouch.revokedAt = none

/-- A vouch is signed only for a key without a withdrawn one (unless it is the very same
vouch), and a vouch is marked only while it is the last for its key. -/
def VouchesOnce (platform : HostPlatform) (desk : Desk) : DeskAction → Prop
  | .host (.resume call) => ∀ id personKey details,
      desk.host.calls call = some (.signing id personKey details) →
        NoneWithdrawn desk.host.roster details.request.deviceKey ∨
          platform.statementAddress (createDeviceVouch platform details) ∈ desk.withdrawn
  | .mark call => ∀ personKey address revokedAt revocation entry,
      desk.revoking call = some (.marking personKey address revokedAt revocation) →
        desk.host.roster personKey = some entry →
          ∀ vouch ∈ entry.vouches.getD [], vouch.address = address →
            LastWithdrawn platform desk.host.history (address :: desk.withdrawn) vouch.deviceKey
  | _ => True

/-! ## What the host's own steps do to the roster -/

/-- The entry is under its own key, of a person who is listed, and a device with a withdrawn
vouch on it may be refused. -/
structure Accounted (refused : JsString → Prop) (people : List JsString) (personKey : JsString)
    (entry : RosterEntry) : Prop where
  keyed : entry.personKey = personKey
  listed : personKey ∈ people
  withdrawn : ∀ vouch ∈ entry.vouches.getD [], vouch.revokedAt.isSome = true →
    refused vouch.deviceKey

/-- A record about to be written to the roster is not marked. -/
def Call.Unmarked : Call → Prop
  | .recording _ _ _ record => record.revokedAt = none
  | _ => True

structure HostSound (refused : JsString → Prop) (people : List JsString) (host : Host) : Prop where
  roster : Table.All host.roster (Accounted refused people)
  calls : Table.All host.calls fun _ phase => phase.Unmarked

variable {platform : HostPlatform} {host next : Host} {refused : JsString → Prop}
  {people : List JsString} {call : CallId} {phase : Call} {entry : Entry}

theorem accounted_update {roster : PersonRoster} {personKey : JsString}
    {change : RosterEntry → Option RosterEntry}
    (all : Table.All roster (Accounted refused people))
    (kept : ∀ entry next, roster personKey = some entry →
      Accounted refused people personKey entry → change entry = some next →
        Accounted refused people personKey next) :
    Table.All (roster.update personKey change).1 (Accounted refused people) := by
  simp only [PersonRoster.update]
  split
  · exact all
  · rename_i written found
    obtain ⟨entry, held, changed⟩ := Option.bind_eq_some_iff.mp found
    have next := kept entry written held (all personKey entry held) changed
    apply Table.All.put all
    rwa [next.keyed]

theorem accounted_of_vouches {personKey : JsString} {before after : RosterEntry}
    (accounted : Accounted refused people personKey before)
    (key : after.personKey = before.personKey) (vouches : after.vouches = before.vouches) :
    Accounted refused people personKey after := by
  refine ⟨key.trans accounted.keyed, accounted.listed, ?_⟩
  rw [vouches]
  exact accounted.withdrawn

theorem accounted_countGuess {personKey : JsString} (before after : RosterEntry)
    (accounted : Accounted refused people personKey before)
    (counted : countGuess before = some after) : Accounted refused people personKey after := by
  simp only [countGuess] at counted
  split at counted
  · cases counted
    exact accounted_of_vouches accounted rfl rfl
  · cases counted

theorem accounted_clearFailures {personKey : JsString} (before after : RosterEntry)
    (accounted : Accounted refused people personKey before)
    (cleared : clearFailures before = some after) : Accounted refused people personKey after := by
  cases cleared
  exact accounted_of_vouches accounted rfl rfl

theorem accounted_rename {personKey : JsString} (name : JsString) (pin : Option (Option PinHash))
    (before after : RosterEntry) (accounted : Accounted refused people personKey before)
    (renamed : rename name pin before = some after) : Accounted refused people personKey after := by
  cases pin with
  | none =>
      cases renamed
      exact accounted_of_vouches accounted rfl rfl
  | some pinHash =>
      cases renamed
      exact accounted_of_vouches accounted rfl rfl

theorem accounted_addVouch {personKey : JsString} {record : SignedVouch}
    (unmarked : record.revokedAt = none) (before after : RosterEntry)
    (accounted : Accounted refused people personKey before)
    (added : addVouch record before = some after) : Accounted refused people personKey after := by
  cases added
  refine ⟨accounted.keyed, accounted.listed, ?_⟩
  intro vouch member marked
  simp only [Option.getD_some, List.mem_append, List.mem_filter, List.mem_singleton] at member
  rcases member with ⟨old, -⟩ | rfl
  · exact accounted.withdrawn vouch old marked
  · rw [unmarked] at marked
    cases marked

namespace HostSound

theorem weaken {weaker : JsString → Prop} {more : List JsString}
    (sound : HostSound refused people host) (listed : ∀ personKey ∈ people, personKey ∈ more)
    (weakens : ∀ personKey entry, host.roster personKey = some entry → ∀ vouch ∈ entry.vouches.getD [],
      vouch.revokedAt.isSome = true → refused vouch.deviceKey → weaker vouch.deviceKey) :
    HostSound weaker more host := by
  refine ⟨sound.roster.weaken ?_, sound.calls⟩
  intro personKey entry held accounted
  refine ⟨accounted.keyed, listed personKey accounted.listed, ?_⟩
  intro vouch member marked
  exact weakens personKey entry held vouch member marked
    (accounted.withdrawn vouch member marked)

theorem of_same (sound : HostSound refused people host) (roster : next.roster = host.roster)
    (calls : next.calls = host.calls) : HostSound refused people next := by
  constructor
  · rw [roster]
    exact sound.roster
  · rw [calls]
    exact sound.calls

theorem park (sound : HostSound refused people host) (unmarked : phase.Unmarked) :
    HostSound refused people (host.park call phase) :=
  ⟨sound.roster, Table.All.put sound.calls unmarked⟩

theorem answer (sound : HostSound refused people host) {id : RequestId} {answer : Answer} :
    HostSound refused people (host.answer call id answer) :=
  ⟨sound.roster, Table.All.remove sound.calls⟩

theorem note (sound : HostSound refused people host) {event : Event} :
    HostSound refused people (host.note event) :=
  sound.of_same rfl rfl

theorem dropStale (sound : HostSound refused people host) :
    HostSound refused people (Vouching.dropStale host) :=
  sound.of_same rfl rfl

theorem written (sound : HostSound refused people host) (personKey : JsString)
    {change : RosterEntry → Option RosterEntry}
    (kept : ∀ before after, Accounted refused people personKey before →
      change before = some after → Accounted refused people personKey after) :
    HostSound refused people { host with roster := (host.roster.update personKey change).1 } :=
  ⟨accounted_update sound.roster fun before after _ => kept before after, sound.calls⟩

theorem resumeCheckPin (sound : HostSound refused people host) :
    HostSound refused people (resumeCheckPin platform host call entry phase) := by
  cases phase with
  | countingGuess id pin =>
      have counted := sound.written entry.request.personKey accounted_countGuess
      simp only [Vouching.resumeCheckPin]
      split <;> rename_i updated <;> rw [updated] at counted <;> exact counted.park trivial
  | findingPin id =>
      simp only [Vouching.resumeCheckPin]
      split <;> exact sound.answer
  | matchingPin id pin stored failures =>
      simp only [Vouching.resumeCheckPin]
      split
      · exact sound.park trivial
      · split <;> exact sound.answer
  | clearingFailures id => exact (sound.written _ accounted_clearFailures).park trivial
  | findingPerson | signing | addressing | recording | recorded => exact sound

theorem resumeVouchFor (sound : HostSound refused people host)
    (parked : host.calls call = some phase) :
    HostSound refused people (resumeVouchFor platform host call entry phase) := by
  cases phase with
  | findingPerson id method =>
      simp only [Vouching.resumeVouchFor]
      split
      · exact sound.answer
      · exact sound.park trivial
  | signing id personKey details => exact sound.note.park trivial
  | addressing id personKey vouch => exact sound.park rfl
  | recording id personKey vouch record =>
      have unmarked : record.revokedAt = none := sound.calls call _ parked
      have added := sound.written personKey (accounted_addVouch unmarked)
      simp only [Vouching.resumeVouchFor]
      split
      · rename_i updated
        rw [updated] at added
        exact added.note.park trivial
      · exact sound.park trivial
  | recorded id vouch => exact ⟨sound.roster, Table.All.remove sound.calls⟩
  | countingGuess | findingPin | matchingPin | clearingFailures => exact sound

theorem step {action : Action} (sound : HostSound refused people host)
    (unedited : ∀ roster, action ≠ .editRoster roster)
    (taken : step platform host action = some next) : HostSound refused people next := by
  cases action with
  | editRoster roster => exact absurd rfl (unedited roster)
  | tick | renameHost | poll =>
      cases taken
      exact sound.of_same rfl rfl
  | request id wanted personName deviceFingerprint =>
      simp only [Vouching.step] at taken
      split at taken
      · cases taken
        simp only [request]
        split
        · exact sound
        · split
          · exact sound
          · exact sound.of_same rfl rfl
      · cases taken
  | confirm | enterPin =>
      simp only [Vouching.step, confirm, enterPin] at taken
      split at taken
      · cases taken
        split
        · exact sound.dropStale.answer
        · exact sound.dropStale.park trivial
      · cases taken
  | reject id =>
      cases taken
      simp only [reject]
      split
      · exact sound.dropStale
      · exact sound.of_same rfl rfl
  | resume call =>
      simp only [Vouching.step] at taken
      cases parked : host.calls call with
      | none => simp [parked] at taken
      | some phase =>
          simp only [parked, Option.map_eq_some_iff] at taken
          obtain ⟨entry, -, rfl⟩ := taken
          simp only [resume]
          split
          · exact sound.resumeVouchFor parked
          · exact sound.resumeCheckPin
  | throw call =>
      simp only [Vouching.step, Option.bind_eq_some_iff] at taken
      obtain ⟨phase, -, thrown⟩ := taken
      cases phase <;> cases thrown <;> exact ⟨sound.roster, Table.All.remove sound.calls⟩

end HostSound

/-! ## What they do to the last vouch -/

theorem lastVouch_cons (event : Event) (history : List Event) (deviceKey : JsString)
    (other : event.vouchFor deviceKey = none) :
    lastVouch (event :: history) deviceKey = lastVouch history deviceKey := by
  simp only [lastVouch, List.findSome?_cons, other]

/-- The call is about to sign, and signs. -/
structure Signs (platform : HostPlatform) (host next : Host) (action : Action) : Prop where
  vouches : ∃ call id personKey details, action = .resume call ∧
    host.calls call = some (.signing id personKey details) ∧
    next.history = .signed id (createDeviceVouch platform details) :: host.history
  roster : next.roster = host.roster

theorem resume_lastVouch (parked : host.calls call = some phase) :
    Signs platform host (resume platform host call phase entry) (.resume call) ∨
      ∀ deviceKey, lastVouch (resume platform host call phase entry).history deviceKey =
        lastVouch host.history deviceKey := by
  cases phase with
  | signing id personKey details => exact .inl ⟨⟨call, id, personKey, details, rfl, parked, rfl⟩, rfl⟩
  | countingGuess | matchingPin | findingPin | clearingFailures | findingPerson | addressing |
      recording | recorded =>
      apply Or.inr
      intro deviceKey
      simp only [resume, Call.inVouchFor, resumeCheckPin, resumeVouchFor, if_true,
        Bool.false_eq_true, if_false]
      repeat' split
      all_goals rfl

theorem step_lastVouch {action : Action} (taken : step platform host action = some next) :
    Signs platform host next action ∨
      ∀ deviceKey, lastVouch next.history deviceKey = lastVouch host.history deviceKey := by
  cases action with
  | tick | renameHost | editRoster | poll =>
      cases taken
      exact .inr fun _ => rfl
  | request id wanted personName deviceFingerprint =>
      apply Or.inr
      intro deviceKey
      simp only [step, request] at taken
      split at taken
      · cases taken
        repeat' split
        all_goals rfl
      · cases taken
  | confirm | enterPin =>
      apply Or.inr
      intro deviceKey
      simp only [step, confirm, enterPin] at taken
      split at taken
      · cases taken
        split <;> rfl
      · cases taken
  | reject id =>
      apply Or.inr
      intro deviceKey
      cases taken
      simp only [reject]
      split <;> rfl
  | resume call =>
      simp only [step] at taken
      cases parked : host.calls call with
      | none => simp [parked] at taken
      | some phase =>
          simp only [parked, Option.map_eq_some_iff] at taken
          obtain ⟨entry, -, rfl⟩ := taken
          exact resume_lastVouch parked
  | throw call =>
      simp only [step, Option.bind_eq_some_iff] at taken
      obtain ⟨phase, -, thrown⟩ := taken
      cases phase <;> cases thrown <;> exact .inr fun _ => rfl

theorem lastWithdrawn_more {history : List Event} {withdrawn : List JsString}
    {address deviceKey : JsString} (last : LastWithdrawn platform history withdrawn deviceKey) :
    LastWithdrawn platform history (address :: withdrawn) deviceKey := by
  obtain ⟨vouch, found, member⟩ := last
  exact ⟨vouch, found, List.mem_cons_of_mem _ member⟩

/-! ## The desk -/

structure DeskSound (platform : HostPlatform) (desk : Desk) : Prop where
  host : HostSound (LastWithdrawn platform desk.host.history desk.withdrawn) desk.people desk.host
  joining : desk.joining.All fun _ entry => entry.vouches.getD [] = []

variable {desk : Desk}

theorem hostStep_sound {action : Action} (sound : DeskSound platform desk)
    (unedited : ∀ roster, action ≠ .editRoster roster)
    (met : VouchesOnce platform desk (.host action))
    (taken : step platform desk.host action = some next) :
    DeskSound platform { desk with host := next } := by
  have stepped := sound.host.step unedited taken
  refine ⟨stepped.weaken (fun _ listed => listed) ?_, sound.joining⟩
  intro personKey entry held vouch member marked last
  rcases step_lastVouch taken with
    ⟨⟨call, id, signer, details, rfl, parked, signed⟩, kept⟩ | same
  · have newest : (Event.signed id (createDeviceVouch platform details)).vouchFor
        details.request.deviceKey = some (createDeviceVouch platform details) := if_pos rfl
    rw [signed]
    by_cases sameKey : vouch.deviceKey = details.request.deviceKey
    · rw [kept] at held
      rcases met id signer details parked with unwithdrawn | repeated
      · have standing := unwithdrawn personKey entry held vouch member sameKey
        rw [standing] at marked
        cases marked
      · refine ⟨createDeviceVouch platform details, ?_, repeated⟩
        simp only [lastVouch, List.findSome?_cons, sameKey, newest]
    · have other : (Event.signed id (createDeviceVouch platform details)).vouchFor
          vouch.deviceKey = none := if_neg fun equal => sameKey equal.symm
      unfold LastWithdrawn
      rwa [lastVouch_cons _ _ _ other]
  · unfold LastWithdrawn
    rwa [same]

theorem mark_sound {personKey address revokedAt revocation : JsString}
    (sound : DeskSound platform desk) (met : VouchesOnce platform desk (.mark call))
    (parked : desk.revoking call = some (.marking personKey address revokedAt revocation)) :
    DeskSound platform
      { desk.withRoster
          (desk.host.roster.update personKey (markRevoked address revokedAt revocation)).1 with
        revoking := desk.revoking.remove call
        withdrawn := address :: desk.withdrawn } := by
  have sooner : HostSound
      (LastWithdrawn platform desk.host.history (address :: desk.withdrawn)) desk.people
      desk.host :=
    sound.host.weaken (fun _ listed => listed) fun _ _ _ _ _ _ last => lastWithdrawn_more last
  refine ⟨⟨accounted_update sooner.roster ?_, sooner.calls⟩, sound.joining⟩
  intro before after held accounted marked
  cases marked
  refine ⟨accounted.keyed, accounted.listed, ?_⟩
  intro each member isMarked
  obtain ⟨vouch, here, rfl⟩ := List.mem_map.mp member
  by_cases same : vouch.address = address
  · have last := met personKey address revokedAt revocation before parked held vouch here same
    rw [markEach_deviceKey]
    exact last
  · have unmarked : markEach address revokedAt revocation vouch = vouch := if_neg same
    rw [unmarked] at isMarked ⊢
    exact accounted.withdrawn vouch here isMarked

theorem deskStep_sound {action : DeskAction} {after : Desk} (sound : DeskSound platform desk)
    (met : VouchesOnce platform desk action) (taken : deskStep platform desk action = some after) :
    DeskSound platform after := by
  cases action with
  | host action =>
      by_cases edits : ∃ roster, action = .editRoster roster
      · obtain ⟨roster, rfl⟩ := edits
        cases taken
      · have unedited : ∀ roster, action ≠ .editRoster roster := fun roster equal =>
          edits ⟨roster, equal⟩
        have stepped : (step platform desk.host action).map
            (fun host => { desk with host }) = some after := by
          cases action with
          | editRoster roster => exact absurd rfl (unedited roster)
          | tick | renameHost | poll | request | confirm | reject | enterPin | resume | throw =>
              exact taken
        obtain ⟨host, hostTaken, rfl⟩ := Option.map_eq_some_iff.mp stepped
        exact hostStep_sound sound unedited met hostTaken
  | join call personKey name firstCertificate pin joinedAt =>
      have renamed := sound.host.written personKey (accounted_rename name pin)
      simp only [deskStep] at taken
      split at taken
      · cases taken
      · split at taken <;> rename_i updated <;> cases taken
        · rw [updated] at renamed
          exact ⟨renamed, sound.joining⟩
        · exact ⟨sound.host, sound.joining.put rfl⟩
  | put call =>
      obtain ⟨entry, joining, rfl⟩ := Option.map_eq_some_iff.mp taken
      have listed : ∀ personKey ∈ desk.people, personKey ∈ desk.people.insert entry.personKey :=
        fun personKey member => List.mem_insert_of_mem member
      have sooner := sound.host.weaken listed fun _ _ _ _ _ _ last => last
      refine ⟨⟨Table.All.put sooner.roster ?_, sooner.calls⟩, sound.joining.remove⟩
      refine ⟨rfl, List.mem_insert_self, ?_⟩
      rw [sound.joining call entry joining]
      intro vouch member
      cases member
  | revokeVouch call personKey address =>
      simp only [deskStep] at taken
      split at taken
      · cases taken
      · split at taken
        · cases taken
          exact sound
        · split at taken <;> cases taken
          · exact sound
          · exact ⟨sound.host, sound.joining⟩
  | sign call revocation | deliver call =>
      simp only [deskStep] at taken
      split at taken <;> cases taken
      exact ⟨sound.host, sound.joining⟩
  | mark call =>
      simp only [deskStep] at taken
      split at taken <;> rename_i parked <;> cases taken
      exact mark_sound sound met parked
  | fail call =>
      cases taken
      exact ⟨sound.host, sound.joining.remove⟩
  | restart =>
      cases taken
      exact ⟨⟨sound.host.roster, Table.all_empty⟩, Table.all_empty⟩

theorem refusedOnlyIfWithdrawn_of_sound (sound : DeskSound platform desk) :
    RefusedOnlyIfWithdrawn platform desk := by
  intro deviceKey revoked
  simp only [isRevokedDeviceKey, List.any_eq_true, Bool.and_eq_true, decide_eq_true_eq] at revoked
  obtain ⟨entry, member, vouch, here, rfl, marked⟩ := revoked
  obtain ⟨personKey, -, held⟩ := List.mem_filterMap.mp member
  exact (sound.host.roster personKey entry held).withdrawn vouch here marked

theorem reaches_deskSound {now : Int} {label : JsString}
    (reached : Reaches (deskStep platform) (VouchesOnce platform) (Desk.opened now label) desk) :
    DeskSound platform desk := by
  apply reached.invariant (DeskSound platform)
  · exact ⟨⟨Table.all_empty, Table.all_empty⟩, Table.all_empty⟩
  · intro _ _ _ _ sound met taken
    exact deskStep_sound sound met taken

/-- While no device is vouched for again, each refusal is of a withdrawn last vouch. -/
theorem refuses_only_withdrawn_unless_revouched (platform : HostPlatform) (now : Int)
    (label : JsString) :
    RefusesOnlyWithdrawn platform (VouchesOnce platform) (Desk.opened now label) := by
  intro desk reached
  exact refusedOnlyIfWithdrawn_of_sound (reaches_deskSound reached)

/-! ## The wrong person, put right -/

def samplePhone : JsString := js "phone-key"

def vouchFor (call : CallId) (id personKey : JsString) : List DeskAction :=
  [.host (.request id
      { deviceKey := samplePhone
        personKey
        deviceLabel := js "phone"
        requestedAt := js "1970-01-01T00:00:00.000Z" }
      (js "name") (js "fingerprint")),
    .host (.confirm call id), .host (.resume call), .host (.resume call), .host (.resume call),
    .host (.resume call), .host (.resume call)]

/-- Sam's phone is taken for Alex's, the vouch is withdrawn, and Sam's is signed. -/
def wrongPersonFlow : List DeskAction :=
  [.join 0 (js "alex") (js "Alex") sampleCertificate none (js "1970-01-01T00:00:00.000Z"), .put 0,
    .join 1 (js "sam") (js "Sam") sampleCertificate none (js "1970-01-01T00:00:00.000Z"), .put 1] ++
  vouchFor 2 (js "first") (js "alex") ++
  [.host (.tick 1),
    .revokeVouch 3 (js "alex") (js "address of signed 1970-01-01T00:00:00.000Z"),
    .sign 3 (js "revocation"), .deliver 3, .mark 3] ++
  vouchFor 4 (js "second") (js "sam")

theorem wrongPersonFlow_refuses :
    ((run (deskStep samplePlatform) (Desk.opened 0 (js "Studio")) wrongPersonFlow).map
      fun desk => (isRevokedDeviceKey desk.list samplePhone,
        (lastVouch desk.host.history samplePhone).map fun vouch =>
          (vouch.payload.personKey, desk.withdrawn.contains (samplePlatform.statementAddress vouch)),
        (desk.host.roster (js "sam")).map fun sam => (sam.vouches.getD []).map (·.revokedAt.isSome))) =
      some (true, some (js "sam", false), some [false]) := by
  decide +kernel

/-- The device is vouched for again, and refused for good. -/
theorem revouched_device_stays_refused :
    ¬ RefusesOnlyWithdrawn samplePlatform anyAction (Desk.opened 0 (js "Studio")) := by
  intro refusesOnly
  obtain ⟨desk, ran, shows⟩ := Option.map_eq_some_iff.mp wrongPersonFlow_refuses
  have reached : Reaches (deskStep samplePlatform) anyAction (Desk.opened 0 (js "Studio")) desk :=
    .of_run ran (meetsAlong_anyAction _ _)
  have refused : isRevokedDeviceKey desk.list samplePhone = true := congrArg Prod.fst shows
  have standing := congrArg (fun shown => shown.2.1) shows
  obtain ⟨vouch, last, withdrawn⟩ := refusesOnly desk reached samplePhone refused
  simp only [last, Option.map_some, Option.some.injEq, Prod.mk.injEq, List.contains_eq_mem,
    decide_eq_false_iff_not] at standing
  exact standing.2 withdrawn

/-! ## A withdrawn vouch -/

/-- What `VouchesOnce` asks of a desk as it stands, while nothing has been withdrawn. -/
def vouchesCheck (platform : HostPlatform) (desk : Desk) : DeskAction → Bool
  | .host (.resume _) => desk.withdrawn = []
  | .mark call => match desk.revoking call with
      | some (.marking personKey address _ _) => (desk.host.roster personKey).all fun entry =>
          (entry.vouches.getD []).all fun vouch => vouch.address ≠ address ||
            (lastVouch desk.host.history vouch.deviceKey).any fun last =>
              platform.statementAddress last ∈ address :: desk.withdrawn
      | _ => true
  | _ => true

/-- What nothing was withdrawn from holds no withdrawn vouch. -/
theorem DeskSound.noneWithdrawn (sound : DeskSound platform desk) (nothing : desk.withdrawn = [])
    (deviceKey : JsString) : NoneWithdrawn desk.host.roster deviceKey := by
  intro personKey entry held vouch here _
  by_contra marked
  obtain ⟨_, _, member⟩ := (sound.host.roster personKey entry held).withdrawn vouch here
    (Option.isSome_iff_ne_none.mpr marked)
  rw [nothing] at member
  cases member

theorem vouchesOnce_of_check {action : DeskAction} (sound : DeskSound platform desk)
    (checked : vouchesCheck platform desk action = true) : VouchesOnce platform desk action := by
  cases action with
  | host action =>
      cases action with
      | resume call =>
          intro id personKey details _
          exact .inl (sound.noneWithdrawn (of_decide_eq_true checked) _)
      | _ => trivial
  | mark call =>
      intro personKey address revokedAt revocation entry marking held vouch here own
      simp only [vouchesCheck, marking, held, Option.all_some, List.all_eq_true, Bool.or_eq_true,
        decide_eq_true_eq] at checked
      obtain ⟨last, is, member⟩ := (Option.any_eq_true _ _).mp
        ((checked vouch here).resolve_left fun other => other own)
      exact ⟨last, is, of_decide_eq_true member⟩
  | _ => trivial

/-- Sam's phone is vouched for, and the vouch is withdrawn. -/
def withdrawnFlow : List DeskAction :=
  [.join 0 (js "sam") (js "Sam") sampleCertificate none (js "1970-01-01T00:00:00.000Z"), .put 0] ++
  vouchFor 1 (js "first") (js "sam") ++
  [.host (.tick 1),
    .revokeVouch 2 (js "sam") (js "address of signed 1970-01-01T00:00:00.000Z"),
    .sign 2 (js "revocation"), .deliver 2, .mark 2]

theorem withdrawnFlow_refuses :
    (run (guarded (vouchesCheck samplePlatform · ·) (deskStep samplePlatform))
      (Desk.opened 0 (js "Studio")) withdrawnFlow).any
        (fun desk => isRevokedDeviceKey desk.list samplePhone) = true := by
  decide +kernel

/-- The phone is refused, and its last vouch is the one that was withdrawn. -/
theorem withdrawn_phone_is_refused :
    ∃ desk, Reaches (deskStep samplePlatform) (VouchesOnce samplePlatform)
        (Desk.opened 0 (js "Studio")) desk ∧
      isRevokedDeviceKey desk.list samplePhone = true ∧
      LastWithdrawn samplePlatform desk.host.history desk.withdrawn samplePhone := by
  obtain ⟨desk, ran, refused⟩ := (Option.any_eq_true _ _).mp withdrawnFlow_refuses
  have reached : Reaches (deskStep samplePlatform) (VouchesOnce samplePlatform)
      (Desk.opened 0 (js "Studio")) desk :=
    .of_checked_run ran fun _ _ _ before =>
      vouchesOnce_of_check (reaches_deskSound before)
  exact ⟨desk, reached, refused,
    refuses_only_withdrawn_unless_revouched samplePlatform 0 (js "Studio") desk reached samplePhone refused⟩

end Tapes.Vouching
