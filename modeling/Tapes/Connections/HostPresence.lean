import Tapes.Connections.SyncConnections
import Tapes.Sessions.SignedSpans

/-! The sockets of a host and its session recorder together: what the recorder is told is in order,
so that every record it signs is the presence of the devices. -/

namespace Tapes.Sessions

variable {seen : List Report} {time later : Int} {connections renewed : List SyncConnection}
  {report : Report}

/-- A last report may be made anew of connections that it had and of others that none had. -/
theorem WellReported.renew (well : WellReported (seen ++ [⟨time, connections⟩]))
    (forward : time ≤ later)
    (grown : ∀ connection ∈ renewed, connection ∈ connections ∨
      connection.connectedAt ≤ later ∧
        ∀ earlier ∈ seen ++ [⟨time, connections⟩], connection.id ∉ earlier.ids)
    (apart : ∀ left ∈ renewed, ∀ right ∈ renewed, left.id = right.id →
      left.deviceKey = right.deviceKey) :
    WellReported (seen ++ [⟨later, renewed⟩]) := by
  have kept (connection : SyncConnection) (inside : connection ∈ renewed) (earlier : Report)
      (there : earlier ∈ seen) (named : connection.id ∈ earlier.ids) : connection ∈ connections := by
    rcases grown connection inside with old | new
    · exact old
    · exact absurd named (new.2 earlier (List.mem_append_left _ there))
  have keptId (id : Js.JsString) (inside : id ∈ (Report.mk later renewed).ids) (earlier : Report)
      (there : earlier ∈ seen) (named : id ∈ earlier.ids) :
      id ∈ (Report.mk time connections).ids := by
    obtain ⟨connection, member, rfl⟩ := List.mem_map.mp inside
    exact List.mem_map_of_mem (kept connection member earlier there named)
  constructor
  · intro first between last id sub firstId lastId
    obtain ⟨front, back, split, inSeen, inLast⟩ := List.sublist_append_iff.mp sub
    rcases List.sublist_singleton.mp inLast with rfl | rfl
    · rw [List.append_nil] at split
      rw [← split] at inSeen
      exact well.contiguous first between last id
        (inSeen.trans (List.sublist_append_left _ _)) firstId lastId
    · have whole : [first, between] ++ [last] = front ++ [⟨later, renewed⟩] := split
      obtain ⟨rfl, same⟩ := List.append_singleton_inj.mp whole
      cases same
      have there : first ∈ seen := inSeen.subset (by simp)
      exact well.contiguous first between ⟨time, connections⟩ id
        (inSeen.append (List.Sublist.refl _)) firstId (keptId id lastId first there firstId)
  · intro first firstIn second secondIn left leftIn right rightIn same
    rcases List.mem_append.mp firstIn with firstSeen | firstLast
    · rcases List.mem_append.mp secondIn with secondSeen | secondLast
      · exact well.fixed first (List.mem_append_left _ firstSeen) second
          (List.mem_append_left _ secondSeen) left leftIn right rightIn same
      · rw [List.mem_singleton.mp secondLast] at rightIn
        have old := kept right rightIn first firstSeen (same ▸ List.mem_map_of_mem leftIn)
        exact well.fixed first (List.mem_append_left _ firstSeen) ⟨time, connections⟩ (by simp)
          left leftIn right old same
    · rw [List.mem_singleton.mp firstLast] at leftIn
      rcases List.mem_append.mp secondIn with secondSeen | secondLast
      · have old := kept left leftIn second secondSeen (same ▸ List.mem_map_of_mem rightIn)
        exact well.fixed ⟨time, connections⟩ (by simp) second (List.mem_append_left _ secondSeen)
          left old right rightIn same
      · rw [List.mem_singleton.mp secondLast] at rightIn
        exact apart left leftIn right rightIn same
  · intro report reportIn connection inside other otherIn named
    rcases List.mem_append.mp otherIn with otherSeen | otherLast
    · rcases List.mem_append.mp reportIn with reportSeen | reportLast
      · exact well.connected report (List.mem_append_left _ reportSeen) connection inside other
          (List.mem_append_left _ otherSeen) named
      · rw [List.mem_singleton.mp reportLast] at inside
        have old := kept connection inside other otherSeen named
        exact well.connected ⟨time, connections⟩ (by simp) connection old other
          (List.mem_append_left _ otherSeen) named
    · rw [List.mem_singleton.mp otherLast] at named ⊢
      rcases List.mem_append.mp reportIn with reportSeen | reportLast
      · have old := keptId connection.id named report reportSeen (List.mem_map_of_mem inside)
        exact (well.connected report (List.mem_append_left _ reportSeen) connection inside
          ⟨time, connections⟩ (by simp) old).trans forward
      · rw [List.mem_singleton.mp reportLast] at inside
        rcases grown connection inside with old | new
        · exact (well.connected ⟨time, connections⟩ (by simp) connection old ⟨time, connections⟩
            (by simp) (List.mem_map_of_mem old)).trans forward
        · exact new.1

/-- A last report may be made twice. -/
theorem WellReported.again (well : WellReported (seen ++ [report])) :
    WellReported (seen ++ [report] ++ [report]) := by
  have same (other : Report) : other ∈ seen ++ [report] ++ [report] → other ∈ seen ++ [report] := by
    simp
  constructor
  · intro first between last id sub firstId lastId
    obtain ⟨front, back, split, inSeen, inLast⟩ := List.sublist_append_iff.mp sub
    rcases List.sublist_singleton.mp inLast with rfl | rfl
    · rw [List.append_nil] at split
      rw [← split] at inSeen
      exact well.contiguous first between last id inSeen firstId lastId
    · have whole : [first, between] ++ [last] = front ++ [report] := split
      obtain ⟨rfl, last⟩ := List.append_singleton_inj.mp whole
      cases last
      obtain ⟨front, back, split, inSeen, inLast⟩ := List.sublist_append_iff.mp inSeen
      rcases List.sublist_singleton.mp inLast with rfl | rfl
      · rw [List.append_nil] at split
        rw [← split] at inSeen
        exact well.contiguous first between report id
          (inSeen.append (List.Sublist.refl [report])) firstId lastId
      · have whole : [first] ++ [between] = front ++ [report] := split
        obtain ⟨-, last⟩ := List.append_singleton_inj.mp whole
        cases last
        exact lastId
  · intro first firstIn second secondIn
    exact well.fixed first (same first firstIn) second (same second secondIn)
  · intro report reportIn connection inside other otherIn
    exact well.connected report (same report reportIn) connection inside other (same other otherIn)

theorem wellReported_single (connected : ∀ connection ∈ connections, connection.connectedAt ≤ time)
    (apart : ∀ left ∈ connections, ∀ right ∈ connections, left.id = right.id → left = right) :
    WellReported [⟨time, connections⟩] := by
  constructor
  · intro first between last id sub
    have long := sub.length_le
    simp at long
  · intro first firstIn second secondIn left leftIn right rightIn same
    rw [List.mem_singleton.mp firstIn] at leftIn
    rw [List.mem_singleton.mp secondIn] at rightIn
    rw [apart left leftIn right rightIn same]
  · intro report reportIn connection inside other otherIn named
    rw [List.mem_singleton.mp reportIn] at inside
    rw [List.mem_singleton.mp otherIn]
    exact connected connection inside

end Tapes.Sessions

namespace Tapes.Connections

open Tapes.Js Tapes.Machine
open Tapes.Sessions (Watched Report RecorderPlatform Documents WellReported Watching watchedStep
  seenAfter livesAfter lifeOf IsPresence)

/-! ## The host -/

structure SyncHost where
  registry : Registry
  watched : Watched

def SyncHost.idle (now : Int) (documents : Documents) (nextId : Nat) : SyncHost :=
  ⟨⟨.empty, nextId, false⟩, .idle now documents⟩

def SyncHost.now (host : SyncHost) : Int := host.watched.recorder.now

/-- The module's listener hands every change to `sessions.connectionsChanged`. -/
def tell (watched : Watched) : Effect → Watched
  | .change connections =>
      let reported := connections.map SyncConnection.recorded
      ⟨Sessions.connectionsChanged watched.recorder reported,
        watched.seen ++ [⟨watched.recorder.now, reported⟩], watched.lives⟩
  | .ping _ | .terminate _ => watched

/-- `current?.connections.list() ?? []`. -/
def getSyncConnections (host : SyncHost) : List SyncConnection :=
  if host.watched.recorder.running then host.registry.list else []

inductive HostAction where
  | tick (elapsed : Nat)
  | registry (action : Action)
  | openSession (sessionId docUrl : JsString)
  /-- Anything else that the recorder does. -/
  | recorder (action : Sessions.Action)

/-- What the host does not hand to the recorder by itself. -/
def isOwnAction : Sessions.Action → Bool
  | .tick _ | .openSession .. | .connectionsChanged _ => false
  | .setRunning _ | .editDocuments _ | .claimVerified .. | .close _ | .flush | .resume _ | .fail _ => true

def SyncHost.record (platform : RecorderPlatform) (host : SyncHost) (action : Sessions.Action) :
    Option SyncHost :=
  (watchedStep platform host.watched action).map fun watched => { host with watched }

def hostStep (platform : RecorderPlatform) (host : SyncHost) : HostAction → Option SyncHost
  | .tick elapsed => host.record platform (.tick elapsed)
  | .registry action => (act host.now host.registry action).map fun result =>
      ⟨result.1, result.2.foldl tell host.watched⟩
  | .openSession sessionId docUrl => host.record platform
      (.openSession sessionId docUrl ((getSyncConnections host).map SyncConnection.recorded))
  | .recorder action => if isOwnAction action then host.record platform action else none

/-! ## The invariant -/

variable {platform : RecorderPlatform} {registry next : Registry} {watched : Watched}
  {now later : Int} {connection : SyncConnection} {socket : Socket} {host : SyncHost}

/-- The connections of the list were numbered by the registry, one each. -/
structure Listed (registry : Registry) (now : Int) : Prop where
  numbered : ∀ connection ∈ registry.list, ∃ number < registry.nextId,
    connection.id = connectionId number
  apart : ∀ first ∈ registry.list, ∀ second ∈ registry.list, first.id = second.id → first = second
  connected : ∀ connection ∈ registry.list, connection.connectedAt ≤ now

def Registry.reported (registry : Registry) : List Sessions.SyncConnection :=
  registry.list.map SyncConnection.recorded

structure Reported (registry : Registry) (now : Int) (seen : List Report) : Prop where
  well : WellReported (seen ++ [⟨now, registry.reported⟩])
  numbered : ∀ report ∈ seen, ∀ id ∈ report.ids, ∃ number < registry.nextId, id = connectionId number

structure HostSound (platform : RecorderPlatform) (host : SyncHost) : Prop where
  watching : Watching platform host.watched.seen host.watched.lives host.watched.recorder
  listed : Listed host.registry host.now
  opened : host.watched.recorder.opened.isSome = true →
    Reported host.registry host.now host.watched.seen
  lives : ∀ life ∈ host.watched.lives, WellReported life.reports

/-- What one operation may change: it drops connections, or adds one of the next number. -/
structure Grew (now : Int) (registry next : Registry) : Prop where
  counted : registry.nextId ≤ next.nextId
  members : ∀ connection ∈ next.list, connection ∈ registry.list ∨
    connection.id = connectionId registry.nextId ∧ connection.connectedAt = now ∧
      registry.nextId < next.nextId
  apart : Listed registry now → ∀ first ∈ next.list, ∀ second ∈ next.list,
    first.id = second.id → first = second

/-! ## Connection ids -/

theorem connectionId_inj {first second : Nat} (same : connectionId first = connectionId second) :
    first = second := by
  have digits := List.append_cancel_left same
  have none : NoDigit [] := by
    intro unit absent
    cases absent
  have left := takeDigits_digitText (isDigits_decimalDigits first) none
  have right := takeDigits_digitText (isDigits_decimalDigits second) none
  rw [digits] at left
  have both := (Prod.mk.inj (left.symm.trans right)).1
  rw [← digitsValue_decimalDigits first, both, digitsValue_decimalDigits]

/-! ## What operations do to the list -/

theorem mem_list : connection ∈ registry.list ↔
    ∃ socket entry, registry.entries.get? socket = some entry ∧ entry.connection = connection := by
  simp only [Registry.list, OrderedMap.values, List.mem_map, Prod.exists, OrderedMap.get?_eq_some_iff]
  constructor
  · intro found
    obtain ⟨entry, held, same⟩ := found
    obtain ⟨socket, other, inside, rfl⟩ := held
    exact ⟨socket, other, inside, same⟩
  · intro found
    obtain ⟨socket, entry, inside, same⟩ := found
    exact ⟨entry, ⟨socket, entry, inside, rfl⟩, same⟩

theorem grew_of_subset (fewer : ∀ connection ∈ next.list, connection ∈ registry.list)
    (counted : registry.nextId ≤ next.nextId) : Grew now registry next := by
  constructor
  · exact counted
  · exact fun connection inside => .inl (fewer connection inside)
  · intro listed first firstIn second secondIn
    exact listed.apart first (fewer first firstIn) second (fewer second secondIn)

theorem grew_setAlive (alive : Bool) : Grew now registry (registry.setAlive socket alive) := by
  unfold Registry.setAlive
  split
  · rename_i entry found
    refine grew_of_subset ?_ (Nat.le_refl _)
    intro connection inside
    obtain ⟨other, held, there, rfl⟩ := mem_list.mp inside
    by_cases same : other = socket
    · subst same
      rw [OrderedMap.get?_set_self] at there
      cases there
      exact mem_list.mpr ⟨other, entry, found, rfl⟩
    · rw [OrderedMap.get?_set_other same] at there
      exact mem_list.mpr ⟨other, held, there, rfl⟩
  · exact grew_of_subset (fun _ inside => inside) (Nat.le_refl _)

theorem grew_remove (socket : Socket) : Grew now registry (registry.remove socket).1 := by
  unfold Registry.remove
  split
  · refine grew_of_subset ?_ (Nat.le_refl _)
    intro connection inside
    obtain ⟨other, held, there, rfl⟩ := mem_list.mp inside
    by_cases same : other = socket
    · subst same
      rw [OrderedMap.get?_delete_self] at there
      cases there
    · rw [OrderedMap.get?_delete_other same] at there
      exact mem_list.mpr ⟨other, held, there, rfl⟩
  · exact grew_of_subset (fun _ inside => inside) (Nat.le_refl _)

theorem grew_add (details : SyncConnectionDetails) :
    Grew now registry (registry.add now socket details).1 := by
  have members : ∀ connection ∈ (registry.add now socket details).1.list,
      connection ∈ registry.list ∨ connection =
        { details with id := connectionId registry.nextId, connectedAt := now } := by
    intro connection inside
    obtain ⟨other, held, there, rfl⟩ := mem_list.mp inside
    by_cases same : other = socket
    · subst same
      simp only [Registry.add, OrderedMap.get?_set_self, Option.some.injEq] at there
      exact .inr (by rw [← there])
    · simp only [Registry.add, OrderedMap.get?_set_other same] at there
      exact .inl (mem_list.mpr ⟨other, held, there, rfl⟩)
  constructor
  · exact Nat.le_succ _
  · intro connection inside
    rcases members connection inside with old | rfl
    · exact .inl old
    · exact .inr ⟨rfl, rfl, Nat.lt_succ_self _⟩
  · intro listed first firstIn second secondIn same
    have new (other : SyncConnection) (inside : other ∈ registry.list) :
        other.id ≠ connectionId registry.nextId := by
      intro clash
      obtain ⟨number, small, named⟩ := listed.numbered other inside
      have := connectionId_inj (named.symm.trans clash)
      omega
    rcases members first firstIn with old | rfl
    · rcases members second secondIn with older | rfl
      · exact listed.apart first old second older same
      · exact absurd same (new first old)
    · rcases members second secondIn with older | rfl
      · exact absurd same.symm (new second older)
      · rfl

theorem Grew.listed (grew : Grew now registry next) (listed : Listed registry now) :
    Listed next now := by
  constructor
  · intro connection inside
    rcases grew.members connection inside with old | new
    · obtain ⟨number, small, named⟩ := listed.numbered connection old
      exact ⟨number, Nat.lt_of_lt_of_le small grew.counted, named⟩
    · exact ⟨registry.nextId, new.2.2, new.1⟩
  · exact grew.apart listed
  · intro connection inside
    rcases grew.members connection inside with old | new
    · exact listed.connected connection old
    · exact Int.le_of_eq new.2.1

theorem Listed.wait (listed : Listed registry now) (forward : now ≤ later) :
    Listed registry later :=
  ⟨listed.numbered, listed.apart, fun connection inside =>
    (listed.connected connection inside).trans forward⟩

theorem Listed.apart_recorded (listed : Listed registry now) :
    ∀ left ∈ registry.reported, ∀ right ∈ registry.reported, left.id = right.id → left = right := by
  intro left leftIn right rightIn same
  obtain ⟨first, firstIn, rfl⟩ := List.mem_map.mp leftIn
  obtain ⟨second, secondIn, rfl⟩ := List.mem_map.mp rightIn
  rw [listed.apart first firstIn second secondIn same]

theorem Listed.connected_recorded (listed : Listed registry now) :
    ∀ connection ∈ registry.reported, connection.connectedAt ≤ now := by
  intro connection inside
  obtain ⟨held, member, rfl⟩ := List.mem_map.mp inside
  exact listed.connected held member

variable {seen : List Report}

theorem Reported.grow (reported : Reported registry now seen) (listed : Listed registry now)
    (grew : Grew now registry next) : Reported next now seen := by
  have nextListed := grew.listed listed
  constructor
  · apply reported.well.renew le_rfl
    · intro connection inside
      obtain ⟨held, member, rfl⟩ := List.mem_map.mp inside
      rcases grew.members held member with old | new
      · exact .inl (List.mem_map_of_mem old)
      · obtain ⟨named, connectedAt, -⟩ := new
        refine .inr ⟨Int.le_of_eq connectedAt, ?_⟩
        intro earlier there clash
        have known : ∃ number < registry.nextId, held.id = connectionId number := by
          rcases List.mem_append.mp there with before | last
          · exact reported.numbered earlier before _ clash
          · rw [List.mem_singleton.mp last] at clash
            obtain ⟨_, member, same⟩ := List.mem_map.mp clash
            obtain ⟨other, inside, rfl⟩ := List.mem_map.mp member
            obtain ⟨number, small, other⟩ := listed.numbered other inside
            exact ⟨number, small, same.symm.trans other⟩
        obtain ⟨number, small, same⟩ := known
        have := connectionId_inj (same.symm.trans named)
        omega
    · intro left leftIn right rightIn same
      rw [nextListed.apart_recorded left leftIn right rightIn same]
  · intro report there id inside
    obtain ⟨number, small, named⟩ := reported.numbered report there id inside
    exact ⟨number, Nat.lt_of_lt_of_le small grew.counted, named⟩

theorem Reported.wait (reported : Reported registry now seen) (listed : Listed registry now)
    (forward : now ≤ later) : Reported registry later seen := by
  refine ⟨?_, reported.numbered⟩
  apply reported.well.renew forward
  · exact fun connection inside => .inl inside
  · intro left leftIn right rightIn same
    rw [listed.apart_recorded left leftIn right rightIn same]

theorem Reported.told (reported : Reported registry now seen) (listed : Listed registry now) :
    Reported registry now (seen ++ [⟨now, registry.reported⟩]) := by
  refine ⟨reported.well.again, ?_⟩
  intro report there id inside
  rcases List.mem_append.mp there with before | last
  · exact reported.numbered report before id inside
  · rw [List.mem_singleton.mp last] at inside
    obtain ⟨_, member, rfl⟩ := List.mem_map.mp inside
    obtain ⟨connection, held, rfl⟩ := List.mem_map.mp member
    exact listed.numbered connection held

/-! ## What the recorder does by itself -/

section

open Sessions

variable {recorder after : Recorder} {closing : Closing} {id : JsString}

theorem startSigning_now (tracked : Tracked) (closedAt : Int) :
    (startSigning platform recorder tracked closedAt).now = recorder.now := by
  rw [startSigning]
  split <;> rfl

theorem close_now (graceMs : Nat) : (close platform recorder graceMs).now = recorder.now := by
  simp only [Sessions.close]
  split
  · rfl
  · split
    · exact startSigning_now _ _
    · rfl

theorem claimVerified_now (claim : Provenance.RecordingClaim) (claimAddress : JsString) :
    (claimVerified recorder claim claimAddress).now = recorder.now := by
  simp only [claimVerified]
  split <;> rfl

theorem resumeListing_now (recordHash : JsString) (claims : List JsString)
    (remaining : Option (List (Option JsString))) :
    (resumeListing recorder id closing recordHash claims remaining).now = recorder.now := by
  have listed (url : JsString) (statements : List JsString) :
      (listOn recorder url recordHash claims statements).now = recorder.now := by
    rw [listOn]
    split <;> rfl
  rcases remaining with - | (- | (- | url))
  · simp only [resumeListing]
    split <;> rfl
  · rfl
  · rfl
  · simp only [resumeListing]
    split
    · exact listed _ _
    · rfl

theorem resume_now (resumed : resume platform recorder id closing = some after) :
    after.now = recorder.now := by
  simp only [Sessions.resume] at resumed
  split at resumed
  · split at resumed
    · cases resumed
      exact startSigning_now _ _
    · cases resumed
  · cases resumed
    rfl
  · cases resumed
    rfl
  · cases resumed
    exact resumeListing_now _ _ _

theorem fail_now (failed : fail recorder id closing = some after) : after.now = recorder.now := by
  simp only [Sessions.fail] at failed
  split at failed <;> cases failed <;> rfl

/-- It takes no time and opens no session. -/
theorem own_step {action : Sessions.Action} (owned : isOwnAction action = true)
    (stepped : step platform recorder action = some after) :
    after.now = recorder.now ∧ (after.opened.isSome = true → recorder.opened.isSome = true) := by
  cases action with
  | tick | openSession | connectionsChanged => cases owned
  | setRunning | editDocuments =>
      cases stepped
      exact ⟨rfl, id⟩
  | claimVerified claim claimAddress =>
      simp only [step] at stepped
      split at stepped
      · cases stepped
        refine ⟨claimVerified_now claim claimAddress, ?_⟩
        intro isOpen
        have named := congrArg Option.isSome (@claimVerified_name recorder claim claimAddress)
        simpa only [Option.isSome_map, isOpen] using named.symm
      · cases stepped
  | close graceMs =>
      cases stepped
      refine ⟨close_now graceMs, ?_⟩
      intro isOpen
      rw [close_opened] at isOpen
      cases isOpen
  | flush =>
      cases stepped
      refine ⟨close_now 0, ?_⟩
      intro isOpen
      have closed : (close platform recorder 0).opened = none := close_opened 0
      simp only [flush, closed] at isOpen
      cases isOpen
  | resume sessionId =>
      obtain ⟨closing, -, resumed⟩ := Option.bind_eq_some_iff.mp stepped
      refine ⟨resume_now resumed, ?_⟩
      rw [resume_opened resumed]
      exact id
  | fail sessionId =>
      obtain ⟨closing, -, failed⟩ := Option.bind_eq_some_iff.mp stepped
      refine ⟨fail_now failed, ?_⟩
      rw [fail_opened failed]
      exact id

theorem mem_livesAfter {action : Sessions.Action} {life : Life}
    (inside : life ∈ livesAfter watched action) :
    life ∈ watched.lives ∨ watched.recorder.opened.isSome = true ∧ life.reports = watched.seen := by
  unfold livesAfter at inside
  split at inside
  · split at inside
    · exact .inl inside
    · rename_i tracked isOpen
      rcases List.mem_cons.mp inside with rfl | old
      · exact .inr ⟨by rw [isOpen]; rfl, rfl⟩
      · exact .inl old
  · split at inside
    · exact .inl inside
    · rename_i tracked isOpen
      rcases List.mem_cons.mp inside with rfl | old
      · exact .inr ⟨by rw [isOpen]; rfl, rfl⟩
      · exact .inl old
  · exact .inl inside

end

/-! ## One step -/

namespace HostSound

theorem quiet (sound : HostSound platform ⟨registry, watched⟩)
    (grew : Grew watched.recorder.now registry next) : HostSound platform ⟨next, watched⟩ :=
  ⟨sound.watching, grew.listed sound.listed,
    fun isOpen => (sound.opened isOpen).grow sound.listed grew, sound.lives⟩

theorem told (sound : HostSound platform ⟨registry, watched⟩) :
    HostSound platform ⟨registry, tell watched (.change registry.list)⟩ := by
  constructor
  · exact sound.watching.connectionsChanged
  · exact sound.listed
  · intro isOpen
    have before : watched.recorder.opened.isSome = true := by
      simpa only [tell, Sessions.connectionsChanged, Option.isSome_map] using isOpen
    exact (sound.opened before).told sound.listed
  · exact sound.lives

theorem remove (sound : HostSound platform ⟨registry, watched⟩) :
    HostSound platform
      ⟨(registry.remove socket).1, (registry.remove socket).2.foldl tell watched⟩ := by
  have dropped := sound.quiet (grew_remove socket)
  unfold Registry.remove at dropped ⊢
  split
  · rename_i found
    rw [if_pos found] at dropped
    exact dropped.told
  · exact sound

theorem visit (socket : Socket) (sound : HostSound platform ⟨registry, watched⟩) :
    HostSound platform ⟨(registry.visit socket).1, (registry.visit socket).2.foldl tell watched⟩ := by
  unfold Registry.visit
  split
  · exact sound
  · split
    · exact sound.quiet (grew_setAlive false)
    · exact sound.remove

theorem visitAll {sockets : List Socket} (sound : HostSound platform ⟨registry, watched⟩) :
    HostSound platform
      ⟨(registry.visitAll sockets).1, (registry.visitAll sockets).2.foldl tell watched⟩ := by
  induction sockets generalizing registry watched with
  | nil => exact sound
  | cons first rest induction =>
      have final := induction (sound.visit first)
      simpa only [Registry.visitAll, List.foldl_append] using final

theorem act {action : Action} {result : Registry × List Effect}
    (sound : HostSound platform ⟨registry, watched⟩)
    (taken : act watched.recorder.now registry action = some result) :
    HostSound platform ⟨result.1, result.2.foldl tell watched⟩ := by
  cases action with
  | create =>
      simp only [Connections.act] at taken
      split at taken <;> cases taken
      refine sound.quiet (grew_of_subset ?_ (Nat.le_refl _))
      intro connection inside
      cases inside
  | add socket details =>
      cases taken
      exact (sound.quiet (grew_add details)).told
  | event socket event =>
      cases event <;> cases taken
      · exact sound.quiet (grew_setAlive true)
      · exact sound.remove
      · exact sound.remove
  | heartbeat =>
      simp only [Connections.act] at taken
      split at taken <;> cases taken
      exact sound.visitAll
  | close =>
      cases taken
      have emptied : Grew watched.recorder.now registry registry.close.1 := by
        refine grew_of_subset ?_ (Nat.le_refl _)
        intro connection inside
        cases inside
      exact (sound.quiet emptied).told

theorem own {action : Sessions.Action} {recorder : Sessions.Recorder} (sound : HostSound platform host)
    (owned : isOwnAction action = true)
    (stepped : Sessions.step platform host.watched.recorder action = some recorder) :
    HostSound platform { host with watched :=
      ⟨recorder, seenAfter host.watched action, livesAfter host.watched action⟩ } := by
  have taken : watchedStep platform host.watched action =
      some ⟨recorder, seenAfter host.watched action, livesAfter host.watched action⟩ := by
    rw [watchedStep, stepped]
    rfl
  obtain ⟨still, opens⟩ := own_step owned stepped
  have seen : seenAfter host.watched action = host.watched.seen := by
    cases action <;> first | rfl | cases owned
  constructor
  · exact sound.watching.step taken
  · exact sound.listed.wait (Int.le_of_eq still.symm)
  · intro isOpen
    have before := sound.opened (opens isOpen)
    rw [seen]
    exact before.wait sound.listed (Int.le_of_eq still.symm)
  · intro life inside
    rcases mem_livesAfter inside with old | ended
    · exact sound.lives life old
    · obtain ⟨isOpen, reports⟩ := ended
      rw [reports]
      exact (sound.opened isOpen).well.sublist (List.sublist_append_left _ _)

theorem tick (sound : HostSound platform host) (elapsed : Nat) :
    HostSound platform { host with watched := { host.watched with recorder :=
      { host.watched.recorder with now := host.watched.recorder.now + elapsed } } } := by
  have forward : host.now ≤ host.watched.recorder.now + elapsed := by
    rw [SyncHost.now]
    omega
  constructor
  · have taken : watchedStep platform host.watched (.tick elapsed) = some _ := rfl
    exact sound.watching.step taken
  · exact sound.listed.wait forward
  · intro isOpen
    exact (sound.opened isOpen).wait sound.listed forward
  · exact sound.lives

/-- A session is opened with the list, or with none while no server is current. -/
theorem reported_opening (sound : HostSound platform host) :
    Reported host.registry host.now
      [⟨host.now, (getSyncConnections host).map SyncConnection.recorded⟩] := by
  have listed := sound.listed
  unfold getSyncConnections
  split
  · constructor
    · have single := Sessions.wellReported_single listed.connected_recorded listed.apart_recorded
      exact @WellReported.again [] _ single
    · intro report there id inside
      rw [List.mem_singleton.mp there] at inside
      obtain ⟨_, member, rfl⟩ := List.mem_map.mp inside
      obtain ⟨connection, held, rfl⟩ := List.mem_map.mp member
      exact listed.numbered connection held
  · have unseen : ∀ connection : Sessions.SyncConnection,
        ∀ earlier ∈ [(⟨host.now, []⟩ : Report)] ++ [⟨host.now, []⟩], connection.id ∉ earlier.ids := by
      intro connection earlier there named
      have nobody : earlier = ⟨host.now, []⟩ := by simpa using there
      rw [nobody] at named
      cases named
    constructor
    · have nobody : WellReported [(⟨host.now, []⟩ : Report)] :=
        Sessions.wellReported_single (by simp) (by simp)
      have twice : WellReported ([(⟨host.now, []⟩ : Report)] ++ [⟨host.now, []⟩]) :=
        @WellReported.again [] _ nobody
      apply twice.renew le_rfl
      · intro connection inside
        exact .inr ⟨listed.connected_recorded connection inside, unseen connection⟩
      · intro left leftIn right rightIn same
        rw [listed.apart_recorded left leftIn right rightIn same]
    · intro report there id inside
      rw [List.mem_singleton.mp there] at inside
      cases inside

theorem openSession (sound : HostSound platform host) (sessionId docUrl : JsString) :
    HostSound platform { host with watched :=
      let connections := (getSyncConnections host).map SyncConnection.recorded
      ⟨Sessions.openSession host.watched.recorder sessionId docUrl connections,
        seenAfter host.watched (.openSession sessionId docUrl connections), host.watched.lives⟩ } := by
  have still : (Sessions.openSession host.watched.recorder sessionId docUrl
      ((getSyncConnections host).map SyncConnection.recorded)).now = host.now := by
    rw [Sessions.openSession]
    split <;> rfl
  constructor
  · exact sound.watching.openSession
  · exact sound.listed.wait (Int.le_of_eq still.symm)
  · intro isOpen
    dsimp only at isOpen ⊢
    rw [SyncHost.now]
    dsimp only
    rw [still]
    simp only [seenAfter]
    split
    · rename_i refused
      rw [Sessions.openSession, if_pos refused] at isOpen
      exact sound.opened isOpen
    · exact sound.reported_opening
  · exact sound.lives

theorem step {next : SyncHost} {action : HostAction} (sound : HostSound platform host)
    (taken : hostStep platform host action = some next) : HostSound platform next := by
  cases action with
  | tick elapsed =>
      cases taken
      exact sound.tick elapsed
  | registry action =>
      obtain ⟨result, acted, rfl⟩ := Option.map_eq_some_iff.mp taken
      exact HostSound.act sound acted
  | openSession sessionId docUrl =>
      cases taken
      exact sound.openSession sessionId docUrl
  | recorder action =>
      simp only [hostStep] at taken
      split at taken
      · rename_i owned
        obtain ⟨watched, stepped, rfl⟩ := Option.map_eq_some_iff.mp taken
        obtain ⟨recorder, recorded, rfl⟩ := Option.map_eq_some_iff.mp stepped
        exact sound.own owned recorded
      · cases taken

end HostSound

/-! ## Runs -/

theorem hostSound_idle (now : Int) (documents : Documents) (nextId : Nat) :
    HostSound platform (.idle now documents nextId) := by
  constructor
  · exact Sessions.watching_idle now documents
  · constructor
    · intro connection absent
      cases absent
    · intro first absent
      cases absent
    · intro connection absent
      cases absent
  · intro isOpen
    cases isOpen
  · intro life absent
    cases absent

/-- In every run of the host a record that is signed or stored is the presence of the devices in a
session that has ended, whatever its sockets do. -/
theorem host_records_the_presence (platform : RecorderPlatform) (now : Int) (documents : Documents)
    (nextId : Nat) (host : SyncHost)
    (reached : Reaches (hostStep platform) anyAction (.idle now documents nextId) host) :
    (∀ id closing record, host.watched.recorder.closing id = some closing →
      closing.phase.record? = some record →
        ∃ life, lifeOf host.watched.lives id = some life ∧ IsPresence platform life record) ∧
    ∀ recordHash record, .stored recordHash record ∈ host.watched.recorder.history →
      ∃ life ∈ host.watched.lives, IsPresence platform life record := by
  have sound : HostSound platform host :=
    reached.invariant (HostSound platform) (hostSound_idle now documents nextId)
      fun _ sound _ taken => sound.step taken
  constructor
  · intro id closing record found signs
    obtain ⟨life, held, keeps⟩ := sound.watching.closing id closing found
    have ended : life ∈ host.watched.lives := List.mem_of_find?_eq_some held
    exact ⟨life, held, keeps.signs record signs (sound.lives life ended)⟩
  · intro recordHash record stored
    obtain ⟨life, inside, presence⟩ := sound.watching.stored recordHash record stored
    exact ⟨life, inside, presence (sound.lives life inside)⟩

def phoneDetails : SyncConnectionDetails := ⟨some (js "Phone"), none, false, some (js "phone")⟩

/-- A phone joins, and is listed until it has not answered a ping. -/
def phoneLeaves : List HostAction :=
  [.registry .create, .openSession (js "one") (js "root"), .tick 5, .registry (.add 1 phoneDetails),
    .tick 5, .registry .heartbeat, .tick 5, .registry .heartbeat, .tick 5, .recorder (.close 0)]

theorem phone_was_there : ∃ (host : SyncHost) (closing : Sessions.Closing)
    (record : Provenance.SessionRecord),
    host.watched.recorder.closing (js "one") = some closing ∧ closing.phase.record? = some record ∧
      record.devices = [⟨js "phone", some (js "Phone"), [⟨[5], [15]⟩]⟩] ∧
      ∃ life, lifeOf host.watched.lives (js "one") = some life ∧
        IsPresence Sessions.presencePlatform life record := by
  have signs : (run (hostStep Sessions.presencePlatform) (.idle 0 Sessions.sampleDocuments 1)
      phoneLeaves).bind (fun host => (host.watched.recorder.closing (js "one")).bind fun closing =>
        closing.phase.record?.map Provenance.SessionRecord.devices) =
          some [⟨js "phone", some (js "Phone"), [⟨[5], [15]⟩]⟩] := by
    decide +kernel
  obtain ⟨host, ran, signs⟩ := Option.bind_eq_some_iff.mp signs
  obtain ⟨closing, found, signs⟩ := Option.bind_eq_some_iff.mp signs
  obtain ⟨record, made, devices⟩ := Option.map_eq_some_iff.mp signs
  refine ⟨host, closing, record, found, made, devices, ?_⟩
  have presence := host_records_the_presence Sessions.presencePlatform 0 Sessions.sampleDocuments 1
    host (.of_run ran (meetsAlong_anyAction _ _))
  exact presence.1 (js "one") closing record found made

end Tapes.Connections
