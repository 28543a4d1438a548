import Tapes.Connections.Upgrade

namespace Tapes.Connections

open Tapes.Js Tapes.Machine
open Tapes.Provenance (Signed)
open Tapes.Server (Url isAuthorized)
open Tapes.Vouching (isRevokedDeviceKey)

/-! Every socket on the connection list has passed the checks of its upgrade, whatever else the host
is asked meanwhile. -/

variable {gateway : Gateway} {gate next : Gate} {socket other : Socket} {request : UpgradeRequest}
  {url : Url} {key : JsString} {registry later : Registry}

/-! ## What a listed socket has shown -/

/-- Whoever opened the socket has signed a challenge of this host with the key. For the host's own
window it is the key of the host. -/
def Holds (gateway : Gateway) (challenges : Challenges.Host) (socket : Socket)
    (request : UpgradeRequest) (url : Url) (key : JsString) : Prop :=
  if isSelf request url then gateway.hostKey = some key
  else ∃ signed challenge, syncProof url = some signed ∧
    Challenges.checkSyncProof gateway.platform signed challenge = some key ∧
    .succeeded socket challenge ∈ challenges.log

/-- The roster was asked about the key, and if it could be read it knew of no revocation. -/
def Asked (checks : List RosterCheck) (socket : Socket) (key : JsString) : Prop :=
  ∃ people, ⟨socket, key, people⟩ ∈ checks ∧ people.all fun people => !isRevokedDeviceKey people key

structure Admitted (gateway : Gateway) (gate : Gate) (socket : Socket) (request : UpgradeRequest)
    (url : Url) (deviceKey : Option JsString) : Prop where
  came : gate.came socket = some request
  parsed : gateway.parseUrl request.target = some url
  paired : isAuthorized request.toRequest url gateway.pairingToken = true
  holds : ∀ key, deviceKey = some key → Holds gateway gate.challenges socket request url key
  asked : ∀ key, deviceKey = some key → key ≠ [] → Asked gate.checks socket key

/-- The connection is described by the upgrade that it came from. -/
def Described (gateway : Gateway) (gate : Gate) (socket : Socket) (connection : SyncConnection) : Prop :=
  ∃ request url, Admitted gateway gate socket request url connection.deviceKey ∧
    connection.toSyncConnectionDetails = connectionDetails request url connection.deviceKey

/-- What an upgrade has shown by the time it awaits this. -/
def Awaiting.Shown (gateway : Gateway) (gate : Gate) (socket : Socket) (request : UpgradeRequest)
    (url : Url) : Awaiting → Prop
  | .hostKey => isSelf request url = true
  | .proof => isSelf request url = false ∧ ∃ signed challenge, syncProof url = some signed ∧
      gate.challenges.calls socket = some (.checkingProof signed challenge)
  | .roster key => Holds gateway gate.challenges socket request url key
  | .handshake deviceKey => ∀ key, deviceKey = some key →
      Holds gateway gate.challenges socket request url key ∧
        (key ≠ [] → Asked gate.checks socket key)

structure OnItsWay (gateway : Gateway) (gate : Gate) (socket : Socket) (upgrade : Upgrade) : Prop where
  came : gate.came socket = some upgrade.request
  parsed : gateway.parseUrl upgrade.request.target = some upgrade.url
  paired : isAuthorized upgrade.request.toRequest upgrade.url gateway.pairingToken = true
  shown : upgrade.awaiting.Shown gateway gate socket upgrade.request upgrade.url

structure GateSound (gateway : Gateway) (gate : Gate) : Prop where
  challenges : Challenges.Sound gateway.limits gate.challenges
  upgrades : ∀ socket upgrade, gate.upgrades socket = some upgrade →
    OnItsWay gateway gate socket upgrade
  listed : ∀ socket entry, gate.registry.entries.get? socket = some entry →
    Described gateway gate socket entry.connection

/-! ## The challenges beside the gate -/

section Challenges

variable {platform : Provenance.Platform} {limits : Challenges.Limits} {host after : Challenges.Host}
  {action : Challenges.Action} {call : Challenges.CallId}

theorem use_calls (different : other ≠ call) {challenge : JsString} {phase : Challenges.Phase} :
    (host.use limits call challenge phase).calls other = host.calls other := by
  simp only [Challenges.Host.use]
  split
  · exact Table.put_other different
  · exact Table.remove_other different

theorem use_log {challenge : JsString} {phase : Challenges.Phase} :
    host.log ⊆ (host.use limits call challenge phase).log := List.subset_cons_self _ _

/-- An action leaves other calls alone, and forgets nothing. -/
theorem challengesStep_frame (taken : Challenges.step platform limits host action = some after) :
    (∀ other, routeCall? action ≠ some other → after.calls other = host.calls other) ∧
      host.log ⊆ after.log := by
  have stop (call : Challenges.CallId) : (∀ other, some call ≠ some other →
      (host.stop call).calls other = host.calls other) := by
    intro other different
    exact Table.remove_other fun same => different (congrArg some same.symm)
  have use (call : Challenges.CallId) (challenge : JsString) (phase : Challenges.Phase) (other)
      (different : some call ≠ some other) :
      (host.use limits call challenge phase).calls other = host.calls other :=
    use_calls fun same => different (congrArg some same.symm)
  have park (call : Challenges.CallId) (phase : Challenges.Phase) (other)
      (different : some call ≠ some other) : host.calls.put call phase other = host.calls other :=
    Table.put_other fun same => different (congrArg some same.symm)
  cases action with
  | tick elapsed =>
      cases taken
      exact ⟨fun _ _ => rfl, fun _ inside => inside⟩
  | issue challenge =>
      cases taken
      exact ⟨fun _ _ => rfl, List.subset_cons_self _ _⟩
  | upgrade call signed =>
      simp only [Challenges.step] at taken
      split at taken
      · cases taken
      · split at taken
        · cases taken
          exact ⟨fun _ _ => rfl, fun _ inside => inside⟩
        · split at taken
          · cases taken
            exact ⟨fun _ _ => rfl, fun _ inside => inside⟩
          · cases taken
            exact ⟨use call _ _, use_log⟩
  | join call signed =>
      simp only [Challenges.step] at taken
      split at taken
      · cases taken
      · cases taken
        exact ⟨park call _, fun _ inside => inside⟩
  | put call signed record =>
      simp only [Challenges.step] at taken
      split at taken
      · cases taken
      · split at taken
        · cases taken
          exact ⟨fun _ _ => rfl, fun _ inside => inside⟩
        · cases taken
          exact ⟨park call _, fun _ inside => inside⟩
  | resume call =>
      obtain ⟨phase, running, resumed⟩ := Option.bind_eq_some_iff.mp taken
      cases phase with
      | checkingProof signed challenge =>
          simp only [Challenges.resume] at resumed
          split at resumed <;> cases resumed
          · exact ⟨stop call, List.subset_cons_self _ _⟩
          · exact ⟨stop call, fun _ inside => inside⟩
      | checkingJoin signed =>
          simp only [Challenges.resume] at resumed
          split at resumed <;> cases resumed
          · exact ⟨stop call, fun _ inside => inside⟩
          · exact ⟨use call _ _, use_log⟩
      | checkingWrite signed record =>
          simp only [Challenges.resume] at resumed
          split at resumed
          · cases resumed
            exact ⟨stop call, fun _ inside => inside⟩
          · split at resumed <;> cases resumed
            · exact ⟨use call _ _, use_log⟩
            · exact ⟨stop call, fun _ inside => inside⟩
      | joining challenge => cases resumed
      | storing challenge => cases resumed
  | finish call succeeded =>
      simp only [Challenges.step] at taken
      split at taken
      · cases succeeded <;> cases taken
        · exact ⟨stop call, fun _ inside => inside⟩
        · exact ⟨stop call, List.subset_cons_self _ _⟩
      · cases succeeded <;> cases taken
        · exact ⟨stop call, fun _ inside => inside⟩
        · exact ⟨stop call, List.subset_cons_self _ _⟩
      · cases taken
  | throw call =>
      obtain ⟨phase, running, rfl⟩ := Option.map_eq_some_iff.mp taken
      exact ⟨stop call, fun _ inside => inside⟩

end Challenges

/-! ## What is kept -/

structure Keeps (gate next : Gate) : Prop where
  came : ∀ socket request, gate.came socket = some request → next.came socket = some request
  log : gate.challenges.log ⊆ next.challenges.log
  checks : gate.checks ⊆ next.checks

theorem Holds.keep {before after : Challenges.Host}
    (holds : Holds gateway before socket request url key) (grows : before.log ⊆ after.log) :
    Holds gateway after socket request url key := by
  unfold Holds at holds ⊢
  split
  · rename_i self
    rwa [if_pos self] at holds
  · rename_i guest
    rw [if_neg guest] at holds
    obtain ⟨signed, challenge, proof, checked, succeeded⟩ := holds
    exact ⟨signed, challenge, proof, checked, grows succeeded⟩

theorem Asked.keep {before after : List RosterCheck} (asked : Asked before socket key)
    (grows : before ⊆ after) : Asked after socket key := by
  obtain ⟨people, inside, fine⟩ := asked
  exact ⟨people, grows inside, fine⟩

theorem Described.keep {connection : SyncConnection}
    (described : Described gateway gate socket connection) (keeps : Keeps gate next) :
    Described gateway next socket connection := by
  obtain ⟨request, url, admitted, details⟩ := described
  refine ⟨request, url, ?_, details⟩
  constructor
  · exact keeps.came socket request admitted.came
  · exact admitted.parsed
  · exact admitted.paired
  · intro key is
    exact (admitted.holds key is).keep keeps.log
  · intro key is named
    exact (admitted.asked key is named).keep keeps.checks

theorem OnItsWay.keep {upgrade : Upgrade} (way : OnItsWay gateway gate socket upgrade)
    (keeps : Keeps gate next) (calls : next.challenges.calls socket = gate.challenges.calls socket) :
    OnItsWay gateway next socket upgrade := by
  refine ⟨keeps.came socket upgrade.request way.came, way.parsed, way.paired, ?_⟩
  have shown := way.shown
  cases upgrade with
  | mk request url awaiting =>
      cases awaiting with
      | hostKey => exact shown
      | proof =>
          obtain ⟨guest, signed, challenge, proof, running⟩ := shown
          exact ⟨guest, signed, challenge, proof, calls.trans running⟩
      | roster key => exact Holds.keep shown keeps.log
      | handshake deviceKey =>
          intro key is
          obtain ⟨holds, asked⟩ := shown key is
          exact ⟨holds.keep keeps.log, fun named => (asked named).keep keeps.checks⟩

/-- No socket is new on the list, and none is described anew. -/
def Narrowed (registry later : Registry) : Prop :=
  ∀ socket entry, later.entries.get? socket = some entry →
    ∃ before, registry.entries.get? socket = some before ∧ before.connection = entry.connection

theorem Narrowed.trans {last : Registry} (first : Narrowed registry later)
    (second : Narrowed later last) : Narrowed registry last := by
  intro socket entry there
  obtain ⟨middle, held, same⟩ := second socket entry there
  obtain ⟨before, was, also⟩ := first socket middle held
  exact ⟨before, was, also.trans same⟩

theorem narrowed_refl (registry : Registry) : Narrowed registry registry :=
  fun _ entry there => ⟨entry, there, rfl⟩

theorem narrowed_setAlive (alive : Bool) : Narrowed registry (registry.setAlive socket alive) := by
  unfold Registry.setAlive
  split
  · rename_i entry found
    intro other held there
    by_cases same : other = socket
    · subst same
      rw [OrderedMap.get?_set_self] at there
      cases there
      exact ⟨entry, found, rfl⟩
    · rw [OrderedMap.get?_set_other same] at there
      exact ⟨held, there, rfl⟩
  · exact narrowed_refl registry

theorem narrowed_remove (socket : Socket) : Narrowed registry (registry.remove socket).1 := by
  unfold Registry.remove
  split
  · intro other held there
    by_cases same : other = socket
    · subst same
      rw [OrderedMap.get?_delete_self] at there
      cases there
    · rw [OrderedMap.get?_delete_other same] at there
      exact ⟨held, there, rfl⟩
  · exact narrowed_refl registry

theorem narrowed_visit (socket : Socket) : Narrowed registry (registry.visit socket).1 := by
  unfold Registry.visit
  split
  · exact narrowed_refl registry
  · split
    · exact narrowed_setAlive false
    · exact narrowed_remove socket

theorem narrowed_visitAll (sockets : List Socket) : Narrowed registry (registry.visitAll sockets).1 := by
  induction sockets generalizing registry with
  | nil => exact narrowed_refl registry
  | cons first rest induction => exact (narrowed_visit first).trans induction

/-! ## Parts of a step -/

/-- The challenges have moved on for one socket, and its upgrade with them. -/
theorem GateSound.settle {challenges : Challenges.Host} {upgrade : Upgrade}
    (sound : GateSound gateway gate) (still : Challenges.Sound gateway.limits challenges)
    (calls : ∀ other, other ≠ socket → challenges.calls other = gate.challenges.calls other)
    (grows : gate.challenges.log ⊆ challenges.log)
    (way : OnItsWay gateway { gate with challenges } socket upgrade) :
    GateSound gateway
      { gate with challenges, upgrades := gate.upgrades.put socket upgrade } := by
  have keeps : Keeps gate { gate with challenges } :=
    ⟨fun _ _ came => came, grows, fun _ inside => inside⟩
  constructor
  · exact still
  · intro other held there
    by_cases same : other = socket
    · subst same
      have this_upgrade : some upgrade = some held := Table.put_self.symm.trans there
      cases this_upgrade
      exact ⟨way.came, way.parsed, way.paired, way.shown⟩
    · have before : gate.upgrades other = some held := (Table.put_other same).symm.trans there
      have kept := (sound.upgrades other held before).keep keeps (calls other same)
      exact ⟨kept.came, kept.parsed, kept.paired, kept.shown⟩
  · intro other entry there
    have described := sound.listed other entry there
    exact described.keep ⟨keeps.came, keeps.log, keeps.checks⟩

theorem GateSound.drop (sound : GateSound gateway gate) (socket : Socket) :
    GateSound gateway (gate.drop socket) := by
  have keeps : Keeps gate (gate.drop socket) :=
    ⟨fun _ _ came => came, fun _ inside => inside, fun _ inside => inside⟩
  constructor
  · exact sound.challenges
  · intro other upgrade there
    by_cases same : other = socket
    · subst same
      simp [Gate.drop] at there
    · simp only [Gate.drop, Table.remove_other same] at there
      exact (sound.upgrades other upgrade there).keep keeps rfl
  · intro other entry there
    exact (sound.listed other entry there).keep keeps

theorem GateSound.came (sound : GateSound gateway gate) (new : gate.came socket = none)
    (request : UpgradeRequest) :
    GateSound gateway { gate with came := gate.came.put socket request } := by
  have keeps : Keeps gate { gate with came := gate.came.put socket request } := by
    refine ⟨?_, fun _ inside => inside, fun _ inside => inside⟩
    intro other before came
    have different : other ≠ socket := by
      rintro rfl
      rw [new] at came
      cases came
    exact (Table.put_other different).trans came
  constructor
  · exact sound.challenges
  · intro other upgrade there
    exact (sound.upgrades other upgrade there).keep keeps rfl
  · intro other entry there
    exact (sound.listed other entry there).keep keeps

theorem GateSound.check (sound : GateSound gateway gate) (check : RosterCheck) :
    GateSound gateway { gate with checks := check :: gate.checks } := by
  have keeps : Keeps gate { gate with checks := check :: gate.checks } :=
    ⟨fun _ _ came => came, fun _ inside => inside, List.subset_cons_self _ _⟩
  constructor
  · exact sound.challenges
  · intro other upgrade there
    exact (sound.upgrades other upgrade there).keep keeps rfl
  · intro other entry there
    exact (sound.listed other entry there).keep keeps

theorem GateSound.narrow (sound : GateSound gateway gate) (narrowed : Narrowed gate.registry later) :
    GateSound gateway { gate with registry := later } := by
  have keeps : Keeps gate { gate with registry := later } :=
    ⟨fun _ _ came => came, fun _ inside => inside, fun _ inside => inside⟩
  constructor
  · exact sound.challenges
  · intro other upgrade there
    exact (sound.upgrades other upgrade there).keep keeps rfl
  · intro other entry there
    obtain ⟨before, was, same⟩ := narrowed other entry there
    have described := sound.listed other before was
    rw [same] at described
    exact described.keep keeps

theorem shown_afterKey {deviceKey : Option JsString}
    (holds : ∀ key, deviceKey = some key → Holds gateway gate.challenges socket request url key) :
    (afterKey deviceKey).Shown gateway gate socket request url := by
  unfold afterKey
  split
  · intro key nothing
    cases nothing
  · intro key empty
    cases empty
    exact ⟨holds [] rfl, fun named => absurd rfl named⟩
  · exact holds _ rfl

/-! ## Steps -/

/-- An upgrade that goes on in the store has used the challenge of its proof. -/
theorem calls_upgrade {platform : Provenance.Platform} {limits : Challenges.Limits}
    {host after : Challenges.Host} {proof : Option (Signed JsValue)}
    (taken : Challenges.step platform limits host (.upgrade socket proof) = some after)
    (goes : (after.calls socket).isSome = true) : ∃ signed challenge, proof = some signed ∧
      after.calls socket = some (.checkingProof signed challenge) := by
  simp only [Challenges.step] at taken
  split at taken
  · cases taken
  · rename_i free
    split at taken
    · cases taken
      exact absurd goes free
    · rename_i signed
      split at taken
      · cases taken
        exact absurd goes free
      · rename_i challenge named
        cases taken
        simp only [Challenges.Host.use] at goes ⊢
        split at goes
        · rename_i authorized
          exact ⟨signed, challenge, rfl, by rw [if_pos authorized, Table.put_self]⟩
        · rw [Table.remove_self] at goes
          cases goes

theorem GateSound.upgrade (room : 1 ≤ gateway.limits.maxChallenges)
    (sound : GateSound gateway gate) (new : gate.came socket = none)
    (taken : upgrade gateway gate socket request = some next) : GateSound gateway next := by
  have came := sound.came new request
  have there : gate.came.put socket request socket = some request := Table.put_self
  simp only [Connections.upgrade] at taken
  split at taken
  · cases taken
    exact came
  · rename_i url parsed
    split at taken
    · cases taken
      exact came
    · rename_i paired
      rw [Bool.not_eq_false] at paired
      split at taken
      · rename_i self
        cases taken
        exact came.settle came.challenges (fun _ _ => rfl) (fun _ inside => inside)
          ⟨there, parsed, paired, self⟩
      · rename_i guest
        rw [Bool.not_eq_true] at guest
        obtain ⟨challenges, stepped, rfl⟩ := Option.map_eq_some_iff.mp taken
        obtain ⟨calls, grows⟩ := challengesStep_frame stepped
        have still := Challenges.step_sound room came.challenges (by trivial) stepped
        apply came.settle still (fun other different => calls other fun same =>
          different (Option.some.inj same).symm) grows
        refine ⟨there, parsed, paired, ?_⟩
        dsimp only
        split
        · rename_i goes
          exact ⟨guest, calls_upgrade stepped goes⟩
        · intro key nothing
          cases nothing

theorem GateSound.proof {challenges : Challenges.Host} {deviceKey : Option JsString} {throws : Bool}
    (room : 1 ≤ gateway.limits.maxChallenges) (sound : GateSound gateway gate)
    (there : gate.upgrades socket = some ⟨request, url, .proof⟩)
    (ended : proved gateway gate socket throws = some (challenges, deviceKey)) :
    GateSound gateway ({ gate with challenges }.await socket ⟨request, url, .proof⟩
      (afterKey deviceKey)) := by
  have way := sound.upgrades socket _ there
  obtain ⟨guest, signed, challenge, proof, running⟩ := way.shown
  have frame {action : Challenges.Action} (own : routeCall? action = some socket)
      (new : Challenges.RandomIsNew gate.challenges action)
      (stepped : Challenges.step gateway.platform gateway.limits gate.challenges action =
        some challenges)
      (holds : ∀ key, deviceKey = some key → Holds gateway challenges socket request url key) :
      GateSound gateway ({ gate with challenges }.await socket ⟨request, url, .proof⟩
        (afterKey deviceKey)) := by
    obtain ⟨calls, grows⟩ := challengesStep_frame stepped
    have still := Challenges.step_sound room sound.challenges new stepped
    apply sound.settle still (fun other different => calls other fun same =>
      different (Option.some.inj (own.symm.trans same)).symm) grows
    exact ⟨way.came, way.parsed, way.paired, shown_afterKey holds⟩
  simp only [proved, running] at ended
  split at ended
  · obtain ⟨after, stepped, same⟩ := Option.map_eq_some_iff.mp ended
    cases same
    apply frame rfl (by trivial) stepped
    intro key nothing
    cases nothing
  · obtain ⟨after, stepped, same⟩ := Option.map_eq_some_iff.mp ended
    cases same
    apply frame rfl (by trivial) stepped
    intro key checked
    have resumed := stepped
    simp only [Challenges.step, running, Option.bind_some, Challenges.resume, checked] at resumed
    cases resumed
    rw [Holds, guest]
    exact ⟨signed, challenge, proof, checked, List.mem_cons_self⟩

theorem GateSound.roster {people : Option (List Roster.RosterEntry)}
    (sound : GateSound gateway gate)
    (there : gate.upgrades socket = some ⟨request, url, .roster key⟩)
    (taken : gateStep gateway gate (.roster socket people) = some next) : GateSound gateway next := by
  have checked := sound.check ⟨socket, key, people⟩
  simp only [gateStep, there] at taken
  split at taken
  · cases taken
    exact checked.drop socket
  · rename_i known
    cases taken
    have way := checked.upgrades socket _ there
    apply checked.settle checked.challenges (fun _ _ => rfl) (fun _ inside => inside)
    refine ⟨way.came, way.parsed, way.paired, ?_⟩
    intro other same
    cases same
    refine ⟨way.shown, fun _ => ⟨people, List.mem_cons_self, ?_⟩⟩
    cases people with
    | none => rfl
    | some people => simpa using known

theorem GateSound.handshake {deviceKey : Option JsString} (sound : GateSound gateway gate)
    (there : gate.upgrades socket = some ⟨request, url, .handshake deviceKey⟩) :
    GateSound gateway { gate.drop socket with
      registry := (gate.registry.add gate.challenges.now socket
        (connectionDetails request url deviceKey)).1 } := by
  have dropped := sound.drop socket
  have way := sound.upgrades socket _ there
  have keeps {registry : Registry} : Keeps (gate.drop socket) { gate.drop socket with registry } :=
    ⟨fun _ _ came => came, fun _ inside => inside, fun _ inside => inside⟩
  constructor
  · exact dropped.challenges
  · intro other upgrade still
    exact (dropped.upgrades other upgrade still).keep keeps rfl
  · intro other entry inside
    by_cases same : other = socket
    · subst same
      simp only [Registry.add, OrderedMap.get?_set_self, Option.some.injEq] at inside
      subst inside
      refine ⟨request, url, ?_, rfl⟩
      constructor
      · exact way.came
      · exact way.parsed
      · exact way.paired
      · intro key is
        exact (way.shown key is).1
      · intro key is
        exact (way.shown key is).2
    · simp only [Registry.add, OrderedMap.get?_set_other same] at inside
      exact (dropped.listed other entry inside).keep keeps

theorem GateSound.step {action : GateAction} (room : 1 ≤ gateway.limits.maxChallenges)
    (sound : GateSound gateway gate) (new : ChallengeIsNew gate action)
    (taken : gateStep gateway gate action = some next) : GateSound gateway next := by
  cases action with
  | challenges action =>
      simp only [gateStep] at taken
      split at taken
      · cases taken
      · rename_i apart
        obtain ⟨challenges, stepped, rfl⟩ := Option.map_eq_some_iff.mp taken
        obtain ⟨calls, grows⟩ := challengesStep_frame stepped
        have keeps : Keeps gate { gate with challenges } :=
          ⟨fun _ _ came => came, grows, fun _ inside => inside⟩
        constructor
        · exact Challenges.step_sound room sound.challenges new stepped
        · intro socket upgrade there
          have way := sound.upgrades socket upgrade there
          apply way.keep keeps
          apply calls
          intro own
          rw [own, Option.any_some, way.came] at apart
          exact apart rfl
        · intro socket entry there
          exact (sound.listed socket entry there).keep keeps
  | upgrade socket request =>
      simp only [gateStep] at taken
      split at taken
      · cases taken
      · rename_i new'
        rw [Option.not_isSome_iff_eq_none] at new'
        exact sound.upgrade room new' taken
  | hostKey socket loaded =>
      simp only [gateStep] at taken
      split at taken
      · rename_i request url there
        cases taken
        have way := sound.upgrades socket _ there
        apply sound.settle sound.challenges (fun _ _ => rfl) (fun _ inside => inside)
        refine ⟨way.came, way.parsed, way.paired, shown_afterKey ?_⟩
        intro key is
        have self : isSelf request url = true := way.shown
        rw [Holds, if_pos self]
        cases loaded with
        | true => exact is
        | false => cases is
      · cases taken
  | proof socket throws =>
      simp only [gateStep] at taken
      split at taken
      · rename_i request url there
        obtain ⟨ended, proves, rfl⟩ := Option.map_eq_some_iff.mp taken
        exact sound.proof room there proves
      · cases taken
  | roster socket people =>
      have steps := taken
      simp only [gateStep] at steps
      split at steps
      · rename_i request url key there
        exact sound.roster there taken
      · cases steps
  | handshake socket opens =>
      simp only [gateStep] at taken
      split at taken
      · rename_i request url deviceKey there
        cases opens with
        | true =>
            cases taken
            exact sound.handshake there
        | false =>
            cases taken
            exact sound.drop socket
      · cases taken
  | event socket event =>
      obtain ⟨result, acted, rfl⟩ := Option.map_eq_some_iff.mp taken
      cases event <;> cases acted
      · exact sound.narrow (narrowed_setAlive true)
      · exact sound.narrow (narrowed_remove socket)
      · exact sound.narrow (narrowed_remove socket)
  | heartbeat =>
      obtain ⟨result, acted, rfl⟩ := Option.map_eq_some_iff.mp taken
      simp only [act] at acted
      split at acted
      · cases acted
        exact sound.narrow (narrowed_visitAll _)
      · cases acted
  | close =>
      cases taken
      apply sound.narrow
      intro socket entry there
      cases there

/-! ## Runs -/

theorem gateSound_opened (now : Int) (nextId : Nat) : GateSound gateway (.opened now nextId) := by
  refine ⟨Challenges.sound_opened now, ?_, ?_⟩
  · intro socket upgrade there
    cases there
  · intro socket entry there
    cases there

/-- One success for each challenge, so one call. -/
theorem call_unique {log : List Challenges.Event} {call : Challenges.CallId} {challenge : JsString}
    (once : (log.filterMap Challenges.Event.succeeded?).Nodup)
    (first : .succeeded call challenge ∈ log) (second : .succeeded other challenge ∈ log) :
    call = other := by
  induction log with
  | nil => cases first
  | cons event log induction =>
      have named {call : Challenges.CallId} (inside : .succeeded call challenge ∈ log) :
          challenge ∈ log.filterMap Challenges.Event.succeeded? :=
        List.mem_filterMap.mpr ⟨_, inside, rfl⟩
      have later : (log.filterMap Challenges.Event.succeeded?).Nodup := by
        rw [List.filterMap_cons] at once
        split at once
        · exact once
        · exact (List.nodup_cons.mp once).2
      rcases List.mem_cons.mp first with rfl | firstLater
      · rcases List.mem_cons.mp second with same | secondLater
        · exact (Challenges.Event.succeeded.inj same).1.symm
        · exact absurd (named secondLater) (List.nodup_cons.mp once).1
      · rcases List.mem_cons.mp second with rfl | secondLater
        · exact absurd (named firstLater) (List.nodup_cons.mp once).1
        · exact induction later firstLater secondLater

/-- Whatever the routes are asked meanwhile: a socket on the list brought the pairing token, is
described as its upgrade described itself, and a key it is listed under is the host's for the host's
own window, and else one that signed a challenge of this host. Each challenge was fresh and good for
one socket, and the roster was asked about the key and knew of no revocation if it could be read. -/
theorem listed_sockets_were_admitted (gateway : Gateway) (room : 1 ≤ gateway.limits.maxChallenges)
    (now : Int) (nextId : Nat) (gate : Gate)
    (reached : Reaches (gateStep gateway) ChallengeIsNew (.opened now nextId) gate) :
    (∀ socket entry, gate.registry.entries.get? socket = some entry →
      Described gateway gate socket entry.connection) ∧
    Challenges.OneTime gateway.limits gate.challenges ∧
    ∀ socket other challenge, .succeeded socket challenge ∈ gate.challenges.log →
      .succeeded other challenge ∈ gate.challenges.log → socket = other := by
  have sound : GateSound gateway gate :=
    reached.invariant (GateSound gateway) (gateSound_opened now nextId) fun _ sound new taken =>
      sound.step room new taken
  refine ⟨sound.listed, sound.challenges.toOneTime, ?_⟩
  intro socket other challenge first second
  exact call_unique sound.challenges.succeedsOnce first second

def sampleGateway : Gateway where
  parseUrl target := some ⟨js "/", target.drop 2⟩
  pairingToken := some (js "token")
  hostKey := some (js "key")
  platform := ⟨id, fun _ => true, fun _ _ _ => false, fun _ => none⟩
  limits := Challenges.defaultLimits

def sampleUpgrade (target : JsString) : UpgradeRequest where
  url := some target
  method := none
  authorization := none
  mediaType := []
  recordingUrl := none
  range := none
  body := ⟨[], false⟩
  deviceLabel := none
  remoteAddress := some (js "::1")

/-- The host's window comes, a phone without a key, and one with the wrong token. -/
def threeUpgrades : List GateAction :=
  [.upgrade 0 (sampleUpgrade (js "/?t=token&h=1&d=Mac")), .upgrade 1 (sampleUpgrade (js "/?t=token&d=Phone")),
    .upgrade 2 (sampleUpgrade (js "/?t=other&d=Stranger")), .hostKey 0 true, .handshake 1 true,
    .roster 0 (some []), .handshake 0 true]

theorem two_are_listed : ∃ gate : Gate,
    run (gateStep sampleGateway) (.opened 0 1) threeUpgrades = some gate ∧
      gate.registry.list.map (·.label) = [some (js "Phone"), some (js "Mac")] ∧
      ∀ socket entry, gate.registry.entries.get? socket = some entry →
        Described sampleGateway gate socket entry.connection := by
  have listed : (run (gateStep sampleGateway) (.opened 0 1) threeUpgrades).map
      (fun gate => gate.registry.list.map (·.label)) = some [some (js "Phone"), some (js "Mac")] := by
    decide +kernel
  obtain ⟨gate, ran, labels⟩ := Option.map_eq_some_iff.mp listed
  have met : MeetsAlong (gateStep sampleGateway) ChallengeIsNew (.opened 0 1) threeUpgrades := by
    apply meetsAlong_of_forall
    intro action inside state
    simp only [threeUpgrades, List.mem_cons, List.not_mem_nil, or_false] at inside
    rcases inside with rfl | rfl | rfl | rfl | rfl | rfl | rfl <;> trivial
  exact ⟨gate, ran, labels,
    (listed_sockets_were_admitted sampleGateway (by decide) 0 1 gate (.of_run ran met)).1⟩

end Tapes.Connections
