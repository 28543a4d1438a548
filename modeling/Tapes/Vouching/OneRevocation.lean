import Tapes.Js.Date
import Tapes.Machine.Run
import Tapes.Machine.Table
import Tapes.Vouching.VouchRevocation

namespace Tapes.Vouching.Revoke

open Tapes.Js Tapes.Provenance Tapes.Machine
open Tapes.Roster (RosterEntry SignedVouch markEach markEach_deviceKey markRevoked)

/-! Calls of `revokeVouch` for one vouch that overlap, one step for each await: which revocation
they deliver and record. -/

/-! ## The calls -/

/-- The host's one signing key, which signs a payload one way, and what else the platform gives. -/
structure Signer where
  publicKey : JsString
  sign : DeviceRevocation → JsString
  statementAddress : Signed DeviceRevocation → JsString
  toISOString : Int → JsString

/-- The payload of `createDeviceRevocation`, as `revokeVouch` calls it. -/
def payloadOf (signer : Signer) (deviceKey deviceLink revokedAt : JsString) : DeviceRevocation where
  signerKey := signer.publicKey
  signedBy := .host
  deviceKey := deviceKey
  deviceLink := deviceLink
  reason := .wrongPerson
  revokedAt := revokedAt

def signStatement (signer : Signer) (payload : DeviceRevocation) : Signed DeviceRevocation :=
  ⟨payload, signer.sign payload⟩

/-- A `revokeVouch`, named for what it awaits. `found` is the vouch on the roster as it was when
the call began. -/
inductive Phase where
  | finding (docUrl : JsString) (found : Option SignedVouch)
  | loadingKey (docUrl deviceKey revokedAt : JsString)
  | signing (docUrl : JsString) (payload : DeviceRevocation)
  | addressing (docUrl : JsString) (revocation : Signed DeviceRevocation)
  | findingRoot (docUrl : JsString) (revocation : Signed DeviceRevocation)
  | findingRecording (revocation : Signed DeviceRevocation) (url : JsString)
      (rest : List (Option JsString)) (listed : List JsString)
  | ingesting (revocation : Signed DeviceRevocation) (url : JsString) (statements : List JsString)
      (rest : List (Option JsString)) (listed : List JsString)
  | updating (revocation : Signed DeviceRevocation) (listed : List JsString)
deriving DecidableEq

/-- `stored` are the revocations that the blob store has taken, by address, each with the
recording it was stored for. -/
structure State where
  now : Int
  roster : PersonRoster
  keyed : Table.All roster fun personKey entry => entry.personKey = personKey
  recordings : Recordings
  stored : List (JsString × JsString)
  calls : Table CallId Phase
  answers : List (CallId × RevokeVouchResult)

def State.opened (now : Int) (roster : PersonRoster)
    (keyed : Table.All roster fun personKey entry => entry.personKey = personKey)
    (recordings : Recordings) : State :=
  ⟨now, roster, keyed, recordings, [], .empty, []⟩

def State.park (state : State) (call : CallId) (phase : Phase) : State :=
  { state with calls := state.calls.put call phase }

def State.answer (state : State) (call : CallId) (result : RevokeVouchResult) : State :=
  { state with
    calls := state.calls.remove call
    answers := state.answers ++ [(call, result)] }

/-- The source looks through everyone's vouches. An address is the hash of a vouch that names its
person, so no entry but that person's has it, and `person` is whoever that is. -/
def findVouch (person address : JsString) (roster : PersonRoster) : Option SignedVouch :=
  (roster person).bind fun entry => (entry.vouches.getD []).find? (·.address = address)

/-- `if (found.vouch.revokedAt)`. -/
def isRevoked (vouch : SignedVouch) : Bool := vouch.revokedAt.getD [] ≠ []

/-- The update of the roster that records the revocation. -/
def State.mark (state : State) (person address revokedAt revocation : JsString) : State :=
  { state with
    roster := (state.roster.update person (markRevoked address revokedAt revocation)).1
    keyed := keyed_update state.keyed person }

/-- The next turn of the loop over the recordings of the root document, past its junk. -/
def deliverNext (state : State) (call : CallId) (revocation : Signed DeviceRevocation)
    (listed : List JsString) : List (Option JsString) → State
  | [] => state.park call (.updating revocation listed)
  | none :: rest => deliverNext state call revocation listed rest
  | some url :: rest => state.park call (.findingRecording revocation url rest listed)

/-- The store has taken the revocation for the recording, which then lists it. -/
def deliver (signer : Signer) (state : State) (revocation : Signed DeviceRevocation)
    (url : JsString) (statements : List JsString) : State :=
  let address := signer.statementAddress revocation
  { state with
    stored := state.stored ++ [(address, url)]
    recordings :=
      if address ∈ statements then state.recordings
      else Function.update state.recordings url ((state.recordings url).map (· ++ [address])) }

variable (signer : Signer) (person address : JsString) (root : JsString → List (Option JsString))

def resume (state : State) (call : CallId) : Phase → State
  | .finding _ none => state.answer call .unknownVouch
  | .finding docUrl (some vouch) =>
      if isRevoked vouch then state.answer call .alreadyRevoked
      else state.park call (.loadingKey docUrl vouch.deviceKey (signer.toISOString state.now))
  | .loadingKey docUrl deviceKey revokedAt =>
      state.park call (.signing docUrl (payloadOf signer deviceKey address revokedAt))
  | .signing docUrl payload => state.park call (.addressing docUrl (signStatement signer payload))
  | .addressing docUrl revocation => state.park call (.findingRoot docUrl revocation)
  | .findingRoot docUrl revocation => deliverNext state call revocation [] (root docUrl)
  | .findingRecording revocation url rest listed =>
      match state.recordings url with
      | none => deliverNext state call revocation listed rest
      | some statements =>
          if address ∈ statements then
            state.park call (.ingesting revocation url statements rest listed)
          else deliverNext state call revocation listed rest
  | .ingesting revocation url statements rest listed =>
      deliverNext (deliver signer state revocation url statements) call revocation
        (listed ++ [url]) rest
  | .updating revocation listed =>
      (state.mark person address revocation.payload.revokedAt
        (signer.statementAddress revocation)).answer call
          (.ok (signer.statementAddress revocation) listed)

inductive Action where
  | tick (elapsed : Nat)
  | revokeVouch (call : CallId) (docUrl : JsString)
  /-- What the call awaits resolves. -/
  | resume (call : CallId)

def step (state : State) : Action → Option State
  | .tick elapsed => some { state with now := state.now + elapsed }
  | .revokeVouch call docUrl =>
      if (state.calls call).isSome then none
      else some (state.park call (.finding docUrl (findVouch person address state.roster)))
  | .resume call => (state.calls call).map (resume signer person address root state call)

/-! ## The property -/

/-- One revocation is stored, listed and recorded, and it is the answer of each call that gets
that far. -/
structure IsTheOne (start state : State) (one : JsString) : Prop where
  stored : ∀ entry ∈ state.stored, entry.1 = one
  listed : ∀ url statements, state.recordings url = some statements → ∀ listed ∈ statements,
    listed = one ∨ ∃ before, start.recordings url = some before ∧ listed ∈ before
  recorded : ∀ vouch, findVouch person address state.roster = some vouch →
    vouch.revocation = some one ∨ findVouch person address start.roster = some vouch
  answered : ∀ call result, (call, result) ∈ state.answers →
    result = .alreadyRevoked ∨ result = .unknownVouch ∨
      ∃ listedOn vouch, result = .ok one listedOn ∧
        findVouch person address state.roster = some vouch ∧ vouch.revocation = some one

def RevokedOnce (start state : State) : Prop := ∃ one, IsTheOne person address start state one

/-- The time of a call's revocation, once its check is passed. -/
def Phase.revokedAt? : Phase → Option JsString
  | .finding _ _ => none
  | .loadingKey _ _ revokedAt => some revokedAt
  | .signing _ payload => some payload.revokedAt
  | .addressing _ revocation | .findingRoot _ revocation
  | .findingRecording revocation _ _ _ | .ingesting revocation _ _ _ _
  | .updating revocation _ => some revocation.payload.revokedAt

/-- A call past its check, or the roster, has the time for a revocation of the vouch. -/
def InUse (state : State) (revokedAt : JsString) : Prop :=
  (∃ call phase, state.calls call = some phase ∧ phase.revokedAt? = some revokedAt) ∨
    ∃ vouch, findVouch person address state.roster = some vouch ∧ vouch.revokedAt = some revokedAt

/-- A call passes its check only while no other revocation is on its way or recorded, but for one
of the same millisecond, which is the same statement. -/
def PassesAlone (state : State) : Action → Prop
  | .resume call => ∀ docUrl vouch, state.calls call = some (.finding docUrl (some vouch)) →
      isRevoked vouch = false → ∀ revokedAt, InUse person address state revokedAt →
        revokedAt = signer.toISOString state.now
  | .tick _ | .revokeVouch _ _ => True

/-! ## What the steps do -/

variable {signer person address root} {start state next : State} {call : CallId} {phase : Phase}
  {action : Action} {one revocation : Signed DeviceRevocation} {revokedAt : JsString}

theorem find?_markEach (address revokedAt revocation : JsString) (vouches : List SignedVouch) :
    (vouches.map (markEach address revokedAt revocation)).find? (·.address = address) =
      (vouches.find? (·.address = address)).map (markEach address revokedAt revocation) := by
  have same : (fun vouch : SignedVouch => decide (vouch.address = address)) ∘
      markEach address revokedAt revocation = fun vouch => decide (vouch.address = address) := by
    funext vouch
    rw [Function.comp_apply, Roster.markEach_address]
  rw [List.find?_map, same]

theorem findVouch_mark (state : State) (person address revokedAt revocation : JsString) :
    findVouch person address (state.mark person address revokedAt revocation).roster =
      (findVouch person address state.roster).map (markEach address revokedAt revocation) := by
  cases held : state.roster person with
  | none => simp [findVouch, State.mark, PersonRoster.update, held]
  | some entry =>
      have key := state.keyed person entry held
      have marked : (state.mark person address revokedAt revocation).roster person =
          markRevoked address revokedAt revocation entry := by
        simp [State.mark, PersonRoster.update, held, markRevoked, key]
      rw [findVouch, marked, findVouch, held]
      exact find?_markEach address revokedAt revocation _

/-- What a call past its check has of the one revocation. -/
def Phase.IsFor (signer : Signer) (address : JsString) (one : Signed DeviceRevocation) :
    Phase → Prop
  | .finding _ _ => True
  | .loadingKey _ deviceKey revokedAt => payloadOf signer deviceKey address revokedAt = one.payload
  | .signing _ payload => payload = one.payload
  | .addressing _ revocation | .findingRoot _ revocation
  | .findingRecording revocation _ _ _ | .ingesting revocation _ _ _ _
  | .updating revocation _ => revocation = one

/-- The vouch a call has found has the device key of the one on the roster. -/
def Phase.Found (deviceKey : Option JsString) : Phase → Prop
  | .finding _ (some vouch) => deviceKey = some vouch.deviceKey
  | _ => True

def Phase.isFinding : Phase → Bool
  | .finding _ _ => true
  | _ => false

theorem deliverNext_parks (state : State) (call : CallId) (revocation : Signed DeviceRevocation)
    (listed : List JsString) (entries : List (Option JsString)) :
    ∃ phase, deliverNext state call revocation listed entries = state.park call phase ∧
      phase.revokedAt? = some revocation.payload.revokedAt ∧ phase.Found none ∧
      ∀ signer address, phase.IsFor signer address revocation := by
  induction entries with
  | nil => exact ⟨_, rfl, rfl, trivial, fun _ _ => rfl⟩
  | cons entry rest induction =>
      cases entry with
      | none => exact induction
      | some url => exact ⟨_, rfl, rfl, trivial, fun _ _ => rfl⟩

/-! ## What a run keeps -/

/-- Whatever the calls do, the vouch keeps its device key. -/
structure Shaped (person address : JsString) (start state : State) : Prop where
  deviceKey : (findVouch person address state.roster).map SignedVouch.deviceKey =
    (findVouch person address start.roster).map SignedVouch.deviceKey
  calls : state.calls.All fun _ phase =>
    phase.Found ((findVouch person address start.roster).map SignedVouch.deviceKey)

/-- No call has passed its check. -/
structure Untouched (start state : State) : Prop where
  calls : state.calls.All fun _ phase => phase.isFinding = true
  stored : state.stored = []
  recordings : state.recordings = start.recordings
  roster : state.roster = start.roster
  answers : ∀ call result, (call, result) ∈ state.answers →
    result = .alreadyRevoked ∨ result = .unknownVouch

structure Begun (signer : Signer) (person address : JsString) (start : State)
    (one : Signed DeviceRevocation) (state : State) : Prop where
  statement : ∃ vouch, findVouch person address start.roster = some vouch ∧
    one = signStatement signer
      (payloadOf signer vouch.deviceKey address one.payload.revokedAt)
  calls : state.calls.All fun _ phase => phase.IsFor signer address one
  property : IsTheOne person address start state (signer.statementAddress one)
  inUse : InUse person address state one.payload.revokedAt

theorem Shaped.park (shaped : Shaped person address start state)
    (found : phase.Found ((findVouch person address start.roster).map SignedVouch.deviceKey)) :
    Shaped person address start (state.park call phase) :=
  ⟨shaped.deviceKey, shaped.calls.put found⟩

theorem Shaped.answer (shaped : Shaped person address start state) (result : RevokeVouchResult) :
    Shaped person address start (state.answer call result) :=
  ⟨shaped.deviceKey, shaped.calls.remove⟩

theorem Phase.found_of_none {deviceKey : Option JsString} (found : phase.Found none) :
    phase.Found deviceKey := by
  cases phase with
  | finding docUrl vouch =>
      cases vouch with
      | none => trivial
      | some vouch => cases found
  | _ => trivial

/-- A call that finds its vouch is no call that has the time in use. -/
theorem InUse.of_finding (inUse : InUse person address state revokedAt)
    (quiet : ∀ phase, state.calls call = some phase → phase.revokedAt? = none)
    (others : ∀ other, other ≠ call → next.calls other = state.calls other)
    (roster : next.roster = state.roster) : InUse person address next revokedAt := by
  rcases inUse with ⟨other, phase, held, time⟩ | recorded
  · have different : other ≠ call := by
      rintro rfl
      rw [quiet phase held] at time
      cases time
    exact .inl ⟨other, phase, (others other different).trans held, time⟩
  · rw [InUse, roster]
    exact .inr recorded

/-- A call goes on past its check. -/
theorem Begun.park (begun : Begun signer person address start one state)
    (isFor : phase.IsFor signer address one)
    (time : phase.revokedAt? = some one.payload.revokedAt) :
    Begun signer person address start one (state.park call phase) where
  statement := begun.statement
  calls := begun.calls.put isFor
  property := ⟨begun.property.stored, begun.property.listed, begun.property.recorded,
    begun.property.answered⟩
  inUse := .inl ⟨call, phase, Table.put_self, time⟩

/-- A call begins, or is answered by its check. -/
theorem Begun.answer (begun : Begun signer person address start one state)
    (quiet : ∀ phase, state.calls call = some phase → phase.revokedAt? = none)
    {result : RevokeVouchResult} (refused : result = .alreadyRevoked ∨ result = .unknownVouch) :
    Begun signer person address start one (state.answer call result) where
  statement := begun.statement
  calls := begun.calls.remove
  property :=
    { stored := begun.property.stored
      listed := begun.property.listed
      recorded := begun.property.recorded
      answered := fun other given member => by
        rcases List.mem_append.mp member with old | new
        · exact begun.property.answered other given old
        · cases List.mem_singleton.mp new
          rcases refused with same | same
          · exact .inl same
          · exact .inr (.inl same) }
  inUse := begun.inUse.of_finding quiet (fun _ different => Table.remove_other different) rfl

theorem Begun.begin (begun : Begun signer person address start one state)
    (new : state.calls call = none) (docUrl : JsString) (found : Option SignedVouch) :
    Begun signer person address start one (state.park call (.finding docUrl found)) := by
  have quiet : ∀ phase, state.calls call = some phase → phase.revokedAt? = none := by
    intro phase held
    rw [new] at held
    cases held
  exact
    { statement := begun.statement
      calls := begun.calls.put trivial
      property := ⟨begun.property.stored, begun.property.listed, begun.property.recorded,
        begun.property.answered⟩
      inUse := begun.inUse.of_finding quiet (fun _ different => Table.put_other different) rfl }

/-- The store and a recording take the one revocation. -/
theorem Begun.deliver (begun : Begun signer person address start one state) (url : JsString)
    (statements : List JsString) :
    Begun signer person address start one (deliver signer state one url statements) where
  statement := begun.statement
  calls := begun.calls
  property :=
    { stored := fun entry member => by
        rcases List.mem_append.mp member with old | new
        · exact begun.property.stored entry old
        · rw [List.mem_singleton.mp new]
      listed := fun other now held listed member => by
        have before := begun.property.listed
        simp only [Revoke.deliver] at held
        split at held
        · exact before other now held listed member
        · by_cases same : other = url
          · subst other
            rw [Function.update_self, Option.map_eq_some_iff] at held
            obtain ⟨was, wasHeld, rfl⟩ := held
            rcases List.mem_append.mp member with old | new
            · exact before url was wasHeld listed old
            · exact .inl (List.mem_singleton.mp new)
          · rw [Function.update_of_ne same] at held
            exact before other now held listed member
      recorded := begun.property.recorded
      answered := begun.property.answered }
  inUse := begun.inUse

theorem Shaped.mark (shaped : Shaped person address start state) (revokedAt revocation : JsString) :
    Shaped person address start (state.mark person address revokedAt revocation) where
  deviceKey := by
    have same : SignedVouch.deviceKey ∘ markEach address revokedAt revocation =
        SignedVouch.deviceKey := by
      funext vouch
      exact markEach_deviceKey address revokedAt revocation vouch
    rw [findVouch_mark, Option.map_map, same]
    exact shaped.deviceKey
  calls := shaped.calls

/-- The vouch is there still. -/
theorem Begun.vouch (begun : Begun signer person address start one state)
    (shaped : Shaped person address start state) :
    ∃ vouch, findVouch person address state.roster = some vouch ∧ vouch.address = address := by
  obtain ⟨first, found, _⟩ := begun.statement
  have key := shaped.deviceKey
  rw [found, Option.map_some, Option.map_eq_some_iff] at key
  obtain ⟨vouch, held, _⟩ := key
  obtain ⟨entry, _, inside⟩ := Option.bind_eq_some_iff.mp held
  exact ⟨vouch, held, by simpa using List.find?_some inside⟩

/-- The roster records the one revocation, and the call answers with it. -/
theorem Begun.mark (begun : Begun signer person address start one state)
    (shaped : Shaped person address start state) (call : CallId) (listed : List JsString) :
    Begun signer person address start one
      ((state.mark person address one.payload.revokedAt (signer.statementAddress one)).answer call
        (.ok (signer.statementAddress one) listed)) := by
  obtain ⟨vouch, held, own⟩ := begun.vouch shaped
  have marked : findVouch person address
      (state.mark person address one.payload.revokedAt (signer.statementAddress one)).roster =
        some { vouch with
          revokedAt := some one.payload.revokedAt
          revocation := some (signer.statementAddress one) } := by
    rw [findVouch_mark, held, Option.map_some, markEach, if_pos own]
  exact
    { statement := begun.statement
      calls := begun.calls.remove
      property :=
        { stored := begun.property.stored
          listed := begun.property.listed
          recorded := fun other found => by
            have same := marked.symm.trans found
            cases same
            exact .inl rfl
          answered := fun other given member => by
            rcases List.mem_append.mp member with old | new
            · rcases begun.property.answered other given old with
                revoked | unknown | ⟨listedOn, _, answer, _⟩
              · exact .inl revoked
              · exact .inr (.inl unknown)
              · exact .inr (.inr ⟨listedOn, _, answer, marked, rfl⟩)
            · cases List.mem_singleton.mp new
              exact .inr (.inr ⟨listed, _, rfl, marked, rfl⟩) }
      inUse := .inr ⟨_, marked, rfl⟩ }

/-- A first call passes its check. -/
theorem Untouched.begins (untouched : Untouched start state) {vouch : SignedVouch}
    (found : findVouch person address start.roster = some vouch) (docUrl deviceKey : JsString)
    (revokedAt : JsString) (key : deviceKey = vouch.deviceKey) :
    Begun signer person address start
      (signStatement signer (payloadOf signer deviceKey address revokedAt))
      (state.park call (.loadingKey docUrl deviceKey revokedAt)) where
  statement := ⟨vouch, found, by rw [key]; rfl⟩
  calls := by
    refine Table.All.put ?_ rfl
    intro other phase held
    have finding := untouched.calls other phase held
    cases phase with
    | finding docUrl found => trivial
    | _ => cases finding
  property :=
    { stored := fun entry member => by
        rw [show (state.park call _).stored = [] from untouched.stored] at member
        cases member
      listed := fun url statements held listed member =>
        .inr ⟨statements, untouched.recordings ▸ held, member⟩
      recorded := fun vouch held => .inr (untouched.roster ▸ held)
      answered := fun other result member => by
        rcases untouched.answers other result member with revoked | unknown
        · exact .inl revoked
        · exact .inr (.inl unknown) }
  inUse := .inl ⟨call, _, Table.put_self, rfl⟩

theorem Shaped.deliverNext (shaped : Shaped person address start state) (call : CallId)
    (revocation : Signed DeviceRevocation) (listed : List JsString)
    (entries : List (Option JsString)) :
    Shaped person address start (deliverNext state call revocation listed entries) := by
  obtain ⟨phase, parks, _, found, _⟩ := deliverNext_parks state call revocation listed entries
  rw [parks]
  exact shaped.park (Phase.found_of_none found)

theorem Begun.deliverNext (begun : Begun signer person address start one state) (call : CallId)
    (listed : List JsString) (entries : List (Option JsString)) :
    Begun signer person address start one (deliverNext state call one listed entries) := by
  obtain ⟨phase, parks, time, _, isFor⟩ := deliverNext_parks state call one listed entries
  rw [parks]
  exact begun.park (isFor signer address) time

theorem Begun.signed (begun : Begun signer person address start one state) :
    signStatement signer one.payload = one := by
  obtain ⟨vouch, _, same⟩ := begun.statement
  calc signStatement signer one.payload
      = signStatement signer (payloadOf signer vouch.deviceKey address one.payload.revokedAt) := by
        rw [congrArg Signed.payload same]
        rfl
    _ = one := same.symm

/-- Every call is at its check, or all past it are for one revocation. -/
structure Kept (signer : Signer) (person address : JsString) (start state : State) : Prop where
  shaped : Shaped person address start state
  progress : Untouched start state ∨ ∃ one, Begun signer person address start one state

theorem Untouched.same (untouched : Untouched start state) (calls : next.calls.All
    fun _ phase => phase.isFinding = true) (stored : next.stored = state.stored)
    (recordings : next.recordings = state.recordings) (roster : next.roster = state.roster)
    (answers : ∀ call result, (call, result) ∈ next.answers →
      result = .alreadyRevoked ∨ result = .unknownVouch) : Untouched start next :=
  ⟨calls, stored.trans untouched.stored, recordings.trans untouched.recordings,
    roster.trans untouched.roster, answers⟩

/-- A call that has found no vouch to withdraw answers. -/
theorem Kept.refuse (kept : Kept signer person address start state) {docUrl : JsString}
    {found : Option SignedVouch} (running : state.calls call = some (.finding docUrl found))
    {result : RevokeVouchResult} (refused : result = .alreadyRevoked ∨ result = .unknownVouch) :
    Kept signer person address start (state.answer call result) where
  shaped := kept.shaped.answer result
  progress := by
    rcases kept.progress with untouched | ⟨one, begun⟩
    · left
      refine untouched.same untouched.calls.remove rfl rfl rfl ?_
      intro other given member
      rcases List.mem_append.mp member with old | new
      · exact untouched.answers other given old
      · cases List.mem_singleton.mp new
        exact refused
    · right
      refine ⟨one, begun.answer (fun phase held => ?_) refused⟩
      rw [running] at held
      cases held
      rfl

/-- A call passes its check. -/
theorem Kept.pass (kept : Kept signer person address start state) {docUrl : JsString}
    {vouch : SignedVouch} (running : state.calls call = some (.finding docUrl (some vouch)))
    (alone : ∀ revokedAt, InUse person address state revokedAt →
      revokedAt = signer.toISOString state.now) :
    Kept signer person address start
      (state.park call (.loadingKey docUrl vouch.deviceKey (signer.toISOString state.now))) where
  shaped := kept.shaped.park trivial
  progress := by
    right
    obtain ⟨first, found, key⟩ := Option.map_eq_some_iff.mp (kept.shaped.calls call _ running)
    rcases kept.progress with untouched | ⟨one, begun⟩
    · exact ⟨_, untouched.begins found docUrl _ _ key.symm⟩
    · have time := alone _ begun.inUse
      obtain ⟨other, also, statement⟩ := begun.statement
      rw [found, Option.some.injEq] at also
      subst also
      have payload : payloadOf signer vouch.deviceKey address (signer.toISOString state.now) =
          one.payload := by
        rw [congrArg Signed.payload statement, ← key, ← time]
        rfl
      exact ⟨one, begun.park payload (by rw [time]; rfl)⟩

theorem Kept.resume (kept : Kept signer person address start state)
    (met : PassesAlone signer person address state (.resume call))
    (running : state.calls call = some phase) :
    Kept signer person address start (resume signer person address root state call phase) := by
  have past (finding : phase.isFinding = false) :
      ∃ one, Begun signer person address start one state ∧ phase.IsFor signer address one := by
    rcases kept.progress with untouched | ⟨one, begun⟩
    · rw [untouched.calls call phase running] at finding
      cases finding
    · exact ⟨one, begun, begun.calls call phase running⟩
  have shaped := kept.shaped
  cases phase with
  | finding docUrl found =>
      cases found with
      | none => exact kept.refuse running (.inr rfl)
      | some vouch =>
          simp only [Revoke.resume]
          split
          · exact kept.refuse running (.inl rfl)
          · rename_i standing
            exact kept.pass running (met docUrl vouch running (by simpa using standing))
  | loadingKey docUrl deviceKey revokedAt =>
      obtain ⟨one, begun, isFor⟩ := past rfl
      exact ⟨shaped.park trivial, .inr ⟨one, begun.park isFor (congrArg _ (congrArg _ isFor))⟩⟩
  | signing docUrl payload =>
      obtain ⟨one, begun, isFor⟩ := past rfl
      cases isFor
      exact ⟨shaped.park trivial, .inr ⟨one, begun.park begun.signed rfl⟩⟩
  | addressing docUrl revocation =>
      obtain ⟨one, begun, isFor⟩ := past rfl
      cases isFor
      exact ⟨shaped.park trivial, .inr ⟨_, begun.park rfl rfl⟩⟩
  | findingRoot docUrl revocation =>
      obtain ⟨one, begun, isFor⟩ := past rfl
      cases isFor
      exact ⟨shaped.deliverNext .., .inr ⟨_, begun.deliverNext ..⟩⟩
  | findingRecording revocation url rest listed =>
      obtain ⟨one, begun, isFor⟩ := past rfl
      cases isFor
      simp only [Revoke.resume]
      split
      · exact ⟨shaped.deliverNext .., .inr ⟨_, begun.deliverNext ..⟩⟩
      · split
        · exact ⟨shaped.park trivial, .inr ⟨_, begun.park rfl rfl⟩⟩
        · exact ⟨shaped.deliverNext .., .inr ⟨_, begun.deliverNext ..⟩⟩
  | ingesting revocation url statements rest listed =>
      obtain ⟨one, begun, isFor⟩ := past rfl
      cases isFor
      have delivered := begun.deliver url statements
      have still : Shaped person address start (deliver signer state revocation url statements) :=
        ⟨shaped.deviceKey, shaped.calls⟩
      exact ⟨still.deliverNext .., .inr ⟨_, delivered.deliverNext ..⟩⟩
  | updating revocation listed =>
      obtain ⟨one, begun, isFor⟩ := past rfl
      cases isFor
      exact ⟨(shaped.mark _ _).answer _, .inr ⟨_, begun.mark shaped call listed⟩⟩

theorem Kept.step (kept : Kept signer person address start state)
    (met : PassesAlone signer person address state action)
    (taken : step signer person address root state action = some next) :
    Kept signer person address start next := by
  cases action with
  | tick elapsed =>
      cases taken
      refine ⟨⟨kept.shaped.deviceKey, kept.shaped.calls⟩, ?_⟩
      rcases kept.progress with untouched | ⟨one, begun⟩
      · exact .inl ⟨untouched.calls, untouched.stored, untouched.recordings, untouched.roster,
          untouched.answers⟩
      · exact .inr ⟨one, begun.statement, begun.calls, ⟨begun.property.stored,
          begun.property.listed, begun.property.recorded, begun.property.answered⟩, begun.inUse⟩
  | revokeVouch call docUrl =>
      simp only [Revoke.step] at taken
      split at taken
      · cases taken
      · rename_i new
        cases taken
        have unused : state.calls call = none := by simpa using new
        constructor
        · apply kept.shaped.park
          cases found : findVouch person address state.roster with
          | none => trivial
          | some vouch =>
              have key := kept.shaped.deviceKey
              rw [found] at key
              exact key.symm
        · rcases kept.progress with untouched | ⟨one, begun⟩
          · exact .inl (untouched.same (untouched.calls.put rfl) rfl rfl rfl untouched.answers)
          · exact .inr ⟨one, begun.begin unused docUrl _⟩
  | resume call =>
      obtain ⟨phase, running, rfl⟩ := Option.map_eq_some_iff.mp taken
      exact kept.resume met running

theorem kept_opened (now : Int) (roster : PersonRoster)
    (keyed : Table.All roster fun personKey entry => entry.personKey = personKey)
    (recordings : Recordings) :
    Kept signer person address (.opened now roster keyed recordings)
      (.opened now roster keyed recordings) where
  shaped := ⟨rfl, Table.all_empty⟩
  progress := .inl ⟨Table.all_empty, rfl, rfl, rfl, fun _ _ member => nomatch member⟩

/-- Before the first call passes its check, what the roster records is what it was. -/
theorem Untouched.revokedOnce (untouched : Untouched start state) :
    RevokedOnce person address start state := by
  refine ⟨[], ?_, ?_, ?_, ?_⟩
  · intro entry member
    rw [untouched.stored] at member
    cases member
  · intro url statements held listed member
    exact .inr ⟨statements, untouched.recordings ▸ held, member⟩
  · intro vouch held
    exact .inr (untouched.roster ▸ held)
  · intro call result member
    rcases untouched.answers call result member with revoked | unknown
    · exact .inl revoked
    · exact .inr (.inl unknown)

theorem vouch_is_revoked_once (signer : Signer) (person address : JsString)
    (root : JsString → List (Option JsString)) (now : Int) (roster : PersonRoster)
    (keyed : Table.All roster fun personKey entry => entry.personKey = personKey)
    (recordings : Recordings) (state : State)
    (reached : Reaches (step signer person address root) (PassesAlone signer person address)
      (.opened now roster keyed recordings) state) :
    RevokedOnce person address (.opened now roster keyed recordings) state := by
  have kept := reached.invariant
    (Kept signer person address (.opened now roster keyed recordings))
    (kept_opened now roster keyed recordings) fun _ kept met taken => kept.step met taken
  rcases kept.progress with untouched | ⟨one, begun⟩
  · exact untouched.revokedOnce
  · exact ⟨_, begun.property⟩

/-! Two calls for a vouch on one recording. Whichever is the first past its check goes on to the
end before the other comes to its own, or both are past it a millisecond apart. -/

def sampleSigner : Signer where
  publicKey := js "host"
  sign := fun payload => js "signed " ++ payload.revokedAt
  statementAddress := fun revocation => js "sha256 " ++ revocation.signature
  toISOString := toISOString

theorem keyed_vouchedOnce : Table.All vouchedOnce.roster fun personKey entry =>
    entry.personKey = personKey := by
  intro personKey entry held
  simp only [vouchedOnce] at held
  split at held
  · rename_i same
    cases held
    exact same.symm
  · cases held

def oneVouch : State := .opened 0 vouchedOnce.roster keyed_vouchedOnce vouchedOnce.recordings

def sampleStep : State → Action → Option State :=
  step sampleSigner (js "sam") (js "vouch") fun _ => vouchedOnce.root

/-- A state in which `call` is not at its check. -/
def pastCheck (state : State) : Action → Prop
  | .resume call => ((state.calls call).map Phase.isFinding).getD false = false
  | .tick _ | .revokeVouch _ _ => True

instance (state : State) (action : Action) : Decidable (pastCheck state action) := by
  cases action <;> unfold pastCheck <;> infer_instance

theorem passesAlone_of_pastCheck (past : pastCheck state action) :
    PassesAlone signer person address state action := by
  cases action with
  | resume call =>
      intro docUrl vouch running
      simp [pastCheck, running, Phase.isFinding] at past
  | tick | revokeVouch => trivial

def checked : State :=
  (run sampleStep oneVouch [.revokeVouch 0 (js "root"), .resume 0]).getD oneVouch

/-- The first call to the end, and then another. -/
def inTurn : List Action :=
  List.replicate 7 (.resume 0) ++ [.tick 1, .revokeVouch 1 (js "root")]

theorem revoked_in_turn : ∃ state, Reaches sampleStep (PassesAlone sampleSigner (js "sam")
    (js "vouch")) oneVouch state ∧ state.stored ≠ [] ∧
      RevokedOnce (js "sam") (js "vouch") oneVouch state := by
  have first : PassesAlone sampleSigner (js "sam") (js "vouch")
      (oneVouch.park 0 (.finding (js "root") (some vouchedFor))) (.resume 0) := by
    intro docUrl vouch _ _ revokedAt inUse
    rcases inUse with ⟨call, phase, running, time⟩ | ⟨found, held, time⟩
    · rcases Table.put_cases running with ⟨-, rfl⟩ | ⟨-, running⟩
      · cases time
      · cases running
    · cases held
      cases time
  have called : sampleStep oneVouch (.revokeVouch 0 (js "root")) =
      some (oneVouch.park 0 (.finding (js "root") (some vouchedFor))) := rfl
  have begun : Reaches sampleStep (PassesAlone sampleSigner (js "sam") (js "vouch")) oneVouch
      checked := (Reaches.refl.tail trivial called).tail first rfl
  have ran : run (guarded pastCheck sampleStep) checked inTurn =
      some ((run sampleStep checked inTurn).getD checked) := by rfl
  have reached := begun.trans
    ((Reaches.of_guarded_run ran).weaken fun _ _ => passesAlone_of_pastCheck)
  exact ⟨_, reached, by decide, vouch_is_revoked_once sampleSigner (js "sam") (js "vouch") _ 0
    vouchedOnce.roster keyed_vouchedOnce vouchedOnce.recordings _ reached⟩

/-- Both calls are past the check before either revocation is signed. -/
def atOnce : List Action :=
  [.revokeVouch 0 (js "root"), .revokeVouch 1 (js "root"), .resume 0, .tick 1, .resume 1] ++
    List.replicate 7 (.resume 0) ++ List.replicate 7 (.resume 1)

theorem overlapping_calls_revoke_twice : ∃ state,
    Reaches sampleStep anyAction oneVouch state ∧
      ¬ RevokedOnce (js "sam") (js "vouch") oneVouch state := by
  have ran : run sampleStep oneVouch atOnce = some ((run sampleStep oneVouch atOnce).getD oneVouch) :=
    by rfl
  refine ⟨_, Reaches.of_run ran (meetsAlong_anyAction _ _), ?_⟩
  rintro ⟨one, isTheOne⟩
  have first := isTheOne.stored (js "sha256 signed 1970-01-01T00:00:00.000Z", js "take") (by decide)
  have second := isTheOne.stored (js "sha256 signed 1970-01-01T00:00:00.001Z", js "take")
    (by decide)
  exact absurd (first.trans second.symm) (by decide)

end Tapes.Vouching.Revoke
