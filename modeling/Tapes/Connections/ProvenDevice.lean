import Tapes.Connections.Admitted
import Tapes.Provenance.SameShape

namespace Tapes.Connections

open Tapes.Js Tapes.Machine
open Tapes.Provenance (Signed Platform IsData canonicalJson toBase64Url encodeSignedStatement
  decodeSignedStatement hasType stringField)
open Tapes.Server (Url isAuthorized)
open Tapes.Roster (RosterEntry)
open Tapes.Vouching (isRevokedDeviceKey)

/-! The other side of the gate: a paired device that signs a fresh challenge is listed under its key,
once. -/

/-! ## The proof of a device -/

/-- `publicKey` is the raw public key, and `sign` what the private one signs a message with. -/
structure DeviceKey where
  publicKey : Bytes
  sign : Bytes → Bytes

/-- An Ed25519 key pair that the platform imports and whose signatures it accepts. -/
structure DeviceKey.Works (key : DeviceKey) (platform : Platform) : Prop where
  raw : key.publicKey.length = 32
  imports : platform.importKey key.publicKey = true
  long : ∀ message, (key.sign message).length = 64
  verifies : ∀ message, platform.verify key.publicKey (key.sign message) message = true

/-- `exportPublicKey` -/
def DeviceKey.text (key : DeviceKey) : JsString := toBase64Url key.publicKey

def proofPayload (challenge deviceKey : JsString) : JsValue :=
  .object [(js "type", .string Challenges.syncProofType), (js "challenge", .string challenge),
    (js "deviceKey", .string deviceKey)]

/-- None where `canonicalJson` throws. -/
def createSyncProof (challenge : JsString) (key : DeviceKey) : Option (Signed JsValue) :=
  (canonicalJson (proofPayload challenge key.text)).map fun text =>
    ⟨proofPayload challenge key.text, toBase64Url (key.sign (utf8Encode text))⟩

/-- What is sent on the upgrade. -/
def proofText (challenge : JsString) (key : DeviceKey) : Option JsString :=
  (createSyncProof challenge key).bind encodeSignedStatement

variable {gateway : Gateway} {gate next later : Gate} {socket other : Socket}
  {request : UpgradeRequest} {url : Url} {key : DeviceKey} {challenge proof : JsString}

theorem wellFormed_toBase64Url (bytes : Bytes) : wellFormed (toBase64Url bytes) = true := by
  have all : ∀ unit ∈ Provenance.base64UrlAlphabet, unit < 0x80 := by decide
  have ascii : Ascii (toBase64Url bytes) := fun unit inside =>
    all unit (Provenance.inAlphabet_toBase64Url bytes unit inside)
  exact ascii.wellFormed

theorem isData_proofPayload (valid : wellFormed challenge = true) (key : DeviceKey) :
    IsData (proofPayload challenge key.text) := by
  have distinct : ([js "type", js "challenge", js "deviceKey"] : List JsString).Nodup := by decide
  have type : wellFormed Challenges.syncProofType = true := by decide
  have text : wellFormed key.text = true := wellFormed_toBase64Url key.publicKey
  exact ⟨distinct, .inr ⟨by decide, type⟩, .inr ⟨by decide, valid⟩, .inr ⟨by decide, text⟩, trivial⟩

/-- What the host reads of the proof is a proof over the challenge, for the key of the device. -/
theorem proofText_proves {platform : Platform} (works : key.Works platform)
    (valid : wellFormed challenge = true) :
    ∃ proof signed, proofText challenge key = some proof ∧
      decodeSignedStatement proof = some signed ∧
      (signed.payload.get (js "challenge")).string? = some challenge ∧
      Challenges.checkSyncProof platform signed challenge = some key.text := by
  have data := isData_proofPayload valid key
  have written := Provenance.canonicalJson_eq data
  generalize stringify (Provenance.normal (proofPayload challenge key.text)) = text at written
  let signed : Signed JsValue :=
    ⟨proofPayload challenge key.text, toBase64Url (key.sign (utf8Encode text))⟩
  have created : createSyncProof challenge key = some signed := by
    rw [createSyncProof, written, Option.map_some]
  have signature : wellFormed signed.signature = true := wellFormed_toBase64Url _
  obtain ⟨bytes, spelled, -⟩ := Provenance.parseSignedStatement_statementBytes data signature
  obtain ⟨again, reread⟩ := Provenance.exists_reread data signature spelled
  have verified : Provenance.verifyStatement platform again key.text = true := by
    have imported : Provenance.importPublicKey platform key.text = some key.publicKey := by
      simp [Provenance.importPublicKey, DeviceKey.text, Provenance.fromBase64Url_toBase64Url,
        works.raw, works.imports]
    rw [reread.valid]
    simp only [Provenance.verifyStatement, imported, signed, Provenance.fromBase64Url_toBase64Url,
      written, works.long, works.verifies, decide_true, Bool.and_self]
  have type : hasType again.payload Challenges.syncProofType = true := by
    rw [← reread.payload.hasType]
    rfl
  have names : (again.payload.get (js "challenge")).string? = some challenge :=
    (reread.payload.field (js "challenge")).symm
  have deviceKey : stringField again.payload "deviceKey" = some key.text :=
    (reread.payload.stringField "deviceKey").symm
  have sent : proofText challenge key = some (toBase64Url bytes) := by
    rw [proofText, created, Option.bind_some, encodeSignedStatement, spelled, Option.map_some]
  have decoded : decodeSignedStatement (toBase64Url bytes) = some again := by
    rw [decodeSignedStatement, Provenance.fromBase64Url_toBase64Url, Option.bind_some]
    exact reread.read
  have checked : Challenges.checkSyncProof platform again challenge = some key.text := by
    simp [Challenges.checkSyncProof, guard, type, names, deviceKey, verified]
  exact ⟨toBase64Url bytes, again, sent, decoded, names, checked⟩

/-! ## The upgrade -/

/-- A request that is let through to the check of its proof. -/
structure Arrives (gateway : Gateway) (gate : Gate) (socket : Socket) (request : UpgradeRequest)
    (url : Url) (proof : JsString) : Prop where
  new : gate.came socket = none
  idle : gate.challenges.calls socket = none
  parsed : gateway.parseUrl request.target = some url
  paired : isAuthorized request.toRequest url gateway.pairingToken = true
  guest : isSelf request url = false
  brings : url.param (js "p") = some proof

/-- A challenge that was issued and can be used still. -/
def Usable (gateway : Gateway) (gate : Gate) (challenge : JsString) : Prop :=
  (Challenges.consume gateway.limits gate.challenges.issuedAt challenge gate.challenges.now).2 = true

theorem syncProof_of_param {signed : Signed JsValue} (brings : url.param (js "p") = some proof)
    (decoded : decodeSignedStatement proof = some signed) : syncProof url = some signed := by
  have nonempty : proof ≠ [] := by
    rintro rfl
    have nothing : (decodeSignedStatement []).isNone = true := by decide +kernel
    rw [decoded] at nothing
    cases nothing
  simp [syncProof, brings, Option.filter, nonempty, decoded]

/-- The upgrade uses the challenge, and waits for the check of the signature. -/
theorem upgrade_waits {signed : Signed JsValue}
    (arrives : Arrives gateway gate socket request url proof)
    (decoded : decodeSignedStatement proof = some signed)
    (names : (signed.payload.get (js "challenge")).string? = some challenge)
    (usable : Usable gateway gate challenge) :
    ∃ challenges, challenges.calls = gate.challenges.calls.put socket (.checkingProof signed challenge) ∧
      challenges.now = gate.challenges.now ∧
      .used challenge true gate.challenges.now ∈ challenges.log ∧
      gateStep gateway gate (.upgrade socket request) = some { gate with
        came := gate.came.put socket request
        challenges
        upgrades := gate.upgrades.put socket ⟨request, url, .proof⟩ } := by
  have free : ¬ (gate.challenges.calls socket).isSome = true := by simp [arrives.idle]
  have used : (Challenges.consume gateway.limits gate.challenges.issuedAt challenge
    gate.challenges.now).2 = true := usable
  have stepped : Challenges.step gateway.platform gateway.limits gate.challenges
      (.upgrade socket (some signed)) = some (gate.challenges.use gateway.limits socket challenge
        (.checkingProof signed challenge)) := by
    simp only [Challenges.step, if_neg free, names]
  have calls : (gate.challenges.use gateway.limits socket challenge
      (.checkingProof signed challenge)).calls =
        gate.challenges.calls.put socket (.checkingProof signed challenge) := by
    simp only [Challenges.Host.use]
    rw [if_pos used]
  have log : .used challenge true gate.challenges.now ∈ (gate.challenges.use gateway.limits socket
      challenge (.checkingProof signed challenge)).log := by
    simp only [Challenges.Host.use]
    rw [used]
    exact List.mem_cons_self
  refine ⟨_, calls, rfl, log, ?_⟩
  have goes : ((gate.challenges.use gateway.limits socket challenge
      (.checkingProof signed challenge)).calls socket).isSome = true := by
    rw [calls, Table.put_self]
    rfl
  have first : ¬ (gate.came socket).isSome = true := by simp [arrives.new]
  simp only [gateStep, if_neg first, upgrade, arrives.parsed, arrives.paired, Bool.true_eq_false,
    if_false, arrives.guest, Bool.false_eq_true, syncProof_of_param arrives.brings decoded, stepped,
    Option.map_some, goes, if_true]
  rfl

/-- The signature is right, so the roster is asked. -/
theorem proof_waits {signed : Signed JsValue}
    (there : gate.upgrades socket = some ⟨request, url, .proof⟩)
    (running : gate.challenges.calls socket = some (.checkingProof signed challenge))
    (checked : Challenges.checkSyncProof gateway.platform signed challenge = some key.text)
    (nonempty : key.text ≠ []) :
    gateStep gateway gate (.proof socket false) = some { gate with
      challenges := gate.challenges.succeed socket challenge
      upgrades := gate.upgrades.put socket ⟨request, url, .roster key.text⟩ } := by
  have stepped : Challenges.step gateway.platform gateway.limits gate.challenges (.resume socket) =
      some (gate.challenges.succeed socket challenge) := by
    simp only [Challenges.step, running, Option.bind_some, Challenges.resume, checked]
  have asks : afterKey (some key.text) = .roster key.text := by
    cases text : key.text with
    | nil => exact absurd text nonempty
    | cons first rest => rfl
  simp only [gateStep, there, proved, running, Bool.false_eq_true, if_false, stepped,
    Option.map_some, checked, asks]
  rfl

/-- The steps of one upgrade with a proof, up to the answer of the roster. -/
def proves (socket : Socket) (request : UpgradeRequest) (people : Option (List RosterEntry)) :
    List GateAction :=
  [.upgrade socket request, .proof socket false, .roster socket people]

theorem meetsAlong_proves {people : Option (List RosterEntry)} (rest : List GateAction)
    (handshakes : ∀ action ∈ rest, ∃ socket opens, action = .handshake socket opens) :
    MeetsAlong (gateStep gateway) ChallengeIsNew gate (proves socket request people ++ rest) := by
  apply meetsAlong_of_forall
  intro action inside state
  rcases List.mem_append.mp inside with early | late
  · simp only [proves, List.mem_cons, List.not_mem_nil, or_false] at early
    rcases early with rfl | rfl | rfl <;> trivial
  · obtain ⟨socket, opens, rfl⟩ := handshakes action late
    trivial

/-- The run of an upgrade whose proof is over a usable challenge. -/
theorem run_proves {people : Option (List RosterEntry)} {signed : Signed JsValue}
    (arrives : Arrives gateway gate socket request url proof)
    (decoded : decodeSignedStatement proof = some signed)
    (names : (signed.payload.get (js "challenge")).string? = some challenge)
    (checked : Challenges.checkSyncProof gateway.platform signed challenge = some key.text)
    (nonempty : key.text ≠ []) (usable : Usable gateway gate challenge) :
    ∃ next, run (gateStep gateway) gate (proves socket request people) = some next ∧
      next.registry = gate.registry ∧ next.challenges.now = gate.challenges.now ∧
      .used challenge true gate.challenges.now ∈ next.challenges.log ∧
      next.upgrades socket =
        if people.any (isRevokedDeviceKey · key.text) then none
        else some ⟨request, url, .handshake (some key.text)⟩ := by
  obtain ⟨challenges, calls, now, used, upgraded⟩ := upgrade_waits arrives decoded names usable
  let waiting : Gate := { gate with
    came := gate.came.put socket request
    challenges
    upgrades := gate.upgrades.put socket ⟨request, url, .proof⟩ }
  have first : gateStep gateway gate (.upgrade socket request) = some waiting := upgraded
  have running : waiting.challenges.calls socket = some (.checkingProof signed challenge) := by
    rw [show waiting.challenges.calls = _ from calls, Table.put_self]
  let proven : Gate := { waiting with
    challenges := waiting.challenges.succeed socket challenge
    upgrades := waiting.upgrades.put socket ⟨request, url, .roster key.text⟩ }
  have second : gateStep gateway waiting (.proof socket false) = some proven :=
    proof_waits Table.put_self running checked nonempty
  have asked : proven.upgrades socket = some ⟨request, url, .roster key.text⟩ := Table.put_self
  have log : .used challenge true gate.challenges.now ∈ proven.challenges.log :=
    List.mem_cons_of_mem _ used
  have third : ∃ next, gateStep gateway proven (.roster socket people) = some next ∧
      next.registry = proven.registry ∧ next.challenges = proven.challenges ∧
      next.upgrades socket = if people.any (isRevokedDeviceKey · key.text) then none
        else some ⟨request, url, .handshake (some key.text)⟩ := by
    simp only [gateStep, asked]
    split
    · exact ⟨_, rfl, rfl, rfl, Table.remove_self⟩
    · exact ⟨_, rfl, rfl, rfl, Table.put_self⟩
  obtain ⟨next, third, registry, same, upgrades⟩ := third
  have ran : run (gateStep gateway) gate (proves socket request people) = some next := by
    simp only [proves, run, first, second, third]
  refine ⟨next, ran, registry, ?_, ?_, upgrades⟩
  · rw [same]
    exact now
  · rw [same]
    exact log

/-! ## A proof that has been used -/

theorem gateStep_log {action : GateAction} (taken : gateStep gateway gate action = some next) :
    gate.challenges.log ⊆ next.challenges.log := by
  have same : gate.challenges.log ⊆ gate.challenges.log := fun _ inside => inside
  cases action with
  | challenges action =>
      simp only [gateStep] at taken
      split at taken
      · cases taken
      · obtain ⟨challenges, stepped, rfl⟩ := Option.map_eq_some_iff.mp taken
        exact (challengesStep_frame stepped).2
  | upgrade socket request =>
      simp only [gateStep, upgrade] at taken
      split at taken
      · cases taken
      · split at taken
        · cases taken
          exact same
        · split at taken
          · cases taken
            exact same
          · split at taken
            · cases taken
              exact same
            · obtain ⟨challenges, stepped, rfl⟩ := Option.map_eq_some_iff.mp taken
              exact (challengesStep_frame stepped).2
  | hostKey socket loaded =>
      simp only [gateStep] at taken
      split at taken <;> cases taken
      exact same
  | proof socket throws =>
      simp only [gateStep] at taken
      split at taken
      · obtain ⟨ended, proves, rfl⟩ := Option.map_eq_some_iff.mp taken
        simp only [proved] at proves
        split at proves
        · split at proves
          · obtain ⟨challenges, stepped, rfl⟩ := Option.map_eq_some_iff.mp proves
            exact (challengesStep_frame stepped).2
          · obtain ⟨challenges, stepped, rfl⟩ := Option.map_eq_some_iff.mp proves
            exact (challengesStep_frame stepped).2
        · cases proves
      · cases taken
  | roster socket people =>
      simp only [gateStep] at taken
      split at taken
      · split at taken <;> cases taken <;> exact same
      · cases taken
  | handshake socket opens =>
      simp only [gateStep] at taken
      split at taken
      · split at taken <;> cases taken <;> exact same
      · cases taken
  | event socket event =>
      obtain ⟨result, acted, rfl⟩ := Option.map_eq_some_iff.mp taken
      exact same
  | heartbeat =>
      obtain ⟨result, acted, rfl⟩ := Option.map_eq_some_iff.mp taken
      exact same
  | close =>
      cases taken
      exact same

theorem not_usable {time : Int} (sound : Challenges.Sound gateway.limits gate.challenges)
    (used : .used challenge true time ∈ gate.challenges.log) : ¬ Usable gateway gate challenge := by
  intro usable
  obtain ⟨issuedTime, held, -⟩ := Challenges.entry_of_consume usable
  have spent : challenge ∈ gate.challenges.log.filterMap Challenges.Event.authorized? :=
    List.mem_filterMap.mpr ⟨_, used, rfl⟩
  have waits := sound.stored.subset (List.mem_reverse.mpr held)
  exact (sound.spent challenge spent).2 (List.mem_map.mpr ⟨_, waits, rfl⟩)

theorem upgrade_without_key {signed : Signed JsValue}
    (arrives : Arrives gateway gate socket request url proof)
    (decoded : decodeSignedStatement proof = some signed)
    (names : (signed.payload.get (js "challenge")).string? = some challenge)
    (spent : ¬ Usable gateway gate challenge) :
    ∃ next, gateStep gateway gate (.upgrade socket request) = some next ∧
      next.upgrades socket = some ⟨request, url, .handshake none⟩ := by
  have free : ¬ (gate.challenges.calls socket).isSome = true := by simp [arrives.idle]
  have first : ¬ (gate.came socket).isSome = true := by simp [arrives.new]
  have stepped : Challenges.step gateway.platform gateway.limits gate.challenges
      (.upgrade socket (some signed)) = some (gate.challenges.use gateway.limits socket challenge
        (.checkingProof signed challenge)) := by
    simp only [Challenges.step, if_neg free, names]
  have stops : ((gate.challenges.use gateway.limits socket challenge
      (.checkingProof signed challenge)).calls socket).isSome = false := by
    have unused : ¬ (Challenges.consume gateway.limits gate.challenges.issuedAt challenge
      gate.challenges.now).2 = true := spent
    simp only [Challenges.Host.use]
    rw [if_neg unused, Table.remove_self]
    rfl
  simp only [gateStep, if_neg first, upgrade, arrives.parsed, arrives.paired, Bool.true_eq_false,
    if_false, arrives.guest, Bool.false_eq_true, syncProof_of_param arrives.brings decoded, stepped,
    Option.map_some, stops]
  exact ⟨_, rfl, Table.put_self⟩

/-! ## Listed once -/

theorem text_ne_nil {platform : Platform} (works : key.Works platform) : key.text ≠ [] := by
  intro empty
  have read := Provenance.fromBase64Url_toBase64Url key.publicKey
  have nothing := Provenance.fromBase64Url_toBase64Url []
  rw [show toBase64Url key.publicKey = toBase64Url [] from empty, nothing, Option.some.injEq] at read
  have raw := works.raw
  rw [← read] at raw
  cases raw

theorem run_append_some {actions rest : List GateAction}
    (ran : run (gateStep gateway) gate actions = some next) :
    run (gateStep gateway) gate (actions ++ rest) = run (gateStep gateway) next rest := by
  induction actions generalizing gate with
  | nil =>
      cases ran
      rfl
  | cons action actions induction =>
      simp only [run] at ran
      simp only [List.cons_append, run]
      split at ran
      · rename_i between taken
        exact induction ran
      · cases ran

def deviceGateway : Gateway :=
  { sampleGateway with platform := ⟨id, fun _ => true, fun _ _ _ => true, fun _ => none⟩ }

def sampleDevice : DeviceKey := ⟨List.replicate 32 0, fun _ => List.replicate 64 0⟩

/-- After one challenge has been handed out. -/
def gateAfterIssue : Gate :=
  { Gate.opened 0 1 with
    challenges := ⟨0, [(js "first", 0)], .empty, [.issued (js "first") 0]⟩ }

def sampleTarget (proof : JsString) : JsString := js "/?t=token&p=" ++ proof

end Tapes.Connections
