import Tapes.Challenges.OneTime
import Tapes.Connections.SyncConnections
import Tapes.Pairing.Label
import Tapes.Provenance.Codec
import Tapes.Server.Http
import Tapes.Vouching.RevokedDeviceKeys

namespace Tapes.Connections

open Tapes.Js Tapes.Machine
open Tapes.Provenance (Signed Platform decodeSignedStatement)
open Tapes.Server (Request Url isAuthorized)
open Tapes.Roster (RosterEntry)
open Tapes.Vouching (isRevokedDeviceKey)

/-! The upgrade of a sync socket: a guest reaches the repo and the connection list only through the
checks of its pairing token, of the device key it proves and of the roster. -/

/-! ## What is read of a request -/

/-- `deviceLabel` is the header of that name, and `remoteAddress` the socket's. -/
structure UpgradeRequest extends Request where
  deviceLabel : Option JsString
  remoteAddress : Option JsString

def readDeviceLabel (request : UpgradeRequest) (url : Url) : Option JsString :=
  match (url.param (js "d")).bind Pairing.sanitizeLabel with
  | some fromQuery => some fromQuery
  | none => request.deviceLabel.bind Pairing.sanitizeLabel

def hasHostClientMarker (url : Url) : Bool := url.param (js "h") = some (js "1")

def isLoopback (address : Option JsString) : Bool :=
  address = some (js "127.0.0.1") || address = some (js "::1") ||
    address = some (js "::ffff:127.0.0.1")

def isSelf (request : UpgradeRequest) (url : Url) : Bool :=
  hasHostClientMarker url && isLoopback request.remoteAddress

/-- The proof that comes with a request, decoded. -/
def syncProof (url : Url) : Option (Signed JsValue) :=
  ((url.param (js "p")).filter (· ≠ [])).bind decodeSignedStatement

def connectionDetails (request : UpgradeRequest) (url : Url) (deviceKey : Option JsString) :
    SyncConnectionDetails where
  label := readDeviceLabel request url
  address := request.remoteAddress
  self := isSelf request url
  deviceKey

/-! ## Upgrades on their way -/

/-- `hostKey` is the public key that `loadSigningKey` gives, if the server was given one. -/
structure Gateway where
  parseUrl : JsString → Option Url
  pairingToken : Option JsString
  hostKey : Option JsString
  platform : Platform
  limits : Challenges.Limits

inductive Awaiting where
  | hostKey
  | proof
  | roster (deviceKey : JsString)
  /-- All checks have passed. -/
  | handshake (deviceKey : Option JsString)

structure Upgrade where
  request : UpgradeRequest
  url : Url
  awaiting : Awaiting

/-- What the roster listed when a key was asked about. It is none without a roster, and for one that
cannot be read. -/
structure RosterCheck where
  socket : Socket
  deviceKey : JsString
  people : Option (List RosterEntry)

/-- `came` has the request of each socket, and `checks` the last one first. The challenges are those
of the routes as well. -/
structure Gate where
  challenges : Challenges.Host
  came : Table Socket UpgradeRequest
  upgrades : Table Socket Upgrade
  checks : List RosterCheck
  registry : Registry

def Gate.opened (now : Int) (nextId : Nat) : Gate :=
  ⟨.opened now, .empty, .empty, [], createSyncConnectionRegistry nextId⟩

def Gate.await (gate : Gate) (socket : Socket) (upgrade : Upgrade) (awaiting : Awaiting) : Gate :=
  { gate with upgrades := gate.upgrades.put socket { upgrade with awaiting } }

/-- `deviceKeyFor` resolves. An empty key is not asked about. -/
def afterKey (deviceKey : Option JsString) : Awaiting :=
  match deviceKey with
  | none | some [] => .handshake deviceKey
  | some key => .roster key

/-! ## Steps -/

/-- The listener of `upgrade`. A target that is no URL throws. -/
def upgrade (gateway : Gateway) (gate : Gate) (socket : Socket) (request : UpgradeRequest) :
    Option Gate :=
  let gate := { gate with came := gate.came.put socket request }
  match gateway.parseUrl request.target with
  | none => some gate
  | some url =>
      if isAuthorized request.toRequest url gateway.pairingToken = false then some gate
      else if isSelf request url then some (gate.await socket ⟨request, url, .hostKey⟩ .hostKey)
      else
        (Challenges.step gateway.platform gateway.limits gate.challenges
          (.upgrade socket (syncProof url))).map fun challenges =>
            { gate with challenges }.await socket ⟨request, url, .proof⟩
              (if (challenges.calls socket).isSome then .proof else afterKey none)

/-- The challenges once `checkSyncProof` has ended, and the key it tells. -/
def proved (gateway : Gateway) (gate : Gate) (socket : Socket) (throws : Bool) :
    Option (Challenges.Host × Option JsString) :=
  match gate.challenges.calls socket with
  | some (.checkingProof signed challenge) =>
      if throws then
        (Challenges.step gateway.platform gateway.limits gate.challenges (.throw socket)).map (·, none)
      else
        (Challenges.step gateway.platform gateway.limits gate.challenges (.resume socket)).map
          (·, Challenges.checkSyncProof gateway.platform signed challenge)
  | _ => none

def Gate.drop (gate : Gate) (socket : Socket) : Gate :=
  { gate with upgrades := gate.upgrades.remove socket }

inductive GateAction where
  /-- The clock, and what the routes do with challenges. -/
  | challenges (action : Challenges.Action)
  | upgrade (socket : Socket) (request : UpgradeRequest)
  | hostKey (socket : Socket) (loaded : Bool)
  | proof (socket : Socket) (throws : Bool)
  | roster (socket : Socket) (people : Option (List RosterEntry))
  /-- `handleUpgrade` opens the socket, or finds that it cannot. -/
  | handshake (socket : Socket) (opens : Bool)
  | event (socket : Socket) (event : SocketEvent)
  | heartbeat
  | close

/-- The call that an action of a route belongs to. -/
def routeCall? : Challenges.Action → Option Challenges.CallId
  | .tick _ | .issue _ => none
  | .upgrade call _ | .join call _ | .put call _ _ | .resume call | .finish call _ | .throw call =>
      some call

def gateStep (gateway : Gateway) (gate : Gate) : GateAction → Option Gate
  | .challenges action =>
      if (routeCall? action).any fun call => (gate.came call).isSome then none
      else
        (Challenges.step gateway.platform gateway.limits gate.challenges action).map
          fun challenges => { gate with challenges }
  | .upgrade socket request =>
      if (gate.came socket).isSome then none else upgrade gateway gate socket request
  | .hostKey socket loaded =>
      match gate.upgrades socket with
      | some ⟨request, url, .hostKey⟩ =>
          some (gate.await socket ⟨request, url, .hostKey⟩
            (afterKey (if loaded then gateway.hostKey else none)))
      | _ => none
  | .proof socket throws =>
      match gate.upgrades socket with
      | some ⟨request, url, .proof⟩ =>
          (proved gateway gate socket throws).map fun (challenges, deviceKey) =>
            { gate with challenges }.await socket ⟨request, url, .proof⟩ (afterKey deviceKey)
      | _ => none
  | .roster socket people =>
      match gate.upgrades socket with
      | some ⟨request, url, .roster deviceKey⟩ =>
          let checked := { gate with checks := ⟨socket, deviceKey, people⟩ :: gate.checks }
          if people.any (isRevokedDeviceKey · deviceKey) then some (checked.drop socket)
          else some (checked.await socket ⟨request, url, .roster deviceKey⟩
            (.handshake (some deviceKey)))
      | _ => none
  | .handshake socket opens =>
      match gate.upgrades socket with
      | some ⟨request, url, .handshake deviceKey⟩ =>
          let done := gate.drop socket
          if opens then
            some { done with
              registry := (gate.registry.add gate.challenges.now socket
                (connectionDetails request url deviceKey)).1 }
          else some done
      | _ => none
  | .event socket event =>
      (act gate.challenges.now gate.registry (.event socket event)).map
        fun result => { gate with registry := result.1 }
  | .heartbeat =>
      (act gate.challenges.now gate.registry .heartbeat).map
        fun result => { gate with registry := result.1 }
  | .close => some { gate with registry := gate.registry.close.1 }

/-- No two challenges are the same. -/
def ChallengeIsNew (gate : Gate) : GateAction → Prop
  | .challenges action => Challenges.RandomIsNew gate.challenges action
  | _ => True

instance (gate : Gate) (action : GateAction) : Decidable (ChallengeIsNew gate action) :=
  match action with
  | .challenges action => inferInstanceAs (Decidable (Challenges.RandomIsNew gate.challenges action))
  | .upgrade _ _ | .hostKey _ _ | .proof _ _ | .roster _ _ | .handshake _ _ | .event _ _ | .heartbeat
  | .close => isTrue trivial

end Tapes.Connections
