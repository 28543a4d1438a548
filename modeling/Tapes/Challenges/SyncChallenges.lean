import Tapes.Challenges.SignedRequests
import Tapes.Js.OrderedMap
import Tapes.Machine.Run
import Tapes.Machine.Table

namespace Tapes.Challenges

open Tapes.Js Tapes.Provenance Tapes.Machine

/-! One-time challenges, and the three operations that use them up. -/

abbrev CallId := Nat

structure Limits where
  ttlMs : Int
  maxChallenges : Nat

def defaultLimits : Limits := ⟨60000, 256⟩

/-! ## The store -/

/-- Challenges with the time of their issue, oldest first. -/
abbrev IssuedAt := List (JsString × Int)

/-- The oldest go until there is room for one more. -/
def evict (maxChallenges : Nat) : IssuedAt → IssuedAt
  | [] => []
  | oldest :: rest =>
      if maxChallenges ≤ (oldest :: rest).length then evict maxChallenges rest else oldest :: rest

def issue (limits : Limits) (issuedAt : IssuedAt) (challenge : JsString) (now : Int) : IssuedAt :=
  setEntry (evict limits.maxChallenges issuedAt) challenge now

/-- The store without the challenge, and whether it was issued here and is fresh. -/
def consume (limits : Limits) (issuedAt : IssuedAt) (challenge : JsString) (now : Int) :
    IssuedAt × Bool :=
  (issuedAt.filter (·.1 ≠ challenge),
    (issuedAt.find? (·.1 = challenge)).any fun entry => now - entry.2 ≤ limits.ttlMs)

/-! ## The operations -/

/-- What an operation does next. The last two have used their challenge, and go on with what
does not depend on it. -/
inductive Phase where
  | checkingProof (signed : Signed JsValue) (challenge : JsString)
  | checkingJoin (signed : Signed JsValue)
  | checkingWrite (signed : Signed JsValue) (record : JsString)
  | joining (challenge : JsString)
  | storing (challenge : JsString)

/-- `used` is a call of `consume` with its answer. -/
inductive Event where
  | issued (challenge : JsString) (time : Int)
  | used (challenge : JsString) (authorized : Bool) (time : Int)
  | succeeded (call : CallId) (challenge : JsString)
deriving DecidableEq

/-- `log` has the last event first. -/
structure Host where
  now : Int
  issuedAt : IssuedAt
  calls : Table CallId Phase
  log : List Event

def Host.opened (now : Int) : Host := ⟨now, [], Table.empty, []⟩

inductive Action where
  | tick (elapsed : Nat)
  /-- `challenge` is what `randomBytes` gives. -/
  | issue (challenge : JsString)
  /-- An upgrade of a socket, with what its proof decodes to. -/
  | upgrade (call : CallId) (signed : Option (Signed JsValue))
  | join (call : CallId) (signed : Signed JsValue)
  | put (call : CallId) (signed : Option (Signed JsValue)) (record : JsString)
  /-- The first await of the call resolves. -/
  | resume (call : CallId)
  /-- A join or a write that used its challenge ends, and has done what it was to do or not. -/
  | finish (call : CallId) (succeeded : Bool)
  /-- What the call awaits fails. -/
  | throw (call : CallId)

/-- The call uses the challenge, and goes on if that authorizes it. -/
def Host.use (host : Host) (limits : Limits) (call : CallId) (challenge : JsString)
    (phase : Phase) : Host :=
  let (issuedAt, authorized) := consume limits host.issuedAt challenge host.now
  { host with
    issuedAt
    calls := if authorized then host.calls.put call phase else host.calls.remove call
    log := .used challenge authorized host.now :: host.log }

def Host.stop (host : Host) (call : CallId) : Host := { host with calls := host.calls.remove call }

def Host.succeed (host : Host) (call : CallId) (challenge : JsString) : Host :=
  { host.stop call with log := .succeeded call challenge :: host.log }

def resume (platform : Platform) (limits : Limits) (host : Host) (call : CallId) :
    Phase → Option Host
  | .checkingProof signed challenge =>
      match checkSyncProof platform signed challenge with
      | some _ => some (host.succeed call challenge)
      | none => some (host.stop call)
  | .checkingJoin signed =>
      match checkJoinRequest platform signed with
      | .error _ => some (host.stop call)
      | .ok request => some (host.use limits call request.challenge (.joining request.challenge))
  | .checkingWrite signed record =>
      match checkPasskeyRecordWrite platform signed record with
      | .error _ => some (host.stop call)
      | .ok write =>
          if isRecordFor write record then
            some (host.use limits call write.challenge (.storing write.challenge))
          else some (host.stop call)
  | .joining _ | .storing _ => none

def step (platform : Platform) (limits : Limits) (host : Host) : Action → Option Host
  | .tick elapsed => some { host with now := host.now + elapsed }
  | .issue challenge =>
      some { host with
        issuedAt := issue limits host.issuedAt challenge host.now
        log := .issued challenge host.now :: host.log }
  | .upgrade call signed =>
      if (host.calls call).isSome then none
      else
        match signed with
        | none => some host
        | some proof =>
            match (proof.payload.get (js "challenge")).string? with
            | none => some host
            | some challenge => some (host.use limits call challenge (.checkingProof proof challenge))
  | .join call signed =>
      if (host.calls call).isSome then none
      else some { host with calls := host.calls.put call (.checkingJoin signed) }
  | .put call signed record =>
      if (host.calls call).isSome then none
      else
        match signed with
        | none => some host
        | some write => some { host with calls := host.calls.put call (.checkingWrite write record) }
  | .resume call => (host.calls call).bind (resume platform limits host call)
  | .finish call succeeded =>
      match host.calls call with
      | some (.joining challenge) | some (.storing challenge) =>
          some (if succeeded then host.succeed call challenge else host.stop call)
      | _ => none
  | .throw call => (host.calls call).map fun _ => host.stop call

end Tapes.Challenges
