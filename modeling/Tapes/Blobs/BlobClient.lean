import Tapes.Outbox.EventTarget

namespace Tapes.Blobs.Client

open Tapes.Js
open Tapes.Outbox (BlobEndpoint)

/-! The client's walk over the hosts: the first one that holds a blob, and why none does. -/

/-! ## One request -/

structure Response where
  status : Nat
  statusText : JsString
  /-- The `error` of a JSON body. -/
  error : Option JsString
  body : Bytes
  contentLength : Option Nat
  contentType : Option JsString

/-- What a host does when it is asked: it answers, stays silent past the deadline, or the `fetch` is
rejected. -/
inductive HostOutcome where
  | answers (response : Response)
  | silent
  | refuses

/-- A `BlobRequestError`, or what a rejected `fetch` throws. -/
inductive RequestFailure where
  | request (status : Nat) (message : JsString)
  | network

def Response.isOk (response : Response) : Bool :=
  decide (200 ≤ response.status) && decide (response.status ≤ 299)

def failure (response : Response) : RequestFailure :=
  .request response.status
    (if response.error.getD [] ≠ [] then response.error.getD [] else response.statusText)

def withResponseDeadline {α : Type} (endpoint : BlobEndpoint) (outcome : HostOutcome)
    (run : Response → Except RequestFailure α) : Except RequestFailure α :=
  match outcome with
  | .answers response => run response
  | .silent => .error (.request 408 (endpoint.baseUrl ++ js " did not respond"))
  | .refuses => .error .network

structure BlobHead where
  size : Nat
  mimeType : JsString

section

variable (answer : BlobEndpoint → HostOutcome)

def fetchBlob (endpoint : BlobEndpoint) : Except RequestFailure Bytes :=
  withResponseDeadline endpoint (answer endpoint) fun response =>
    if !response.isOk then .error (failure response) else .ok response.body

/-- None when the host has no such blob. The answer to a HEAD has no body to tell the error in. -/
def headBlob (endpoint : BlobEndpoint) : Except RequestFailure (Option BlobHead) :=
  withResponseDeadline endpoint (answer endpoint) fun response =>
    if response.status = 404 then .ok none
    else if !response.isOk then .error (failure { response with error := none })
    else .ok (some ⟨response.contentLength.getD 0,
      response.contentType.getD (js "application/octet-stream")⟩)

/-! ## Why it failed -/

inductive BlobAttempt where
  | status (code : Nat)
  | network
deriving DecidableEq

inductive BlobFailureReason where
  | unpaired
  | unauthorized
  | missing
  | unreachable
deriving DecidableEq

structure BlobFetchError where
  reason : BlobFailureReason
  attempts : List BlobAttempt
  cause : Option RequestFailure

def classifyBlobFailure (attempts : List BlobAttempt) : BlobFailureReason :=
  if .status 401 ∈ attempts ∨ .status 403 ∈ attempts then .unauthorized
  else if .network ∈ attempts then .unreachable
  else if .status 404 ∈ attempts then .missing
  else .unreachable

def attemptOf : RequestFailure → BlobAttempt
  | .request status _ => .status status
  | .network => .network

/-! ## The walks -/

/-- What a walk has noted of the hosts before. -/
structure Walk where
  missingFrom : List BlobEndpoint
  attempts : List BlobAttempt
  lastError : Option RequestFailure

def Walk.start : Walk := ⟨[], [], none⟩

def Walk.fails (walk : Walk) : BlobFetchError :=
  ⟨classifyBlobFailure walk.attempts, walk.attempts, walk.lastError⟩

structure BlobFetchResult where
  blob : Bytes
  host : BlobEndpoint
  missingFrom : List BlobEndpoint

structure BlobProbeResult where
  host : BlobEndpoint
  head : BlobHead
  missingFrom : List BlobEndpoint

/-- A host that failed with a 404 is one that lacks the blob. -/
def Walk.noteFetch (walk : Walk) (endpoint : BlobEndpoint) (failure : RequestFailure) : Walk where
  missingFrom :=
    if attemptOf failure = .status 404 then walk.missingFrom ++ [endpoint] else walk.missingFrom
  attempts := walk.attempts ++ [attemptOf failure]
  lastError := some failure

def fetchLoop (walk : Walk) : List BlobEndpoint → Except BlobFetchError BlobFetchResult
  | [] => .error walk.fails
  | endpoint :: rest =>
      match fetchBlob answer endpoint with
      | .ok blob => .ok ⟨blob, endpoint, walk.missingFrom⟩
      | .error failure => fetchLoop (walk.noteFetch endpoint failure) rest

def fetchBlobFromAny (endpoints : List BlobEndpoint) : Except BlobFetchError BlobFetchResult :=
  if endpoints = [] then .error ⟨.unpaired, [], none⟩ else fetchLoop answer .start endpoints

def probeLoop (walk : Walk) : List BlobEndpoint → Except BlobFetchError BlobProbeResult
  | [] => .error walk.fails
  | endpoint :: rest =>
      match headBlob answer endpoint with
      | .ok (some head) => .ok ⟨endpoint, head, walk.missingFrom⟩
      | .ok none =>
          probeLoop { walk with
            missingFrom := walk.missingFrom ++ [endpoint]
            attempts := walk.attempts ++ [.status 404] } rest
      | .error failure =>
          probeLoop { walk with
            attempts := walk.attempts ++ [attemptOf failure]
            lastError := some failure } rest

def probeBlobEndpoints (endpoints : List BlobEndpoint) : Except BlobFetchError BlobProbeResult :=
  if endpoints = [] then .error ⟨.unpaired, [], none⟩ else probeLoop answer .start endpoints

/-! ## What the hosts say -/

def HostOutcome.holds : HostOutcome → Bool
  | .answers response => response.isOk
  | _ => false

/-- How a host without the blob is noted. -/
def HostOutcome.attempt : HostOutcome → BlobAttempt
  | .answers response => .status response.status
  | .silent => .status 408
  | .refuses => .network

def HostOutcome.status? : HostOutcome → Option Nat
  | .answers response => some response.status
  | _ => none

/-- Refused connection, time-out or 5xx. -/
def HostOutcome.unreachable : HostOutcome → Bool
  | .answers response => decide (500 ≤ response.status) && decide (response.status ≤ 599)
  | .silent => true
  | .refuses => true

def lacking (endpoints : List BlobEndpoint) : List BlobEndpoint :=
  endpoints.filter fun endpoint => (answer endpoint).status? = some 404

/-- The first of the endpoints that has the blob, and the ones before it that answered 404. -/
def IsFirstHolder (endpoints : List BlobEndpoint) (host : BlobEndpoint)
    (missingFrom : List BlobEndpoint) : Prop :=
  ∃ before after, endpoints = before ++ host :: after ∧ (answer host).holds = true ∧
    (∀ endpoint ∈ before, (answer endpoint).holds = false) ∧ missingFrom = lacking answer before

/-- Both walks find the same host, or fail with the same attempts and a reason that is right. -/
def FetchAndProbeAgree (endpoints : List BlobEndpoint) : Prop :=
  match fetchBlobFromAny answer endpoints, probeBlobEndpoints answer endpoints with
  | .ok fetched, .ok probed =>
      fetched.host = probed.host ∧ fetched.missingFrom = probed.missingFrom ∧
        IsFirstHolder answer endpoints fetched.host fetched.missingFrom
  | .error fetched, .error probed =>
      fetched.attempts = probed.attempts ∧ fetched.reason = probed.reason ∧
        (∀ endpoint ∈ endpoints, (answer endpoint).holds = false) ∧
        ((∃ endpoint ∈ endpoints, (answer endpoint).status? = some 401 ∨
          (answer endpoint).status? = some 403) → fetched.reason = .unauthorized) ∧
        (fetched.reason = .missing →
          ∀ endpoint ∈ endpoints, (answer endpoint).unreachable = false)
  | _, _ => False

/-- No host has the blob, and a miss of one hides that another was silent or broken. -/
structure MissHidesUnreachable (endpoints : List BlobEndpoint) : Prop where
  nowhere : ∀ endpoint ∈ endpoints, (answer endpoint).holds = false
  accepted : ∀ endpoint ∈ endpoints, (answer endpoint).status? ≠ some 401 ∧
    (answer endpoint).status? ≠ some 403
  connected : ∀ endpoint ∈ endpoints, (answer endpoint).attempt ≠ .network
  missed : ∃ endpoint ∈ endpoints, (answer endpoint).status? = some 404
  unasked : ∃ endpoint ∈ endpoints, (answer endpoint).unreachable = true

/-! ## One host -/

variable {answer} {endpoint : BlobEndpoint}

theorem fetchBlob_holds (holds : (answer endpoint).holds = true) :
    ∃ blob, fetchBlob answer endpoint = .ok blob := by
  unfold fetchBlob withResponseDeadline
  cases outcome : answer endpoint with
  | answers response =>
      rw [outcome] at holds
      have ok : response.isOk = true := holds
      exact ⟨response.body, by simp [ok]⟩
  | silent => rw [outcome] at holds; cases holds
  | refuses => rw [outcome] at holds; cases holds

theorem fetchBlob_fails (lacks : (answer endpoint).holds = false) :
    ∃ failure, fetchBlob answer endpoint = .error failure ∧
      attemptOf failure = (answer endpoint).attempt := by
  unfold fetchBlob withResponseDeadline
  cases outcome : answer endpoint with
  | answers response =>
      rw [outcome] at lacks
      have notOk : response.isOk = false := lacks
      exact ⟨failure response, by simp [notOk], rfl⟩
  | silent => exact ⟨_, rfl, rfl⟩
  | refuses => exact ⟨_, rfl, rfl⟩

theorem headBlob_holds (holds : (answer endpoint).holds = true) :
    ∃ head, headBlob answer endpoint = .ok (some head) := by
  unfold headBlob withResponseDeadline
  cases outcome : answer endpoint with
  | answers response =>
      rw [outcome] at holds
      have ok : response.isOk = true := holds
      have present : response.status ≠ 404 := by
        intro same
        rw [Response.isOk, same] at ok
        cases ok
      exact ⟨_, by simp [ok, present]; rfl⟩
  | silent => rw [outcome] at holds; cases holds
  | refuses => rw [outcome] at holds; cases holds

/-- A 404 is no failure of the probe; it is noted all the same. -/
theorem headBlob_fails (lacks : (answer endpoint).holds = false) :
    (answer endpoint).attempt = .status 404 ∧ headBlob answer endpoint = .ok none ∨
      (answer endpoint).attempt ≠ .status 404 ∧ ∃ failure,
        headBlob answer endpoint = .error failure ∧ attemptOf failure = (answer endpoint).attempt := by
  unfold headBlob withResponseDeadline
  cases outcome : answer endpoint with
  | answers response =>
      rw [outcome] at lacks
      have notOk : response.isOk = false := lacks
      by_cases missing : response.status = 404
      · exact .inl ⟨congrArg _ missing, by simp [missing]⟩
      · refine .inr ⟨fun same => missing (BlobAttempt.status.inj same),
          failure { response with error := none }, ?_, rfl⟩
        simp [missing, notOk]
  | silent => exact .inr ⟨by decide, _, rfl, rfl⟩
  | refuses => exact .inr ⟨by decide, _, rfl, rfl⟩

theorem attempt_status_iff {outcome : HostOutcome} {code : Nat} (other : code ≠ 408) :
    outcome.attempt = .status code ↔ outcome.status? = some code := by
  cases outcome with
  | answers response => simp [HostOutcome.attempt, HostOutcome.status?]
  | silent =>
      simp only [HostOutcome.attempt, HostOutcome.status?, BlobAttempt.status.injEq, reduceCtorEq,
        iff_false]
      exact fun same => other same.symm
  | refuses => simp [HostOutcome.attempt, HostOutcome.status?]

/-! ## All hosts -/

variable {endpoints before : List BlobEndpoint} {host : BlobEndpoint}

theorem lacking_cons (endpoint : BlobEndpoint) (rest : List BlobEndpoint) :
    lacking answer (endpoint :: rest) =
      (if (answer endpoint).attempt = .status 404 then [endpoint] else []) ++ lacking answer rest := by
  unfold lacking
  by_cases missing : (answer endpoint).status? = some 404
  · rw [if_pos ((attempt_status_iff (by decide)).mpr missing)]
    exact List.filter_cons_of_pos (by simpa using missing)
  · rw [if_neg fun same => missing ((attempt_status_iff (by decide)).mp same)]
    exact List.filter_cons_of_neg (by simpa using missing)

/-- The loop past hosts without the blob. -/
theorem fetchLoop_past (walk : Walk) (lacks : ∀ endpoint ∈ before, (answer endpoint).holds = false)
    (rest : List BlobEndpoint) : ∃ cause, fetchLoop answer walk (before ++ rest) =
      fetchLoop answer ⟨walk.missingFrom ++ lacking answer before,
        walk.attempts ++ before.map fun endpoint => (answer endpoint).attempt, cause⟩ rest := by
  induction before generalizing walk with
  | nil => exact ⟨walk.lastError, by simp [lacking]⟩
  | cons endpoint others induction =>
      obtain ⟨first, later⟩ := List.forall_mem_cons.mp lacks
      obtain ⟨failure, fails, noted⟩ := fetchBlob_fails first
      obtain ⟨cause, whole⟩ := induction (walk.noteFetch endpoint failure) later
      refine ⟨cause, ?_⟩
      rw [List.cons_append, fetchLoop, fails]
      dsimp only
      rw [whole, lacking_cons]
      simp only [Walk.noteFetch, noted, List.map_cons, List.append_assoc, List.cons_append,
        List.nil_append]
      split <;> simp

theorem probeLoop_past (walk : Walk) (lacks : ∀ endpoint ∈ before, (answer endpoint).holds = false)
    (rest : List BlobEndpoint) : ∃ cause, probeLoop answer walk (before ++ rest) =
      probeLoop answer ⟨walk.missingFrom ++ lacking answer before,
        walk.attempts ++ before.map fun endpoint => (answer endpoint).attempt, cause⟩ rest := by
  induction before generalizing walk with
  | nil => exact ⟨walk.lastError, by simp [lacking]⟩
  | cons endpoint others induction =>
      obtain ⟨first, later⟩ := List.forall_mem_cons.mp lacks
      rw [List.cons_append, lacking_cons]
      rcases headBlob_fails first with ⟨missing, fails⟩ | ⟨present, failure, fails, noted⟩
      · obtain ⟨cause, whole⟩ := induction ⟨walk.missingFrom ++ [endpoint],
          walk.attempts ++ [.status 404], walk.lastError⟩ later
        refine ⟨cause, ?_⟩
        rw [probeLoop, fails]
        dsimp only
        rw [whole, if_pos missing, List.map_cons, missing]
        simp only [List.append_assoc, List.cons_append, List.nil_append]
      · obtain ⟨cause, whole⟩ := induction ⟨walk.missingFrom,
          walk.attempts ++ [attemptOf failure], some failure⟩ later
        refine ⟨cause, ?_⟩
        rw [probeLoop, fails]
        dsimp only
        rw [whole, if_neg present, List.map_cons, noted]
        simp only [List.append_assoc, List.cons_append, List.nil_append]

theorem fetchBlobFromAny_of_holder (holds : (answer host).holds = true)
    (lacks : ∀ endpoint ∈ before, (answer endpoint).holds = false) (after : List BlobEndpoint) :
    ∃ blob, fetchBlobFromAny answer (before ++ host :: after) =
      .ok ⟨blob, host, lacking answer before⟩ := by
  obtain ⟨cause, whole⟩ := fetchLoop_past .start lacks (host :: after)
  obtain ⟨blob, found⟩ := fetchBlob_holds holds
  refine ⟨blob, ?_⟩
  rw [fetchBlobFromAny, if_neg (by simp), whole, fetchLoop, found]
  rfl

theorem probeBlobEndpoints_of_holder (holds : (answer host).holds = true)
    (lacks : ∀ endpoint ∈ before, (answer endpoint).holds = false) (after : List BlobEndpoint) :
    ∃ head, probeBlobEndpoints answer (before ++ host :: after) =
      .ok ⟨host, head, lacking answer before⟩ := by
  obtain ⟨cause, whole⟩ := probeLoop_past .start lacks (host :: after)
  obtain ⟨head, found⟩ := headBlob_holds holds
  refine ⟨head, ?_⟩
  rw [probeBlobEndpoints, if_neg (by simp), whole, probeLoop, found]
  rfl

/-- The attempts at hosts without the blob, in their order. -/
def attempts (answer : BlobEndpoint → HostOutcome) (endpoints : List BlobEndpoint) : List BlobAttempt :=
  endpoints.map fun endpoint => (answer endpoint).attempt

theorem fetchBlobFromAny_of_none (nonempty : endpoints ≠ [])
    (lacks : ∀ endpoint ∈ endpoints, (answer endpoint).holds = false) :
    ∃ cause, fetchBlobFromAny answer endpoints =
      .error ⟨classifyBlobFailure (attempts answer endpoints), attempts answer endpoints, cause⟩ := by
  obtain ⟨cause, whole⟩ := fetchLoop_past .start lacks []
  rw [List.append_nil] at whole
  exact ⟨cause, by rw [fetchBlobFromAny, if_neg nonempty, whole]; rfl⟩

theorem probeBlobEndpoints_of_none (nonempty : endpoints ≠ [])
    (lacks : ∀ endpoint ∈ endpoints, (answer endpoint).holds = false) :
    ∃ cause, probeBlobEndpoints answer endpoints =
      .error ⟨classifyBlobFailure (attempts answer endpoints), attempts answer endpoints, cause⟩ := by
  obtain ⟨cause, whole⟩ := probeLoop_past .start lacks []
  rw [List.append_nil] at whole
  exact ⟨cause, by rw [probeBlobEndpoints, if_neg nonempty, whole]; rfl⟩

theorem mem_attempts_status {code : Nat} (other : code ≠ 408) :
    .status code ∈ attempts answer endpoints ↔
      ∃ endpoint ∈ endpoints, (answer endpoint).status? = some code := by
  simp only [attempts, List.mem_map, attempt_status_iff other]

theorem classifyBlobFailure_unauthorized
    (refused : ∃ endpoint ∈ endpoints, (answer endpoint).status? = some 401 ∨
      (answer endpoint).status? = some 403) :
    classifyBlobFailure (attempts answer endpoints) = .unauthorized := by
  obtain ⟨endpoint, member, status⟩ := refused
  rw [classifyBlobFailure, if_pos]
  rw [mem_attempts_status (by decide), mem_attempts_status (by decide)]
  exact status.imp (fun same => ⟨endpoint, member, same⟩) fun same => ⟨endpoint, member, same⟩

theorem classifyBlobFailure_eq_missing {noted : List BlobAttempt} :
    classifyBlobFailure noted = .missing ↔
      (.status 401 ∉ noted ∧ .status 403 ∉ noted) ∧ .network ∉ noted ∧ .status 404 ∈ noted := by
  rw [classifyBlobFailure, ← not_or]
  split
  · rename_i refused
    simp [refused]
  · rename_i accepted
    split
    · rename_i broken
      simp [broken]
    · rename_i connected
      split
      · rename_i missed
        simp [accepted, connected, missed]
      · rename_i answered
        simp [answered]

theorem classifyBlobFailure_missing_iff :
    classifyBlobFailure (attempts answer endpoints) = .missing ↔
      (∀ endpoint ∈ endpoints, (answer endpoint).status? ≠ some 401 ∧
        (answer endpoint).status? ≠ some 403) ∧
      (∀ endpoint ∈ endpoints, (answer endpoint).attempt ≠ .network) ∧
      ∃ endpoint ∈ endpoints, (answer endpoint).status? = some 404 := by
  have network : .network ∈ attempts answer endpoints ↔
      ∃ endpoint ∈ endpoints, (answer endpoint).attempt = .network := List.mem_map
  rw [classifyBlobFailure_eq_missing, mem_attempts_status (by decide),
    mem_attempts_status (by decide), mem_attempts_status (by decide), network]
  simp only [not_exists, not_and, ← forall_and]

/-! ## The property -/

theorem fetch_and_probe_agree_iff (answer : BlobEndpoint → HostOutcome)
    (endpoints : List BlobEndpoint) :
    FetchAndProbeAgree answer endpoints ↔ ¬ MissHidesUnreachable answer endpoints := by
  unfold FetchAndProbeAgree
  cases found : endpoints.find? fun endpoint => (answer endpoint).holds with
  | some host =>
      obtain ⟨holds, before, after, whole, lacks⟩ := List.find?_eq_some_iff_append.mp found
      have lacks' : ∀ endpoint ∈ before, (answer endpoint).holds = false := by
        intro endpoint member
        simpa using lacks endpoint member
      obtain ⟨blob, fetched⟩ := fetchBlobFromAny_of_holder holds lacks' after
      obtain ⟨head, probed⟩ := probeBlobEndpoints_of_holder holds lacks' after
      rw [whole, fetched, probed]
      constructor
      · intro _ hidden
        have lost := hidden.nowhere host (by simp)
        rw [holds] at lost
        cases lost
      · exact fun _ => ⟨rfl, rfl, before, after, rfl, holds, lacks', rfl⟩
  | none =>
      have lacks : ∀ endpoint ∈ endpoints, (answer endpoint).holds = false := by
        simpa using List.find?_eq_none.mp found
      by_cases empty : endpoints = []
      · rw [empty]
        constructor
        · intro _ hidden
          obtain ⟨endpoint, member, _⟩ := hidden.missed
          cases member
        · intro _
          refine ⟨rfl, rfl, by simp, by simp, by simp⟩
      · obtain ⟨fetchCause, fetched⟩ := fetchBlobFromAny_of_none empty lacks
        obtain ⟨probeCause, probed⟩ := probeBlobEndpoints_of_none empty lacks
        rw [fetched, probed]
        dsimp only
        rw [classifyBlobFailure_missing_iff]
        constructor
        · intro ⟨_, _, _, _, reachable⟩ hidden
          obtain ⟨endpoint, member, silent⟩ := hidden.unasked
          rw [reachable ⟨hidden.accepted, hidden.connected, hidden.missed⟩ endpoint member] at silent
          cases silent
        · intro shown
          refine ⟨rfl, rfl, lacks, classifyBlobFailure_unauthorized, ?_⟩
          intro ⟨accepted, connected, missed⟩ endpoint member
          rw [← Bool.not_eq_true]
          exact fun silent => shown ⟨lacks, accepted, connected, missed, endpoint, member, silent⟩

/-- One host stays silent and the other answers 404: the player is told that no host has it. -/
theorem silent_host_is_reported_missing :
    let answer : BlobEndpoint → HostOutcome := fun endpoint =>
      if endpoint.baseUrl = js "http://asleep" then .silent
      else .answers ⟨404, js "Not Found", none, [], none, none⟩
    let endpoints : List BlobEndpoint :=
      [⟨js "http://asleep", none, none⟩, ⟨js "http://awake", none, none⟩]
    (match fetchBlobFromAny answer endpoints with
      | .error error => error.reason = .missing
      | .ok _ => False) ∧ ¬ FetchAndProbeAgree answer endpoints := by
  intro answer endpoints
  have fetched : fetchBlobFromAny answer endpoints = .error ⟨.missing, [.status 408, .status 404],
      some (.request 404 (js "Not Found"))⟩ := rfl
  have probed : probeBlobEndpoints answer endpoints = .error ⟨.missing, [.status 408, .status 404],
      some (.request 408 (js "http://asleep did not respond"))⟩ := rfl
  refine ⟨by rw [fetched], ?_⟩
  unfold FetchAndProbeAgree
  rw [fetched, probed]
  intro ⟨_, _, _, _, reachable⟩
  have awake := reachable rfl ⟨js "http://asleep", none, none⟩ List.mem_cons_self
  have asleep : (answer ⟨js "http://asleep", none, none⟩).unreachable = true := rfl
  rw [asleep] at awake
  cases awake

end

end Tapes.Blobs.Client
