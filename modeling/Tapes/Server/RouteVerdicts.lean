import Tapes.Server.Verdicts

namespace Tapes.Server

open Tapes.Js Tapes.Machine

/-! What a route claims, and when it answers what it claims. -/

def Declines (route : Handler Bool) : Prop :=
  Ensures Fresh route (fun claimed after => claimed = false ∧ Fresh after) never

def Claims (route : Handler Bool) : Prop :=
  Ensures Fresh route (fun claimed after => claimed = true ∧ Answered nowhere after) never

/-- What a route claims, it answers where its own work goes through, and throws where not. -/
structure Handles (route : Handler Bool) (claims works : Prop) : Prop where
  declines : ¬ claims → Declines route
  answers : claims → works → Claims route
  throws : claims → ¬ works → Throws route

variable {parseUrl : JsString → Option Url} {request : Request} {url : Url} {token : Option JsString}
  {handler : Handler Unit} {claims works otherClaims otherWorks : Prop}

theorem Answers.claimed (answers : Answers handler) : Claims (do handler; return true) :=
  Ensures.bind answers fun _ => Ensures.pure fun _ answered => ⟨rfl, answered⟩

theorem Claims.ite {condition : Prop} [Decidable condition] {first second : Handler Bool}
    (yes : Claims first) (no : Claims second) : Claims (if condition then first else second) := by
  split
  · exact yes
  · exact no

theorem declines_false : Declines (pure false) := Ensures.pure fun _ fresh => ⟨rfl, fresh⟩

/-- A route that catches what its work throws, or has none that throws. -/
theorem Handles.of_safe {route : Handler Bool} (declines : ¬ claims → Declines route)
    (answers : claims → Claims route) : Handles route claims True where
  declines := declines
  answers := fun claimed _ => answers claimed
  throws := fun _ broken => absurd trivial broken

theorem newUrl_eq (parsed : parseUrl request.target = some url) : newUrl parseUrl request = pure url := by
  rw [newUrl, parsed]

theorem throws_newUrl (bad : parseUrl request.target = none) : Throws (newUrl parseUrl request) := by
  rw [newUrl, bad]
  exact Ensures.throw fun _ fresh => fresh

/-! ## Blobs and events -/

theorem handles_blobs (store : BlobStore) (parsed : parseUrl request.target = some url) :
    Handles (handleBlobRequest store token parseUrl request) (isBlobPath url.pathname = true) True := by
  simp only [handleBlobRequest, newUrl_eq parsed, pure_bind]
  apply Handles.of_safe
  · intro other
    rw [if_pos (Bool.not_eq_true _ ▸ other)]
    exact declines_false
  · intro claimed
    rw [if_neg (by simp [claimed])]
    apply Claims.ite (answers_sendStatus 204).claimed
    apply Claims.ite (answers_sendError _ _).claimed
    exact ((attempts_handleBlob store request url).recovered _).claimed

theorem handles_no_blobs (parsed : parseUrl request.target = some url) :
    Handles (unavailableBlobRequestHandler parseUrl request) (isBlobPath url.pathname = true) True := by
  simp only [unavailableBlobRequestHandler, newUrl_eq parsed, pure_bind]
  apply Handles.of_safe
  · intro other
    rw [if_pos (Bool.not_eq_true _ ▸ other)]
    exact declines_false
  · intro claimed
    rw [if_neg (by simp [claimed])]
    exact (answers_send _).claimed

def isEventPath (pathname : JsString) : Prop := pathname = eventsPath ∨ pathname = aggregatesPath

theorem handles_events (store : EventStore) (parsed : parseUrl request.target = some url) :
    Handles (handleEventRequest store token parseUrl request) (isEventPath url.pathname) True := by
  simp only [handleEventRequest, newUrl_eq parsed, pure_bind]
  apply Handles.of_safe
  · intro other
    rw [isEventPath, not_or] at other
    rw [if_pos ⟨other.2, other.1⟩]
    exact declines_false
  · intro claimed
    have inside : ¬ (¬ url.pathname = aggregatesPath ∧ url.pathname ≠ eventsPath) :=
      fun other => claimed.elim other.2 other.1
    rw [if_neg inside]
    apply Claims.ite (answers_sendStatus 204).claimed
    apply Claims.ite (answers_sendError _ _).claimed
    apply Claims.ite (answers_sendError _ _).claimed
    apply Claims.ite (answers_send _).claimed
    apply Answers.claimed
    apply Attempts.recovered
    exact Quiet.attempts (quiet_call _) fun reply => (answers_send reply).attempts

theorem handles_no_events (parsed : parseUrl request.target = some url) :
    Handles (unavailableEventRequestHandler parseUrl request) (isEventPath url.pathname) True := by
  simp only [unavailableEventRequestHandler, newUrl_eq parsed, pure_bind]
  apply Handles.of_safe
  · intro other
    rw [isEventPath, not_or] at other
    rw [if_pos other]
    exact declines_false
  · intro claimed
    have inside : ¬ (url.pathname ≠ eventsPath ∧ url.pathname ≠ aggregatesPath) :=
      fun other => claimed.elim other.1 other.2
    rw [if_neg inside]
    exact (answers_send _).claimed

/-! ## Challenges and the certificate -/

/-- A header that is set sends nothing. -/
theorem ensures_noStore : Ensures Fresh noStore (fun _ => Fresh) never :=
  Ensures.modify fun _ fresh => fresh

theorem handles_challenge (challenge : JsString) (token : Option JsString)
    (parsed : parseUrl request.target = some url) :
    Handles (handleSyncChallengeRequest challenge token parseUrl request)
      (url.pathname = syncChallengePath) True := by
  simp only [handleSyncChallengeRequest, newUrl_eq parsed, pure_bind]
  apply Handles.of_safe
  · intro other
    rw [if_pos other]
    exact declines_false
  · intro claimed
    rw [if_neg (not_not.mpr claimed)]
    apply Claims.ite (answers_sendStatus 204).claimed
    apply Claims.ite (answers_send _).claimed
    apply Claims.ite (answers_sendError _ _).claimed
    exact Ensures.bind ensures_noStore fun _ => (answers_sendJson _ _).claimed

def isCaPath (pathname : JsString) : Prop := pathname = caCertPath ∨ pathname = trustPagePath

theorem handles_ca (certificate : Certificate) (parsed : parseUrl request.target = some url) :
    Handles (handleCaRequest certificate parseUrl request) (isCaPath url.pathname) True := by
  simp only [handleCaRequest, newUrl_eq parsed, pure_bind]
  apply Handles.of_safe
  · intro other
    rw [isCaPath, not_or] at other
    rw [if_pos other]
    exact declines_false
  · intro claimed
    have inside : ¬ (url.pathname ≠ caCertPath ∧ url.pathname ≠ trustPagePath) :=
      fun other => claimed.elim other.1 other.2
    rw [if_neg inside]
    apply Claims.ite (answers_sendStatus 204).claimed
    apply Claims.ite (answers_send _).claimed
    apply Claims.ite (answers_send _).claimed
    split
    · exact (answers_sendError _ _).claimed
    · exact (answers_sendError _ _).claimed
    · exact (answers_send _).claimed

/-! ## Bodies -/

/-- The body comes whole, and what it asks for does not throw. -/
def PostWorks (body : RequestBody) (limit : Nat) (answer : JsValue → Option Reply) : Prop :=
  limit < body.bytes.length ∨ body.broken = false ∧
    ∀ value, (parse (utf8Decode body.bytes)).filter JsValue.isObjectLike = some value →
      (answer value).isSome = true

theorem answers_postJson {body : RequestBody} {limit : Nat} {malformed : Handler Unit}
    {answer : JsValue → Option Reply} (refuses : Answers malformed) (works : PostWorks body limit answer) :
    Answers (postJson body limit malformed answer) := by
  simp only [postJson, readJsonBody_eq]
  rcases works with large | ⟨whole, answers⟩
  · rw [if_pos large, pure_bind]
    exact refuses
  · split
    · rw [pure_bind]
      exact refuses
    · simp only [whole, Bool.false_eq_true, if_false, pure_bind]
      cases read : (parse (utf8Decode body.bytes)).filter JsValue.isObjectLike with
      | none => exact refuses
      | some value =>
          obtain ⟨reply, found⟩ := Option.isSome_iff_exists.mp (answers value read)
          simp only [found, call, pure_bind]
          exact answers_send reply

theorem throws_postJson {body : RequestBody} {limit : Nat} {malformed : Handler Unit}
    {answer : JsValue → Option Reply} (broken : ¬ PostWorks body limit answer) :
    Throws (postJson body limit malformed answer) := by
  rw [PostWorks, not_or] at broken
  obtain ⟨small, broken⟩ := broken
  simp only [postJson, readJsonBody_eq]
  rw [if_neg small]
  split
  · exact Throws.bind (Ensures.throw fun _ fresh => fresh) _
  · rename_i whole
    rw [pure_bind]
    cases read : (parse (utf8Decode body.bytes)).filter JsValue.isObjectLike with
    | none =>
        refine absurd ⟨Bool.not_eq_true _ ▸ whole, fun value found => ?_⟩ broken
        rw [read] at found
        cases found
    | some value =>
        cases answered : answer value with
        | none =>
            simp only [answered]
            exact Throws.bind throws_call _
        | some reply =>
            refine absurd ⟨Bool.not_eq_true _ ▸ whole, fun other found => ?_⟩ broken
            rw [read] at found
            cases found
            rw [answered]
            rfl

/-- A request that gets past the preflight and the token. -/
def Admitted (request : Request) (url : Url) (token : Option JsString) : Prop :=
  request.verb ≠ js "OPTIONS" ∧ isAuthorized request url token = true

/-- The preflight and the token come before the work of a route. -/
def gated (request : Request) (url : Url) (token : Option JsString) (work : Handler Bool) : Handler Bool :=
  if request.verb = js "OPTIONS" then do
    sendStatus 204
    return true
  else if isAuthorized request url token = false then do
    sendError 401 (js "Unauthorized")
    return true
  else do
    noStore
    work

theorem claims_gated {work : Handler Bool} (claims : Admitted request url token → Claims work) :
    Claims (gated request url token work) := by
  unfold gated
  split
  · exact (answers_sendStatus 204).claimed
  · rename_i method
    split
    · exact (answers_sendError _ _).claimed
    · rename_i authorized
      have admitted : Admitted request url token := ⟨method, by simpa using authorized⟩
      exact Ensures.bind ensures_noStore fun _ => claims admitted

theorem throws_gated {work : Handler Bool} (admitted : Admitted request url token) (throws : Throws work) :
    Throws (gated request url token work) := by
  rw [gated, if_neg admitted.1, if_neg (by simp [admitted.2])]
  exact Ensures.bind (ensures_noStore.weaken (fun _ _ fresh => fresh) fun _ _ => False.elim)
    fun _ => throws

/-! ## The roster and vouches -/

def Vouching.Reads (vouching : Vouching) : VouchRoute → Prop
  | .roster => vouching.roster.isSome = true
  | .vouchState address => (vouching.signedVouchState address).isSome = true
  | .status id => (vouching.status id).isSome = true
  | _ => True

def Vouching.Works (vouching : Vouching) (request : Request) (route : VouchRoute) : Prop :=
  (request.verb = js "GET" → vouching.Reads route) ∧
    (request.verb = js "POST" → route.readOnly = false →
      PostWorks request.body maxVouchBodyBytes (vouching.answer route))

variable {vouching : Vouching} {route : VouchRoute}

theorem answers_read {reading : Handler Unit} (reads : vouching.Reads route)
    (found : vouching.read route = some reading) : Answers reading := by
  cases route with
  | roster =>
      cases found
      obtain ⟨people, known⟩ := Option.isSome_iff_exists.mp reads
      simp only [known, call, pure_bind]
      exact answers_sendJson _ _
  | vouchState address =>
      cases found
      obtain ⟨state, known⟩ := Option.isSome_iff_exists.mp reads
      simp only [known, call, pure_bind]
      split
      · exact answers_sendError _ _
      · exact answers_sendJson _ _
  | status id =>
      cases found
      obtain ⟨status, known⟩ := Option.isSome_iff_exists.mp reads
      simp only [known, call, pure_bind]
      split
      · exact answers_sendError _ _
      · exact answers_sendJson _ _
  | pinChange | requests | pin id => cases found

theorem throws_read (broken : ¬ vouching.Reads route) :
    ∃ reading, vouching.read route = some reading ∧ Throws reading := by
  cases route with
  | roster =>
      have unread := Option.not_isSome_iff_eq_none.mp broken
      refine ⟨_, rfl, ?_⟩
      rw [unread]
      exact Throws.bind throws_call _
  | vouchState address =>
      have unread := Option.not_isSome_iff_eq_none.mp broken
      refine ⟨_, rfl, ?_⟩
      rw [unread]
      exact Throws.bind throws_call _
  | status id =>
      have unread := Option.not_isSome_iff_eq_none.mp broken
      refine ⟨_, rfl, ?_⟩
      rw [unread]
      exact Throws.bind throws_call _
  | pinChange | requests | pin id => exact absurd trivial broken

theorem answers_handle (works : vouching.Works request route) : Answers (vouching.handle request route) := by
  unfold Vouching.handle
  split
  · rename_i reading found
    split at found
    · rename_i isGet
      exact answers_read (works.1 isGet) found
    · cases found
  · split
    · exact answers_send _
    · rename_i posts
      rw [not_or, not_not, Bool.not_eq_true] at posts
      exact answers_postJson (answers_sendError _ _) (works.2 posts.1 posts.2)

theorem throws_handle (broken : ¬ vouching.Works request route) : Throws (vouching.handle request route) := by
  rw [Vouching.Works, not_and_or, Classical.not_imp, Classical.not_imp, Classical.not_imp] at broken
  unfold Vouching.handle
  rcases broken with ⟨isGet, unread⟩ | ⟨isPost, writes, unposted⟩
  · obtain ⟨reading, found, throws⟩ := throws_read unread
    simp only [isGet, if_true, found]
    exact throws
  · have notGet : ¬ request.verb = js "GET" := by
      rw [isPost]
      decide
    rw [if_neg notGet]
    simp only [isPost, writes, ne_eq, not_true_eq_false, Bool.false_eq_true, or_self, if_false]
    exact throws_postJson unposted

theorem handles_vouches (vouching : Vouching) (token : Option JsString)
    (parsed : parseUrl request.target = some url) :
    Handles (handleVouchRequest vouching token parseUrl request)
      ((matchRoute url.pathname).isSome = true)
      (∀ route, matchRoute url.pathname = some route → Admitted request url token →
        vouching.Works request route) := by
  cases matched : matchRoute url.pathname with
  | none =>
      have whole : handleVouchRequest vouching token parseUrl request = pure false := by
        simp only [handleVouchRequest, newUrl_eq parsed, pure_bind, matched]
      rw [whole]
      constructor
      · exact fun _ => declines_false
      · exact fun claimed => by cases claimed
      · exact fun claimed => by cases claimed
  | some route =>
      have whole : handleVouchRequest vouching token parseUrl request =
          gated request url token (do vouching.handle request route; return true) := by
        simp only [handleVouchRequest, newUrl_eq parsed, pure_bind, matched]
        rfl
      rw [whole]
      constructor
      · exact fun other => absurd rfl other
      · intro _ works
        exact claims_gated fun admitted => (answers_handle (works route rfl admitted)).claimed
      · intro _ broken
        simp only [Option.some.injEq, forall_eq', Classical.not_imp] at broken
        obtain ⟨admitted, broken⟩ := broken
        exact throws_gated admitted ((throws_handle broken).bind _)

/-! ## Passkey records -/

def isPasskeyPath (pathname : JsString) : Prop :=
  pathname = passkeyRecordFetchPath ∨ pathname = passkeyRecordsPath

def PasskeyRecords.Works (records : PasskeyRecords) (request : Request) (fetching : Bool) : Prop :=
  request.verb = js "POST" → PostWorks request.body maxPasskeyBodyBytes
    (if fetching then records.fetch else records.store)

theorem handles_passkeys (records : PasskeyRecords) (token : Option JsString)
    (parsed : parseUrl request.target = some url) :
    Handles (handlePasskeyRecordRequest records token parseUrl request) (isPasskeyPath url.pathname)
      (Admitted request url token →
        records.Works request (decide (url.pathname = passkeyRecordFetchPath))) := by
  have whole : handlePasskeyRecordRequest records token parseUrl request =
      if ¬ decide (url.pathname = passkeyRecordFetchPath) = true ∧ url.pathname ≠ passkeyRecordsPath then
        pure false
      else gated request url token
        (if request.verb ≠ js "POST" then do
          send ⟨405, allow "POST,OPTIONS", .empty⟩
          return true
        else do
          records.post request (decide (url.pathname = passkeyRecordFetchPath))
          return true) := by
    simp only [handlePasskeyRecordRequest, newUrl_eq parsed, pure_bind]
    rfl
  have inside (claimed : isPasskeyPath url.pathname) :
      ¬ (¬ decide (url.pathname = passkeyRecordFetchPath) = true ∧ url.pathname ≠ passkeyRecordsPath) :=
    fun other => claimed.elim (by simpa using other.1) other.2
  rw [whole]
  constructor
  · intro other
    rw [isPasskeyPath, not_or] at other
    rw [if_pos ⟨by simpa using other.1, other.2⟩]
    exact declines_false
  · intro claimed works
    rw [if_neg (inside claimed)]
    apply claims_gated
    intro admitted
    split
    · exact (answers_send _).claimed
    · rename_i isPost
      exact (answers_postJson (answers_sendJson _ _) (works admitted (not_not.mp isPost))).claimed
  · intro claimed broken
    simp only [PasskeyRecords.Works, Classical.not_imp] at broken
    obtain ⟨admitted, isPost, broken⟩ := broken
    rw [if_neg (inside claimed)]
    apply throws_gated admitted
    rw [if_neg (not_not.mpr isPost)]
    exact (throws_postJson broken).bind _

/-! ## All routes -/

theorem Handles.congr {route : Handler Bool} (handles : Handles route claims works)
    (sameClaims : otherClaims ↔ claims) (sameWorks : claims → (otherWorks ↔ works)) :
    Handles route otherClaims otherWorks where
  declines := fun other => handles.declines fun claimed => other (sameClaims.mpr claimed)
  answers := by
    intro claimed work
    have first := sameClaims.mp claimed
    exact handles.answers first ((sameWorks first).mp work)
  throws := by
    intro claimed broken
    have first := sameClaims.mp claimed
    exact handles.throws first fun work => broken ((sameWorks first).mpr work)

theorem handles_nil : Handles (tryRoutes request []) False True where
  declines := fun _ => declines_false
  answers := fun claimed => claimed.elim
  throws := fun claimed => claimed.elim

theorem Declines.bind {route : Handler Bool} {next : Bool → Handler α} {returned : α → ServerResponse → Prop}
    {thrown : Thrown → ServerResponse → Prop} (declines : Declines route)
    (rest : Ensures Fresh (next false) returned thrown) : Ensures Fresh (route >>= next) returned thrown := by
  apply Ensures.bind (declines.weaken (fun _ _ same => same) fun _ _ => False.elim)
  intro claimed state ⟨same, fresh⟩
  subst same
  exact rest state fresh

/-- The first route that claims a request settles it. -/
theorem handles_cons {route : RouteHandler} {rest : List RouteHandler}
    (first : Handles (route request) claims works)
    (others : Handles (tryRoutes request rest) otherClaims otherWorks) :
    Handles (tryRoutes request (route :: rest)) (claims ∨ otherClaims)
      ((claims → works) ∧ (¬ claims → otherClaims → otherWorks)) where
  declines := by
    intro neither
    rw [not_or] at neither
    exact (first.declines neither.1).bind (others.declines neither.2)
  answers := by
    intro claimed ⟨firstWorks, othersWork⟩
    by_cases mine : claims
    · apply Ensures.bind (first.answers mine (firstWorks mine))
      intro claimed state ⟨same, answered⟩
      subst same
      exact ⟨rfl, answered⟩
    · have yours := claimed.resolve_left mine
      exact (first.declines mine).bind (others.answers yours (othersWork mine yours))
  throws := by
    intro claimed broken
    by_cases mine : claims
    · refine (first.throws mine fun work => broken ⟨fun _ => work, fun other => absurd mine other⟩).bind _
    · have yours := claimed.resolve_left mine
      refine (first.declines mine).bind (others.throws yours fun work => broken ?_)
      exact ⟨fun other => absurd other mine, fun _ _ => work⟩

/-- A route that a server may lack. -/
theorem handles_option {ν : Type} (option : Option ν) {route : ν → RouteHandler} {rest : List RouteHandler}
    {works : ν → Prop} (each : ∀ value, Handles (route value request) claims (works value))
    (others : Handles (tryRoutes request rest) otherClaims otherWorks) :
    Handles (tryRoutes request ((option.map route).toList ++ rest))
      (option.isSome = true ∧ claims ∨ otherClaims)
      ((∀ value, option = some value → claims → works value) ∧
        (¬ (option.isSome = true ∧ claims) → otherClaims → otherWorks)) := by
  cases option with
  | none =>
      apply others.congr
      · simp
      · intro claimed
        simp [claimed]
  | some value =>
      apply (handles_cons (each value) others).congr
      · simp
      · simp

end Tapes.Server
