import Tapes.Server.RouteVerdicts

namespace Tapes.Server

open Tapes.Js Tapes.Machine

/-! Every request target is answered, where it is a URL, where its path decodes and where no work of
a route throws. A static file always comes from inside the bundle. -/

variable {server : SyncServer} {parseUrl : JsString → Option Url} {request : Request} {url : Url}

/-! ## Static files -/

theorem Answered.weaken {allowed wider : JsString → Prop} {response : ServerResponse}
    (answered : Answered allowed response) (implies : ∀ path, allowed path → wider path) :
    Answered wider response :=
  ⟨answered.one, fun path content member => implies path (answered.inside path content member)⟩

theorem Answers.anywhere {handler : Handler Unit} (answers : Answers handler) (allowed : JsString → Prop) :
    Ensures Fresh handler (fun _ => Answered allowed) never :=
  Ensures.weaken answers (fun _ _ answered => answered.weaken fun _ => False.elim) fun _ _ => False.elim

variable {root : JsString}

theorem inside_indexPath (resolved : Path.Resolved root) : Path.Inside root (indexPath root) := by
  apply Path.inside_join_name resolved
  constructor
  · constructor
    · decide
    · decide
  · decide
  · decide

/-- The guard against path traversal, for any path at all. -/
theorem inside_filePath (resolved : Path.Resolved root) (requestedPath : JsString) :
    Path.Inside root (filePath root requestedPath) := by
  have candidate := Path.resolved_join resolved.absolute requestedPath
  simp only [filePath]
  split
  · rename_i check
    rcases check with same | starts
    · rw [same]
      exact Path.Inside.refl resolved
    · exact Path.Inside.of_startsWith candidate starts
  · exact inside_indexPath resolved

theorem ensures_serve (disk : Disk) {target : JsString} {allowed : JsString → Prop} (inside : allowed target) :
    Ensures Fresh (serve disk target) (fun _ => Answered allowed) fun _ => Fresh := by
  apply Ensures.bind (quiet_call (disk target))
  intro data
  apply Ensures.weaken (Ensures.bind (ensures_writeHead _ _) fun _ => ensures_finish _ ?_)
    (fun _ _ answered => answered) fun _ _ => False.elim
  intro path content same
  cases same
  exact inside

theorem answers_serveOrFallBack (first second : Disk) (resolved : Path.Resolved root)
    (requestedPath : JsString) :
    Ensures Fresh (serveOrFallBack first second root requestedPath)
      (fun _ => Answered (Path.Inside root)) never := by
  apply Ensures.tryCatch (ensures_serve first (inside_filePath resolved requestedPath))
  intro _
  apply Ensures.tryCatch (ensures_serve second (inside_indexPath resolved))
  intro _
  exact (answers_send _).anywhere _

/-! ## The routes of the server -/

def SyncServer.Claims (server : SyncServer) (pathname : JsString) : Prop :=
  isBlobPath pathname = true ∨ isEventPath pathname ∨ pathname = syncChallengePath ∨
    (server.vouching.isSome = true ∧ (matchRoute pathname).isSome = true) ∨
    (server.passkeyRecords.isSome = true ∧ isPasskeyPath pathname) ∨ isCaPath pathname

/-- No work of the two routes that catch nothing throws. -/
structure SyncServer.Works (server : SyncServer) (request : Request) (url : Url) : Prop where
  vouches : ∀ vouching, server.vouching = some vouching →
    ∀ route, matchRoute url.pathname = some route → Admitted request url server.pairingToken →
      vouching.Works request route
  passkeys : ∀ records, server.passkeyRecords = some records → isPasskeyPath url.pathname →
    Admitted request url server.pairingToken →
      records.Works request (decide (url.pathname = passkeyRecordFetchPath))

/-- The first letter of a path tells the routes apart. -/
def initial (pathname : JsString) : Option UInt16 := pathname[1]?

theorem initial_of_blob {pathname : JsString} (blob : isBlobPath pathname = true) :
    initial pathname = some 0x62 := by
  rw [isBlobPath, Bool.or_eq_true, decide_eq_true_eq, List.isPrefixOf_iff_prefix] at blob
  rcases blob with rfl | ⟨rest, rfl⟩
  · rfl
  · rfl

theorem initial_of_event {pathname : JsString} (event : isEventPath pathname) :
    initial pathname = some 0x65 := by
  rcases event with rfl | rfl
  · rfl
  · rfl

theorem initial_of_behind {path pathname rest : JsString} (found : behind path pathname = some rest)
    (long : 2 ≤ path.length) : initial pathname = initial path := by
  simp only [behind] at found
  split at found
  · rename_i front
    obtain ⟨rest, rfl⟩ := List.isPrefixOf_iff_prefix.mp front
    rw [initial, initial, List.append_assoc, List.getElem?_append_left (by omega)]
  · cases found

theorem initial_of_vouch {pathname : JsString} {route : VouchRoute}
    (matched : matchRoute pathname = some route) :
    initial pathname = some 0x70 ∨ initial pathname = some 0x76 := by
  have ofVouches {path rest : JsString} (found : behind path pathname = some rest)
      (isVouches : initial path = some 0x76) (long : 2 ≤ path.length) :
      initial pathname = some 0x70 ∨ initial pathname = some 0x76 :=
    .inr ((initial_of_behind found long).trans isVouches)
  unfold matchRoute at matched
  split at matched
  · rename_i same
    rw [same]
    exact .inl rfl
  · split at matched
    · rename_i same
      rw [same]
      exact .inl rfl
    · split at matched
      · rename_i same
        rw [same]
        exact .inr rfl
      · split at matched
        · rename_i address found
          obtain ⟨front, _⟩ := Option.filter_eq_some_iff.mp found
          exact ofVouches front rfl (by decide)
        · unfold matchVouch at matched
          split at matched
          · cases matched
          · rename_i rest front
            exact ofVouches front rfl (by decide)

theorem initial_of_challenge {pathname : JsString} (challenge : pathname = syncChallengePath) :
    initial pathname = some 0x63 := by
  rw [challenge]
  rfl

/-- Nobody before the vouch routes claims a vouch path. -/
theorem vouch_apart {pathname : JsString} {route : VouchRoute} (matched : matchRoute pathname = some route) :
    ¬ isBlobPath pathname = true ∧ ¬ isEventPath pathname ∧ pathname ≠ syncChallengePath := by
  have letter := initial_of_vouch matched
  refine ⟨fun blob => ?_, fun event => ?_, fun challenge => ?_⟩
  · rw [initial_of_blob blob] at letter
    revert letter
    decide
  · rw [initial_of_event event] at letter
    revert letter
    decide
  · rw [initial_of_challenge challenge] at letter
    revert letter
    decide

theorem passkey_apart {pathname : JsString} (passkey : isPasskeyPath pathname) :
    ¬ isBlobPath pathname = true ∧ ¬ isEventPath pathname ∧ pathname ≠ syncChallengePath ∧
      matchRoute pathname = none := by
  have letter : initial pathname = some 0x70 := by
    rcases passkey with rfl | rfl
    · rfl
    · rfl
  refine ⟨fun blob => ?_, fun event => ?_, fun challenge => ?_, ?_⟩
  · rw [initial_of_blob blob] at letter
    cases letter
  · rw [initial_of_event event] at letter
    cases letter
  · rw [initial_of_challenge challenge] at letter
    cases letter
  · rcases passkey with rfl | rfl
    · decide
    · decide

theorem handles_blob_route (server : SyncServer) (parsed : parseUrl request.target = some url) :
    Handles ((match server.blobStore with
      | some store => handleBlobRequest store server.pairingToken parseUrl
      | none => unavailableBlobRequestHandler parseUrl) request)
      (isBlobPath url.pathname = true) True := by
  cases server.blobStore with
  | none => exact handles_no_blobs parsed
  | some store => exact handles_blobs store parsed

theorem handles_event_route (server : SyncServer) (parsed : parseUrl request.target = some url) :
    Handles ((match server.eventStore with
      | some store => handleEventRequest store server.pairingToken parseUrl
      | none => unavailableEventRequestHandler parseUrl) request)
      (isEventPath url.pathname) True := by
  cases server.eventStore with
  | none => exact handles_no_events parsed
  | some store => exact handles_events store parsed

theorem handles_routes (server : SyncServer) (parsed : parseUrl request.target = some url) :
    Handles (tryRoutes request (server.routes parseUrl)) (server.Claims url.pathname)
      (server.Works request url) := by
  have all := handles_cons (handles_blob_route server parsed)
    (handles_cons (handles_event_route server parsed)
    (handles_cons (handles_challenge server.challenge server.pairingToken parsed)
      (handles_option server.vouching
        (fun vouching => handles_vouches vouching server.pairingToken parsed)
        (handles_option server.passkeyRecords
          (fun records => handles_passkeys records server.pairingToken parsed)
          (handles_cons (handles_ca server.certificate parsed) handles_nil)))))
  simp only [SyncServer.routes, List.cons_append, List.nil_append, List.append_assoc]
  apply all.congr
  · simp only [SyncServer.Claims, or_false]
  · intro _
    constructor
    · intro works
      refine ⟨fun _ => trivial, fun _ _ => ⟨fun _ => trivial, fun _ _ => ⟨fun _ => trivial, fun _ _ => ?_⟩⟩⟩
      refine ⟨fun vouching found _ => works.vouches vouching found, fun _ _ => ⟨works.passkeys, ?_⟩⟩
      exact fun _ _ => ⟨fun _ => trivial, fun _ other => other.elim⟩
    · intro chain
      constructor
      · intro vouching found route matched
        obtain ⟨noBlob, noEvent, noChallenge⟩ := vouch_apart matched
        have claims : server.vouching.isSome = true ∧ (matchRoute url.pathname).isSome = true := by
          rw [found, matched]
          exact ⟨rfl, rfl⟩
        have events := chain.2 noBlob (.inr (.inr (.inl claims)))
        have challenges := events.2 noEvent (.inr (.inl claims))
        exact (challenges.2 noChallenge (.inl claims)).1 vouching found claims.2 route matched
      · intro records found passkey
        obtain ⟨noBlob, noEvent, noChallenge, noVouch⟩ := passkey_apart passkey
        have claims : server.passkeyRecords.isSome = true ∧ isPasskeyPath url.pathname := by
          rw [found]
          exact ⟨rfl, passkey⟩
        have notVouch : ¬ (server.vouching.isSome = true ∧ (matchRoute url.pathname).isSome = true) := by
          rw [noVouch]
          exact fun other => by cases other.2
        have events := chain.2 noBlob (.inr (.inr (.inr (.inl claims))))
        have challenges := events.2 noEvent (.inr (.inr (.inl claims)))
        have vouches := challenges.2 noChallenge (.inr (.inl claims))
        exact (vouches.2 notVouch (.inl claims)).1 records found passkey

theorem throws_routes (server : SyncServer) (bad : parseUrl request.target = none) :
    Throws (tryRoutes request (server.routes parseUrl)) := by
  have first : Throws ((match server.blobStore with
      | some store => handleBlobRequest store server.pairingToken parseUrl
      | none => unavailableBlobRequestHandler parseUrl) request) := by
    cases server.blobStore with
    | none => exact (throws_newUrl bad).bind _
    | some store => exact (throws_newUrl bad).bind _
  exact first.bind _

/-! ## The handler -/

/-- The file lies below the resolved directory of the bundle. -/
def SyncServer.InBundle (server : SyncServer) (path : JsString) : Prop :=
  ∃ webClientPath, server.webClientPath = some webClientPath ∧
    Path.Inside (Path.resolve server.directory webClientPath) path

/-- It resolves with one response, and a static file comes from the bundle. What `EventStore`,
`Vouching` and `PasskeyRecords` answer is at most one reply by its type, so of these routes it says
that the reply is sent once, and that nothing is sent beside it. -/
def SyncServer.IsAnswered (server : SyncServer) : EStateM.Result Thrown ServerResponse Unit → Prop :=
  Meets (fun _ => Answered server.InBundle) never

/-- The target is a URL, no work throws that nobody catches, and the path decodes where a static
file is to be served. -/
def SyncServer.Answers (server : SyncServer) (parseUrl : JsString → Option Url) (request : Request) :
    Prop :=
  ∃ url, parseUrl request.target = some url ∧ server.Works request url ∧
    (¬ server.Claims url.pathname → server.webClientPath.getD [] ≠ [] →
      (decodeURIComponent url.pathname).isSome = true)

theorem ensures_serveWebClient (parsed : parseUrl request.target = some url) {webClientPath : JsString}
    (isPath : server.webClientPath = some webClientPath)
    (decodes : (decodeURIComponent url.pathname).isSome = true) :
    Ensures Fresh
      (serveWebClient server.firstRead server.secondRead
        (Path.resolve server.directory webClientPath) parseUrl request)
      (fun _ => Answered server.InBundle) never := by
  obtain ⟨decoded, isDecoded⟩ := Option.isSome_iff_exists.mp decodes
  simp only [serveWebClient, newUrl_eq parsed, pure_bind, isDecoded]
  have resolved := Path.resolved_resolve server.directory webClientPath
  apply Ensures.weaken (answers_serveOrFallBack _ _ resolved _) _ fun _ _ same => same
  exact fun _ _ answered => answered.weaken fun path inside => ⟨webClientPath, isPath, inside⟩

theorem ensures_answered (answers : server.Answers parseUrl request) :
    Ensures Fresh (createRequestHandler server parseUrl (server.routes parseUrl) request)
      (fun _ => Answered server.InBundle) never := by
  obtain ⟨url, parsed, works, decodes⟩ := answers
  have handles := handles_routes server parsed
  by_cases claimed : server.Claims url.pathname
  · apply Ensures.bind (handles.answers claimed works)
    intro value state ⟨same, answered⟩
    subst same
    exact answered.weaken fun _ => False.elim
  · apply (handles.declines claimed).bind
    simp only [Bool.false_eq_true, if_false]
    split
    · exact (answers_send _).anywhere _
    · exact (answers_send _).anywhere _
    · rename_i webClientPath notEmpty isPath
      have given : server.webClientPath.getD [] ≠ [] := by
        rw [isPath]
        exact notEmpty
      exact ensures_serveWebClient parsed isPath (decodes claimed given)

/-- A path that does not decode is refused before any file is looked for. -/
theorem throws_undecodable (parsed : parseUrl request.target = some url)
    (unclaimed : ¬ server.Claims url.pathname) (isServed : server.webClientPath.getD [] ≠ [])
    (undecodable : decodeURIComponent url.pathname = none) :
    Throws (createRequestHandler server parseUrl (server.routes parseUrl) request) := by
  apply ((handles_routes server parsed).declines unclaimed).bind
  simp only [Bool.false_eq_true, if_false]
  split
  · rename_i isPath
    rw [isPath] at isServed
    exact absurd rfl isServed
  · rename_i isPath
    rw [isPath] at isServed
    exact absurd rfl isServed
  · simp only [serveWebClient, newUrl_eq parsed, pure_bind, undecodable]
    exact Ensures.throw fun _ fresh => fresh

theorem works_of_unclaimed (unclaimed : ¬ server.Claims url.pathname) : server.Works request url where
  vouches := by
    intro vouching found route matched
    refine absurd (.inr (.inr (.inr (.inl ?_)))) unclaimed
    rw [found, matched]
    exact ⟨rfl, rfl⟩
  passkeys := by
    intro records found passkey
    refine absurd (.inr (.inr (.inr (.inr (.inl ?_))))) unclaimed
    rw [found]
    exact ⟨rfl, passkey⟩

theorem throws_unanswered (unanswered : ¬ server.Answers parseUrl request) :
    Throws (createRequestHandler server parseUrl (server.routes parseUrl) request) := by
  cases parsed : parseUrl request.target with
  | none => exact (throws_routes server parsed).bind _
  | some url =>
      by_cases claimed : server.Claims url.pathname
      · have broken : ¬ server.Works request url :=
          fun works => unanswered ⟨url, parsed, works, fun other => absurd claimed other⟩
        exact ((handles_routes server parsed).throws claimed broken).bind _
      · have works : server.Works request url := works_of_unclaimed claimed
        by_cases isServed : server.webClientPath.getD [] = []
        · exact absurd ⟨url, parsed, works, fun _ given => absurd isServed given⟩ unanswered
        · cases decoded : decodeURIComponent url.pathname with
          | none => exact throws_undecodable parsed claimed isServed decoded
          | some path =>
              refine absurd ⟨url, parsed, works, fun _ _ => ?_⟩ unanswered
              rw [decoded]
              rfl

theorem not_answered_of_throws
    (throws : Throws (createRequestHandler server parseUrl (server.routes parseUrl) request)) :
    ¬ server.IsAnswered (server.respond parseUrl request) := by
  intro answered
  have thrown := throws .fresh ⟨rfl, rfl⟩
  change Meets never _ (server.respond parseUrl request) at thrown
  cases result : server.respond parseUrl request with
  | ok value after =>
      rw [result] at thrown
      exact thrown
  | error error after =>
      rw [result] at answered
      exact answered

/-- A target is answered once, by a route, the health check or a file of the bundle, exactly when it
is a URL that decodes and no work of a route throws. -/
theorem target_is_answered_iff (server : SyncServer) (parseUrl : JsString → Option Url) (request : Request) :
    server.IsAnswered (server.respond parseUrl request) ↔ server.Answers parseUrl request := by
  constructor
  · intro answered
    by_contra unanswered
    exact not_answered_of_throws (throws_unanswered unanswered) answered
  · intro answers
    exact ensures_answered answers .fresh ⟨rfl, rfl⟩

/-- Whatever becomes of a request, a file that is served lies in the bundle. -/
theorem served_file_is_in_bundle (server : SyncServer) (parseUrl : JsString → Option Url)
    (request : Request) :
    Meets (fun _ after => ∀ path content, .served path content ∈ after.finished → server.InBundle path)
      (fun _ after => ∀ path content, .served path content ∈ after.finished → server.InBundle path)
      (server.respond parseUrl request) := by
  by_cases answers : server.Answers parseUrl request
  · apply (ensures_answered answers .fresh ⟨rfl, rfl⟩).weaken
    · exact fun _ _ answered => answered.inside
    · exact fun _ _ => False.elim
  · apply (throws_unanswered answers .fresh ⟨rfl, rfl⟩).weaken
    · exact fun _ _ => False.elim
    · intro _ after fresh path content member
      rw [fresh.2] at member
      cases member

/-! ## A stray percent sign -/

/-- A target with one slash in front and nothing in it that a URL parser changes is its own path. -/
def plainTarget (target : JsString) : Option Url :=
  match target with
  | 0x2F :: rest => if rest.head? ≠ some 0x2F ∧ ∀ unit ∈ rest, isIdUnit unit ∨ unit = 0x25 then
      some ⟨target, []⟩ else none
  | _ => none

def bareServer : SyncServer where
  webClientPath := some (js "/srv/web-client")
  blobStore := none
  eventStore := none
  challenge := []
  vouching := none
  passkeyRecords := none
  certificate := ⟨none, fun _ => []⟩
  pairingToken := none
  directory := ⟨js "/", rfl⟩
  firstRead := fun _ => none
  secondRead := fun _ => none

def getRequest (target : JsString) : Request where
  url := some target
  method := some (js "GET")
  authorization := none
  mediaType := []
  recordingUrl := none
  range := none
  body := ⟨[], false⟩

/-- `GET /%` rejects, and nothing is sent. -/
theorem stray_percent_is_not_answered : ¬ ∀ (server : SyncServer) (request : Request),
    server.IsAnswered (server.respond plainTarget request) := by
  intro answered
  have unclaimed : ¬ bareServer.Claims (js "/%") := by
    simp only [SyncServer.Claims, isEventPath, isPasskeyPath, isCaPath]
    decide
  have parsed : plainTarget (js "/%") = some ⟨js "/%", []⟩ := rfl
  have undecodable : decodeURIComponent (js "/%") = none := by decide +kernel
  have throws : Throws (createRequestHandler bareServer plainTarget (bareServer.routes plainTarget)
      (getRequest (js "/%"))) :=
    throws_undecodable parsed unclaimed (by decide) undecodable
  exact not_answered_of_throws throws (answered bareServer _)

end Tapes.Server
