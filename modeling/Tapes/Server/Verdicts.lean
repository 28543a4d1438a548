import Tapes.Machine.Ensures
import Tapes.Server.RequestHandler

namespace Tapes.Server

open Tapes.Js Tapes.Machine

/-! What each route does with a request: it leaves it alone, answers it once, or throws. -/

/-- Nothing has been sent. -/
def Fresh (response : ServerResponse) : Prop := response.heads = [] ∧ response.finished = []

/-- One head and one end have been sent, and a static file only from a path that is allowed. -/
structure Answered (allowed : JsString → Prop) (response : ServerResponse) : Prop where
  one : ∃ head how, response.heads = [head] ∧ response.finished = [how]
  inside : ∀ path content, .served path content ∈ response.finished → allowed path

def nowhere (_ : JsString) : Prop := False

/-- It throws nothing. -/
def Answers (handler : Handler Unit) : Prop :=
  Ensures Fresh handler (fun _ => Answered nowhere) never

/-- What it throws, it throws before it sends anything. -/
def Attempts (handler : Handler Unit) : Prop :=
  Ensures Fresh handler (fun _ => Answered nowhere) fun _ => Fresh

def Throws (handler : Handler α) : Prop := Ensures Fresh handler never fun _ => Fresh

/-- It sends nothing. -/
def Quiet (handler : Handler α) : Prop := Ensures Fresh handler (fun _ => Fresh) fun _ => Fresh

variable {handler : Handler Unit} {value : α}

theorem Answers.attempts (answers : Answers handler) : Attempts handler :=
  answers.weaken (fun _ _ same => same) fun _ _ => False.elim

theorem Throws.bind {program : Handler α} (throws : Throws program) (next : α → Handler β) :
    Throws (program >>= next) :=
  Ensures.bind throws fun _ _ => False.elim

theorem Quiet.attempts {program : Handler α} (quiet : Quiet program) {next : α → Handler Unit}
    (rest : ∀ value, Attempts (next value)) : Attempts (program >>= next) :=
  Ensures.bind quiet rest

/-! ## Sending -/

theorem ensures_writeHead (status : Nat) (headers : List (JsString × JsString)) :
    Ensures Fresh (writeHead status headers)
      (fun _ after => (∃ head, after.heads = [head]) ∧ after.finished = []) never := by
  refine Ensures.bind (Ensures.get fun state fresh => ⟨rfl, fresh⟩ : Ensures Fresh get
    (fun value after => value = after ∧ Fresh after) never) ?_
  intro response state ⟨same, fresh⟩
  subst same
  simp only [fresh.1, if_true]
  exact ⟨⟨_, rfl⟩, fresh.2⟩

theorem ensures_finish (how : Finish) {allowed : JsString → Prop}
    (inside : ∀ path content, how = .served path content → allowed path) :
    Ensures (fun response => (∃ head, response.heads = [head]) ∧ response.finished = []) (finish how)
      (fun _ => Answered allowed) never := by
  refine Ensures.modify ?_
  intro state ⟨⟨head, written⟩, unfinished⟩
  have finished : state.finished ++ [how] = [how] := by rw [unfinished, List.nil_append]
  refine ⟨⟨head, how, written, finished⟩, ?_⟩
  intro path content member
  simp only [finished] at member
  exact inside path content (List.mem_singleton.mp member).symm

theorem answers_of_head (status : Nat) (headers : List (JsString × JsString)) {how : Finish}
    (noFile : ∀ path content, how ≠ .served path content) :
    Answers (do writeHead status headers; finish how) :=
  Ensures.bind (ensures_writeHead status headers) fun _ =>
    ensures_finish how fun path content same => noFile path content same

theorem answers_send (reply : Reply) : Answers (send reply) :=
  answers_of_head reply.status reply.headers (by simp)

theorem answers_sendStatus (status : Nat) : Answers (sendStatus status) := answers_send _

theorem answers_sendJson (status : Nat) (value : JsValue) : Answers (sendJson status value) :=
  answers_send _

theorem answers_sendError (status : Nat) (message : JsString) : Answers (sendError status message) :=
  answers_send _

theorem quiet_call (answer : Option α) : Quiet (call answer) := by
  cases answer with
  | none => exact Ensures.throw fun _ fresh => fresh
  | some value => exact Ensures.pure fun _ fresh => fresh

theorem throws_call : Throws (call (none : Option α)) := Ensures.throw fun _ fresh => fresh

theorem quiet_readBody (body : RequestBody) (limit : Nat) : Quiet (readBody body limit) := by
  unfold readBody
  split
  · exact Ensures.throw fun _ fresh => fresh
  · split
    · exact Ensures.throw fun _ fresh => fresh
    · exact Ensures.pure fun _ fresh => fresh

theorem readJsonBody_eq (body : RequestBody) (limit : Nat) : readJsonBody body limit =
    if limit < body.bytes.length then pure none
    else if body.broken then throw .failed
    else pure ((parse (utf8Decode body.bytes)).filter JsValue.isObjectLike) := by
  unfold readJsonBody readBody
  split
  · rfl
  · split
    · rfl
    · rfl

/-! ## The blob route -/

theorem attempts_answerTooLarge (error : Thrown) : Attempts (answerTooLarge error) := by
  cases error with
  | blobTooLarge limit => exact (answers_sendError _ _).attempts
  | _ => exact Ensures.throw fun _ fresh => fresh

theorem quiet_ingest (store : BlobStore) (body : RequestBody) (options : IngestOptions) :
    Quiet (store.ingest body options) := by
  unfold BlobStore.ingest
  split
  · exact Ensures.pure fun _ fresh => fresh
  · exact Ensures.throw fun _ fresh => fresh

/-- A body that is too large is answered there and then. -/
theorem ensures_readStatement (body : RequestBody) :
    Ensures Fresh
      (tryCatch (some <$> readBody body Uploads.maxStatementBytes) fun error => do
        answerTooLarge error
        return none)
      (fun bytes after => if bytes.isSome then Fresh after else Answered nowhere after)
      fun _ => Fresh := by
  have read : Ensures Fresh (some <$> readBody body Uploads.maxStatementBytes)
      (fun bytes after => if bytes.isSome then Fresh after else Answered nowhere after)
      fun _ => Fresh := by
    rw [map_eq_pure_bind]
    exact Ensures.bind (quiet_readBody _ _) fun bytes => Ensures.pure fun _ fresh => fresh
  apply Ensures.tryCatch read
  intro error
  exact Ensures.bind (attempts_answerTooLarge error) fun _ => Ensures.pure fun _ answered => answered

theorem attempts_handleStatementUpload (store : BlobStore) (request : Request) (docUrl : JsString)
    (forClaim : Option JsString) : Attempts (handleStatementUpload store request docUrl forClaim) := by
  apply Ensures.bind (ensures_readStatement request.body)
  intro bytes
  cases bytes with
  | none => exact Ensures.pure fun _ answered => answered
  | some bytes =>
      apply Quiet.attempts (quiet_call _)
      intro problem
      cases problem with
      | some problem => exact (answers_sendJson _ _).attempts
      | none => exact Quiet.attempts (quiet_ingest _ _ _) fun _ => (answers_sendJson _ _).attempts

theorem attempts_ingestAudio (store : BlobStore) (request : Request) (docUrl : JsString) :
    Attempts (ingestAudio store request docUrl) := by
  apply Quiet.attempts (quiet_ingest _ _ _)
  intro ingested
  apply Quiet.attempts (quiet_call _)
  intro (claim, statements)
  exact (answers_sendJson _ _).attempts

theorem attempts_handleUpload (store : BlobStore) (request : Request) (url : Url) :
    Attempts (handleUpload store request url) := by
  simp only [handleUpload]
  split
  · exact (answers_sendError _ _).attempts
  · split
    · exact (answers_sendError _ _).attempts
    · exact (answers_sendError _ _).attempts
    · apply Quiet.attempts (quiet_call _)
      intro total
      split
      · exact (answers_sendError _ _).attempts
      · split
        · exact attempts_handleStatementUpload store request _ _
        · exact Ensures.tryCatch (attempts_ingestAudio store request _) attempts_answerTooLarge

theorem attempts_handleDownload (store : BlobStore) (request : Request) (hash : JsString)
    (method : Blobs.Method) : Attempts (handleDownload store request hash method) := by
  apply Quiet.attempts (quiet_call _)
  intro stored
  apply Answers.attempts
  apply Ensures.bind (ensures_writeHead _ _)
  intro _
  split
  · exact ensures_finish _ (by simp)
  · exact ensures_finish _ (by simp)

theorem attempts_handleDelete (store : BlobStore) (url : Url) (hash : JsString) :
    Attempts (handleDelete store url hash) := by
  unfold handleDelete
  split
  · exact (answers_sendError _ _).attempts
  · exact (answers_sendError _ _).attempts
  · apply Quiet.attempts (quiet_call _)
    intro held
    split
    · exact Quiet.attempts (quiet_call _) fun _ => (answers_sendStatus _).attempts
    · exact (answers_sendError _ _).attempts

theorem attempts_handleBlob (store : BlobStore) (request : Request) (url : Url) :
    Attempts (handleBlob store request url) := by
  unfold handleBlob
  split
  · split
    · exact attempts_handleUpload store request url
    · exact (answers_sendError _ _).attempts
  · split
    · exact Ensures.throw fun _ fresh => fresh
    · split
      · exact (answers_sendError _ _).attempts
      · split
        · exact attempts_handleDownload store request _ _
        · split
          · exact attempts_handleDownload store request _ _
          · split
            · exact attempts_handleDelete store url _
            · exact (answers_sendError _ _).attempts

theorem answers_recover (message : JsString) : Answers (recover message) := by
  refine Ensures.bind (Ensures.get fun state fresh => ⟨rfl, fresh⟩ : Ensures Fresh get
    (fun value after => value = after ∧ Fresh after) never) ?_
  intro response state ⟨same, fresh⟩
  subst same
  simp only [fresh.1, if_true]
  exact answers_sendError 500 message response fresh

/-- What a route has caught, it answers. -/
theorem Attempts.recovered (attempts : Attempts handler) (message : JsString) :
    Answers (tryCatch handler fun _ => recover message) :=
  Ensures.tryCatch attempts fun _ => answers_recover message

end Tapes.Server
