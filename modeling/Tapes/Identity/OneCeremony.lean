import Tapes.Identity.CeremonyMessages
import Tapes.Machine.Run

namespace Tapes.Identity.Ceremony

open Tapes.Js Tapes.Machine

/-! One ceremony between a guest and the page in the tab it opened, with anybody else sending
messages: what the guest takes for a key is what the page's passkey gave to the guest's own request,
after the person confirmed it. -/

/-! ## Windows and messages -/

inductive Window where
  | guest
  | tab
  | elsewhere (name : Nat)
deriving DecidableEq

/-- A message on its way. A browser puts the source and its origin on it, and delivers it to a
document of the target's origin only, if one is named. -/
structure Mail where
  target : Window
  targetOrigin : Option JsString
  source : Option Window
  sourceOrigin : JsString
  data : JsValue

inductive PagePhase where
  | waiting
  | creating
  | using
  | answered
deriving DecidableEq

/-- One load of the page. `origin` is there while it listens, and the person is asked while a
pending request waits. -/
structure Page where
  load : Nat
  origin : Option JsString
  pending : Option (JsString × CeremonyRequest)
  phase : PagePhase

/-- Only this page is served at its origin. -/
inductive Document where
  | closed
  | foreign
  | page (page : Page)

inductive Noted where
  | asked (load : Nat) (origin : JsString) (request : CeremonyRequest)
  | confirmed (load : Nat)
  | gave (load : Nat) (rawId prf : Bytes)
  | posted (load : Nat)
deriving DecidableEq

/-- What is fixed for one ceremony. `pageHost` is the host name in `ceremonyOrigin`. -/
structure Setting where
  parseUrl : JsString → Option PageUrl
  pageHost : JsString
  guestOrigin : JsString
  ceremonyOrigin : JsString
  nonce : JsString
  request : GuestRequest

/-- `opener` is whether the tab still has the guest for its opener. `log` has the last note first. -/
structure Exchange where
  document : Document
  opener : Bool
  mails : List Mail
  outcome : Option Outcome
  loads : Nat
  log : List Noted

/-- `open` has given a tab, or none. -/
def Exchange.start (opened : Bool) : Exchange :=
  if opened then ⟨.foreign, true, [], none, 0, []⟩
  else ⟨.closed, false, [], some (.problem .blocked), 0, []⟩

variable {setting : Setting} {exchange next : Exchange} {page : Page}

/-! ## The page -/

def Exchange.post (exchange : Exchange) (mail : Mail) : Exchange :=
  { exchange with mails := mail :: exchange.mails }

def Exchange.note (exchange : Exchange) (noted : Noted) : Exchange :=
  { exchange with log := noted :: exchange.log }

def Exchange.show (exchange : Exchange) (page : Page) : Exchange :=
  { exchange with document := .page page }

def fromPage (setting : Setting) (targetOrigin : JsString) (data : JsValue) : Mail :=
  ⟨.guest, some targetOrigin, some .tab, setting.ceremonyOrigin, data⟩

/-- `start`: a page at another host, without an opener, or that is not told its origin, stops. -/
def load (setting : Setting) (exchange : Exchange) (hash : JsString) : Exchange :=
  let loaded := { exchange with loads := exchange.loads + 1 }
  match relyingPartyId setting.pageHost, openerOrigin setting.parseUrl hash, exchange.opener with
  | some _, some origin, true =>
      (loaded.show ⟨exchange.loads, some origin, none, .waiting⟩).post
        (fromPage setting origin readyMessage)
  | _, _, _ => loaded.show ⟨exchange.loads, none, none, .waiting⟩

def Exchange.openerWindow (exchange : Exchange) : Option Window :=
  if exchange.opener then some .guest else none

def received (exchange : Exchange) (page : Page) (source : Option Window) (sourceOrigin : JsString)
    (data : JsValue) : Exchange :=
  match page.origin with
  | none => exchange
  | some origin =>
      if source ≠ exchange.openerWindow ∨ sourceOrigin ≠ origin then exchange
      else
        match asRequest data with
        | none => exchange
        | some request =>
            if page.pending.isSome ∨ page.phase ≠ .waiting then exchange
            else
              (exchange.show { page with pending := some (origin, request) }).note
                (.asked page.load origin request)

/-- `post`, to the opener there still is. -/
def answer (setting : Setting) (exchange : Exchange) (page : Page)
    (data : JsString → JsValue) : Exchange :=
  let done := exchange.show { page with phase := .answered }
  match page.pending, exchange.opener with
  | some (origin, request), true =>
      (done.post (fromPage setting origin (data request.nonce))).note (.posted page.load)
  | _, _ => done

def reject (setting : Setting) (exchange : Exchange) (page : Page) (reason : Reason) : Exchange :=
  answer setting exchange page fun nonce => errorMessage nonce reason

def resolve (setting : Setting) (exchange : Exchange) (page : Page) (rpId : JsString)
    (rawId prf : Bytes) : Exchange :=
  match toBase64Url rawId, toBase64Url prf with
  | some credentialId, some encoded =>
      answer setting (exchange.note (.gave page.load rawId prf)) page
        fun nonce => resultMessage nonce rpId credentialId encoded
  | _, _ => reject setting exchange page .failed

/-- `run`, up to the prompt. -/
def confirm (setting : Setting) (exchange : Exchange) (page : Page) (supported : Bool) : Exchange :=
  match page.pending with
  | none => exchange
  | some (_, request) =>
      let confirmed := exchange.note (.confirmed page.load)
      if supported ∧ (relyingPartyId setting.pageHost).isSome then
        confirmed.show { page with phase := match request.action with
          | .create => .creating
          | .get => .using }
      else reject setting confirmed page .unsupported

/-- How a prompt of the browser ends. -/
inductive PasskeyAnswer where
  | credential (rawId : Bytes) (prf : Option Bytes)
  | threw (notAllowed : Bool)

/-- A new passkey without output is used once more. -/
def prompted (setting : Setting) (exchange : Exchange) (page : Page) : PasskeyAnswer → Exchange
  | .threw notAllowed => reject setting exchange page (if notAllowed then .declined else .failed)
  | .credential rawId (some prf) =>
      match relyingPartyId setting.pageHost with
      | some rpId => resolve setting exchange page rpId rawId prf
      | none => reject setting exchange page .unsupported
  | .credential _ none =>
      match page.phase with
      | .creating => exchange.show { page with phase := .using }
      | _ => reject setting exchange page .noPrf

/-! ## The guest -/

def Exchange.finish (exchange : Exchange) (outcome : Outcome) : Exchange :=
  match exchange.outcome with
  | some _ => exchange
  | none => { exchange with outcome := some outcome }

def guestReceived (setting : Setting) (exchange : Exchange) (source : Option Window)
    (sourceOrigin : JsString) (data : JsValue) : Exchange :=
  if exchange.outcome.isSome ∨ sourceOrigin ≠ setting.ceremonyOrigin ∨ source ≠ some .tab then exchange
  else
    match read setting.nonce data with
    | .ignored => exchange
    | .ready => exchange.post ⟨.tab, some setting.ceremonyOrigin, some .guest, setting.guestOrigin,
        requestMessage setting.nonce setting.request⟩
    | .outcome outcome => exchange.finish outcome

/-! ## Steps -/

inductive CeremonyStep where
  /-- The tab loads the page, whoever sent it there. -/
  | load (hash : JsString)
  | navigate
  | closeTab
  | sever
  | send (mail : Mail)
  /-- A source that has closed is not named any more. -/
  | deliver (index : Nat) (sourceGone : Bool)
  | confirm (supported : Bool)
  | cancel
  | prompted (answer : PasskeyAnswer)
  | poll
  | timeout

/-- A browser lets nobody send in the name of the guest, or of the page in the tab. -/
def Mail.isForged (setting : Setting) (mail : Mail) : Bool :=
  mail.source = some .guest ||
    (mail.source = some .tab && mail.sourceOrigin = setting.ceremonyOrigin)

def delivered (setting : Setting) (exchange : Exchange) (mail : Mail) (source : Option Window) :
    Exchange :=
  match mail.target, exchange.document with
  | .guest, _ =>
      if mail.targetOrigin.all (· = setting.guestOrigin) then
        guestReceived setting exchange source mail.sourceOrigin mail.data
      else exchange
  | .tab, .page page =>
      if mail.targetOrigin.all (· = setting.ceremonyOrigin) then
        received exchange page source mail.sourceOrigin mail.data
      else exchange
  | _, _ => exchange

def ceremonyStep (setting : Setting) (exchange : Exchange) : CeremonyStep → Option Exchange
  | .load hash =>
      match exchange.document with
      | .closed => none
      | _ => some (load setting exchange hash)
  | .navigate =>
      match exchange.document with
      | .closed => none
      | _ => some { exchange with document := .foreign }
  | .closeTab => some { exchange with document := .closed }
  | .sever => some { exchange with opener := false }
  | .send mail => if mail.isForged setting then none else some (exchange.post mail)
  | .deliver index sourceGone =>
      exchange.mails[index]?.map fun mail =>
        delivered setting { exchange with mails := exchange.mails.eraseIdx index } mail
          (if sourceGone then none else mail.source)
  | .confirm supported =>
      match exchange.document with
      | .page page =>
          if page.pending.isSome ∧ page.phase = .waiting then
            some (confirm setting exchange page supported)
          else none
      | _ => none
  | .cancel =>
      match exchange.document with
      | .page page =>
          if page.pending.isSome ∧ page.phase = .waiting then
            some (reject setting exchange page .declined)
          else none
      | _ => none
  | .prompted answer =>
      match exchange.document with
      | .page page =>
          if page.phase = .creating ∨ page.phase = .using then
            some (prompted setting exchange page answer)
          else none
      | _ => none
  | .poll =>
      match exchange.document with
      | .closed => some (exchange.finish (.problem .closed))
      | _ => none
  | .timeout =>
      match exchange.outcome with
      | some _ => none
      | none => some ({ exchange with document := .closed }.finish (.problem .timeout))

/-! ## The invariant -/

def Noted.posted? : Noted → Option Nat
  | .posted load => some load
  | .asked .. | .confirmed .. | .gave .. => none

/-- A passkey of the page's relying party gave this to a load of the page that had shown the person
the guest's origin and request, and was confirmed. -/
def Given (setting : Setting) (log : List Noted) (rpId : JsString) (rawId prf : Bytes) : Prop :=
  relyingPartyId setting.pageHost = some rpId ∧ ∃ load, .gave load rawId prf ∈ log ∧
    .confirmed load ∈ log ∧
    .asked load setting.guestOrigin (setting.request.asked setting.nonce) ∈ log

/-- What the page may have sent, to a document of which origin. -/
inductive PageSent (setting : Setting) (log : List Noted) : Option JsString → JsValue → Prop
  | ready (origin : Option JsString) : PageSent setting log origin readyMessage
  | error (nonce : JsString) (reason : Reason) :
      PageSent setting log (some setting.guestOrigin) (errorMessage nonce reason)
  | result {rpId credentialId encoded : JsString} {rawId prf : Bytes}
      (given : Given setting log rpId rawId prf) (spellsId : toBase64Url rawId = some credentialId)
      (spellsPrf : toBase64Url prf = some encoded) :
      PageSent setting log (some setting.guestOrigin)
        (resultMessage setting.nonce rpId credentialId encoded)

structure PageSound (setting : Setting) (exchange : Exchange) (page : Page) : Prop where
  pending : ∀ origin request, page.pending = some (origin, request) →
    .asked page.load origin request ∈ exchange.log ∧
      (exchange.opener = true →
        origin = setting.guestOrigin ∧ request = setting.request.asked setting.nonce)
  prompting : page.phase = .creating ∨ page.phase = .using → .confirmed page.load ∈ exchange.log
  silent : page.phase ≠ .answered → page.load ∉ exchange.log.filterMap Noted.posted?
  load : page.load < exchange.loads

structure Sound (setting : Setting) (exchange : Exchange) : Prop where
  guests : ∀ mail ∈ exchange.mails, mail.source = some .guest →
    mail.sourceOrigin = setting.guestOrigin ∧
      mail.data = requestMessage setting.nonce setting.request
  pages : ∀ mail ∈ exchange.mails, mail.source = some .tab →
    mail.sourceOrigin = setting.ceremonyOrigin →
      PageSent setting exchange.log mail.targetOrigin mail.data
  page : ∀ page, exchange.document = .page page → PageSound setting exchange page
  outcome : ∀ credentialId rpId prf, exchange.outcome = some (.ok credentialId rpId prf) →
    ∃ rawId, Given setting exchange.log rpId rawId prf ∧ toBase64Url rawId = some credentialId ∧
      prf.length = 32
  once : (exchange.log.filterMap Noted.posted?).Nodup
  loads : ∀ load ∈ exchange.log.filterMap Noted.posted?, load < exchange.loads

variable {log : List Noted} {noted : Noted} {data : JsValue} {mail : Mail} {rpId : JsString}
  {origin : Option JsString} {rawId prf : Bytes}

theorem Given.more (given : Given setting log rpId rawId prf) :
    Given setting (noted :: log) rpId rawId prf := by
  obtain ⟨party, load, gave, confirmed, asked⟩ := given
  exact ⟨party, load, List.mem_cons_of_mem _ gave, List.mem_cons_of_mem _ confirmed,
    List.mem_cons_of_mem _ asked⟩

theorem PageSent.more (sent : PageSent setting log origin data) :
    PageSent setting (noted :: log) origin data := by
  cases sent with
  | ready => exact .ready _
  | error nonce reason => exact .error nonce reason
  | result given spellsId spellsPrf => exact .result given.more spellsId spellsPrf

/-! ## Parts of a step -/

/-- A note that is no answer of the page. -/
theorem Sound.note (sound : Sound setting exchange) (silent : noted.posted? = none) :
    Sound setting (exchange.note noted) := by
  have posted : (noted :: exchange.log).filterMap Noted.posted? =
      exchange.log.filterMap Noted.posted? := by
    rw [List.filterMap_cons, silent]
  constructor
  · exact sound.guests
  · intro mail inside source origin
    exact (sound.pages mail inside source origin).more
  · intro page shows
    have before := sound.page page shows
    constructor
    · intro origin request pending
      obtain ⟨asked, own⟩ := before.pending origin request pending
      exact ⟨List.mem_cons_of_mem _ asked, own⟩
    · intro prompting
      exact List.mem_cons_of_mem _ (before.prompting prompting)
    · simp only [Exchange.note, posted]
      exact before.silent
    · exact before.load
  · intro credentialId rpId prf ok
    obtain ⟨rawId, given, spells, whole⟩ := sound.outcome credentialId rpId prf ok
    exact ⟨rawId, given.more, spells, whole⟩
  · simp only [Exchange.note, posted]
    exact sound.once
  · simp only [Exchange.note, posted]
    exact sound.loads

theorem Sound.show (sound : Sound setting exchange) (fine : PageSound setting exchange page) :
    Sound setting (exchange.show page) := by
  refine ⟨sound.guests, sound.pages, ?_, sound.outcome, sound.once, sound.loads⟩
  intro other shows
  cases shows
  exact ⟨fine.pending, fine.prompting, fine.silent, fine.load⟩

theorem Sound.post (sound : Sound setting exchange)
    (guest : mail.source = some .guest → mail.sourceOrigin = setting.guestOrigin ∧
      mail.data = requestMessage setting.nonce setting.request)
    (page : mail.source = some .tab → mail.sourceOrigin = setting.ceremonyOrigin →
      PageSent setting exchange.log mail.targetOrigin mail.data) : Sound setting (exchange.post mail) := by
  constructor
  · intro other inside
    rcases List.mem_cons.mp inside with rfl | before
    · exact guest
    · exact sound.guests other before
  · intro other inside
    rcases List.mem_cons.mp inside with rfl | before
    · exact page
    · exact sound.pages other before
  · intro page shows
    have before := sound.page page shows
    exact ⟨before.pending, before.prompting, before.silent, before.load⟩
  · exact sound.outcome
  · exact sound.once
  · exact sound.loads

/-- The page has answered: it holds the request still, and answers no more. -/
theorem PageSound.answered (fine : PageSound setting exchange page) :
    PageSound setting exchange { page with phase := .answered } := by
  constructor
  · exact fine.pending
  · intro prompting
    simp at prompting
  · intro other
    exact absurd rfl other
  · exact fine.load

theorem Sound.answer {answerData : JsString → JsValue} (sound : Sound setting exchange)
    (fine : PageSound setting exchange page) (silent : page.phase ≠ .answered)
    (honest : page.pending = some (setting.guestOrigin, setting.request.asked setting.nonce) →
      PageSent setting exchange.log (some setting.guestOrigin) (answerData setting.nonce)) :
    Sound setting (answer setting exchange page answerData) := by
  have done := sound.show fine.answered
  unfold Ceremony.answer
  split
  · rename_i origin request pending opener
    obtain ⟨rfl, rfl⟩ := (fine.pending origin request pending).2 opener
    have sent : Sound setting ((exchange.show { page with phase := .answered }).post
        (fromPage setting setting.guestOrigin (answerData setting.nonce))) := by
      apply done.post
      · intro guest
        cases guest
      · intro _ _
        exact honest pending
    have unposted := fine.silent silent
    have posted (log : List Noted) : (Noted.posted page.load :: log).filterMap Noted.posted? =
        page.load :: log.filterMap Noted.posted? := rfl
    constructor
    · exact sent.guests
    · intro mail inside source origin
      exact (sent.pages mail inside source origin).more
    · intro other shows
      cases shows
      have before := fine.answered
      refine ⟨?_, ?_, ?_, before.load⟩
      · intro origin request pending
        obtain ⟨asked, own⟩ := before.pending origin request pending
        exact ⟨List.mem_cons_of_mem _ asked, own⟩
      · intro prompting
        exact List.mem_cons_of_mem _ (before.prompting prompting)
      · intro other
        exact absurd rfl other
    · intro credentialId rpId prf ok
      obtain ⟨rawId, given, spells, whole⟩ := sent.outcome credentialId rpId prf ok
      exact ⟨rawId, given.more, spells, whole⟩
    · exact List.nodup_cons.mpr ⟨unposted, sent.once⟩
    · intro load inside
      rcases List.mem_cons.mp inside with rfl | before
      · exact fine.load
      · exact sent.loads load before
  · exact done

theorem Sound.reject {reason : Reason} (sound : Sound setting exchange)
    (fine : PageSound setting exchange page) (silent : page.phase ≠ .answered) :
    Sound setting (reject setting exchange page reason) :=
  sound.answer fine silent fun _ => .error _ _

theorem PageSound.note (sound : Sound setting exchange) (shows : exchange.document = .page page)
    (silent : noted.posted? = none) : PageSound setting (exchange.note noted) page :=
  (sound.note silent).page page shows

/-! ## Steps of the page -/

theorem Sound.load (sound : Sound setting exchange) (hash : JsString) :
    Sound setting (load setting exchange hash) := by
  have fresh : Sound setting { exchange with loads := exchange.loads + 1, document := .foreign } := by
    refine ⟨sound.guests, sound.pages, ?_, sound.outcome, sound.once, ?_⟩
    · intro page shows
      cases shows
    · intro load inside
      exact Nat.lt_succ_of_lt (sound.loads load inside)
  have loaded (origin : Option JsString) :
      Sound setting ({ exchange with loads := exchange.loads + 1 }.show
        ⟨exchange.loads, origin, none, .waiting⟩) := by
    apply fresh.show
    constructor
    · intro origin request pending
      cases pending
    · intro prompting
      simp at prompting
    · intro _ inside
      exact absurd (sound.loads _ inside) (Nat.lt_irrefl _)
    · exact Nat.lt_succ_self _
  unfold Ceremony.load
  split
  · apply (loaded _).post
    · intro guest
      cases guest
    · intro _ _
      exact .ready _
  · exact loaded none

/-- The page asks the person for the guest's own request, or has no opener to answer. -/
theorem Sound.received {source : Option Window} {sourceOrigin : JsString}
    (sound : Sound setting exchange) (hasNonce : setting.nonce ≠ [])
    (shows : exchange.document = .page page)
    (guest : source = some .guest → sourceOrigin = setting.guestOrigin ∧
      data = requestMessage setting.nonce setting.request) :
    Sound setting (received exchange page source sourceOrigin data) := by
  have fine := sound.page page shows
  unfold Ceremony.received
  split
  · exact sound
  · rename_i origin listening
    split
    · exact sound
    · rename_i verified
      obtain ⟨fromOpener, fromOrigin⟩ := not_or.mp verified
      rw [not_not] at fromOpener fromOrigin
      split
      · exact sound
      · rename_i request asks
        split
        · exact sound
        · rename_i free
          obtain ⟨-, waiting⟩ := not_or.mp free
          rw [not_not] at waiting
          have own : exchange.opener = true →
              origin = setting.guestOrigin ∧ request = setting.request.asked setting.nonce := by
            intro opener
            rw [Exchange.openerWindow, if_pos opener] at fromOpener
            obtain ⟨real, sent⟩ := guest fromOpener
            rw [sent, asRequest_requestMessage hasNonce, Option.some.injEq] at asks
            exact ⟨fromOrigin.symm.trans real, asks.symm⟩
          have noted : Sound setting (exchange.note (.asked page.load origin request)) :=
            sound.note rfl
          apply Sound.show noted
          constructor
          · intro other asked pending
            cases pending
            exact ⟨List.mem_cons_self, own⟩
          · intro prompting
            simp [waiting] at prompting
          · intro _
            exact fine.silent (by simp [waiting])
          · exact fine.load

theorem Sound.confirm (sound : Sound setting exchange) (shows : exchange.document = .page page)
    (waiting : page.phase = .waiting) (supported : Bool) :
    Sound setting (confirm setting exchange page supported) := by
  have fine := sound.page page shows
  have silent : page.phase ≠ .answered := by simp [waiting]
  unfold Ceremony.confirm
  split
  · exact sound
  · rename_i origin request pending
    have confirmed : Sound setting (exchange.note (.confirmed page.load)) := sound.note rfl
    have still := confirmed.page page shows
    dsimp only
    split
    · apply confirmed.show
      refine ⟨still.pending, ?_, ?_, still.load⟩
      · intro _
        exact List.mem_cons_self
      · intro _
        exact still.silent silent
    · exact confirmed.reject still silent

theorem Sound.resolve (sound : Sound setting exchange) (shows : exchange.document = .page page)
    (prompting : page.phase = .creating ∨ page.phase = .using)
    (party : relyingPartyId setting.pageHost = some rpId) (rawId prf : Bytes) :
    Sound setting (resolve setting exchange page rpId rawId prf) := by
  have fine := sound.page page shows
  have silent : page.phase ≠ .answered := by
    intro answered
    simp [answered] at prompting
  unfold Ceremony.resolve
  split
  · rename_i credentialId encoded spellsId spellsPrf
    have gave : Sound setting (exchange.note (.gave page.load rawId prf)) := sound.note rfl
    have still := gave.page page shows
    apply gave.answer still silent
    intro pending
    have asked := (still.pending _ _ pending).1
    exact .result ⟨party, page.load, List.mem_cons_self, still.prompting prompting, asked⟩ spellsId
      spellsPrf
  · exact sound.reject fine silent

theorem Sound.prompted (sound : Sound setting exchange) (shows : exchange.document = .page page)
    (prompting : page.phase = .creating ∨ page.phase = .using) (answer : PasskeyAnswer) :
    Sound setting (prompted setting exchange page answer) := by
  have fine := sound.page page shows
  have silent : page.phase ≠ .answered := by
    intro answered
    simp [answered] at prompting
  cases answer with
  | threw notAllowed => exact sound.reject fine silent
  | credential rawId given =>
      cases given with
      | some prf =>
          simp only [Ceremony.prompted]
          split
          · rename_i rpId party
            exact sound.resolve shows prompting party rawId prf
          · exact sound.reject fine silent
      | none =>
          simp only [Ceremony.prompted]
          split
          · apply sound.show
            refine ⟨fine.pending, fun _ => fine.prompting prompting, ?_, fine.load⟩
            intro _
            exact fine.silent silent
          · exact sound.reject fine silent

/-! ## Steps of the guest, and all of them -/

theorem Sound.guestReceived {source : Option Window} {sourceOrigin : JsString}
    (sound : Sound setting exchange)
    (page : source = some .tab → sourceOrigin = setting.ceremonyOrigin →
      PageSent setting exchange.log origin data) :
    Sound setting (guestReceived setting exchange source sourceOrigin data) := by
  unfold Ceremony.guestReceived
  split
  · exact sound
  · rename_i listens
    obtain ⟨unanswered, verified⟩ := not_or.mp listens
    obtain ⟨fromOrigin, fromTab⟩ := not_or.mp verified
    rw [not_not] at fromOrigin fromTab
    split
    · exact sound
    · apply sound.post
      · intro _
        exact ⟨rfl, rfl⟩
      · intro tab
        cases tab
    · rename_i outcome told
      have unsettled : exchange.outcome = none := by simpa using unanswered
      have settled : exchange.finish outcome = { exchange with outcome := some outcome } := by
        rw [Exchange.finish, unsettled]
      rw [settled]
      refine ⟨sound.guests, sound.pages, ?_, ?_, sound.once, sound.loads⟩
      · intro page shows
        have before := sound.page page shows
        exact ⟨before.pending, before.prompting, before.silent, before.load⟩
      · intro credentialId rpId prf ok
        cases ok
        cases page fromTab fromOrigin with
        | ready => cases told
        | error nonce reason =>
            obtain ⟨reason, refused⟩ := read_errorMessage_ne told
            cases refused
        | result given spellsId spellsPrf =>
            rw [read_resultMessage, if_pos rfl, result_resultMessage spellsPrf] at told
            split at told
            · rename_i whole
              cases told
              exact ⟨_, given, spellsId, whole⟩
            · cases told

theorem Sound.delivered {source : Option Window} (sound : Sound setting exchange)
    (hasNonce : setting.nonce ≠ [])
    (guest : source = some .guest → mail.sourceOrigin = setting.guestOrigin ∧
      mail.data = requestMessage setting.nonce setting.request)
    (page : source = some .tab → mail.sourceOrigin = setting.ceremonyOrigin →
      PageSent setting exchange.log mail.targetOrigin mail.data) :
    Sound setting (delivered setting exchange mail source) := by
  unfold Ceremony.delivered
  split
  · split
    · exact sound.guestReceived page
    · exact sound
  · rename_i shown shows
    split
    · exact sound.received hasNonce shows guest
    · exact sound
  · exact sound

theorem Sound.finish {problem : Problem} (sound : Sound setting exchange) :
    Sound setting (exchange.finish (.problem problem)) := by
  unfold Exchange.finish
  split
  · exact sound
  · refine ⟨sound.guests, sound.pages, ?_, ?_, sound.once, sound.loads⟩
    · intro page shows
      have before := sound.page page shows
      exact ⟨before.pending, before.prompting, before.silent, before.load⟩
    · intro credentialId rpId prf ok
      cases ok

/-- The tab shows something else than the page. -/
theorem Sound.leave {document : Document} (sound : Sound setting exchange)
    (other : ∀ page, document ≠ .page page) : Sound setting { exchange with document } := by
  refine ⟨sound.guests, sound.pages, ?_, sound.outcome, sound.once, sound.loads⟩
  intro page shows
  exact absurd shows (other page)

theorem Sound.step {action : CeremonyStep} (sound : Sound setting exchange)
    (hasNonce : setting.nonce ≠ []) (taken : ceremonyStep setting exchange action = some next) :
    Sound setting next := by
  cases action with
  | load hash =>
      simp only [ceremonyStep] at taken
      split at taken <;> cases taken
      exact sound.load hash
  | navigate =>
      simp only [ceremonyStep] at taken
      split at taken <;> cases taken
      exact sound.leave (by simp)
  | closeTab =>
      cases taken
      exact sound.leave (by simp)
  | sever =>
      cases taken
      refine ⟨sound.guests, sound.pages, ?_, sound.outcome, sound.once, sound.loads⟩
      intro page shows
      have before := sound.page page shows
      refine ⟨?_, before.prompting, before.silent, before.load⟩
      intro origin request pending
      refine ⟨(before.pending origin request pending).1, ?_⟩
      intro opener
      cases opener
  | send mail =>
      simp only [ceremonyStep] at taken
      split at taken
      · cases taken
      · rename_i honest
        cases taken
        simp only [Mail.isForged, Bool.or_eq_true, Bool.and_eq_true, decide_eq_true_eq, not_or,
          not_and] at honest
        apply sound.post
        · intro guest
          exact absurd guest honest.1
        · intro tab origin
          exact absurd origin (honest.2 tab)
  | deliver index sourceGone =>
      obtain ⟨mail, there, rfl⟩ := Option.map_eq_some_iff.mp taken
      have inside : mail ∈ exchange.mails := List.mem_of_getElem? there
      have fewer : Sound setting { exchange with mails := exchange.mails.eraseIdx index } := by
        refine ⟨?_, ?_, ?_, sound.outcome, sound.once, sound.loads⟩
        · intro other still
          exact sound.guests other (List.mem_of_mem_eraseIdx still)
        · intro other still
          exact sound.pages other (List.mem_of_mem_eraseIdx still)
        · intro page shows
          have before := sound.page page shows
          exact ⟨before.pending, before.prompting, before.silent, before.load⟩
      have named {window : Window} (source : (if sourceGone then none else mail.source) = some window) :
          mail.source = some window := by
        split at source
        · cases source
        · exact source
      apply fewer.delivered hasNonce
      · intro guest
        exact sound.guests mail inside (named guest)
      · intro tab
        exact sound.pages mail inside (named tab)
  | confirm supported =>
      simp only [ceremonyStep] at taken
      split at taken
      · rename_i page shows
        split at taken <;> cases taken
        rename_i asked
        exact sound.confirm shows asked.2 supported
      · cases taken
  | cancel =>
      simp only [ceremonyStep] at taken
      split at taken
      · rename_i page shows
        split at taken <;> cases taken
        rename_i asked
        exact sound.reject (sound.page page shows) (by simp [asked.2])
      · cases taken
  | prompted answer =>
      simp only [ceremonyStep] at taken
      split at taken
      · rename_i page shows
        split at taken <;> cases taken
        rename_i prompting
        exact sound.prompted shows prompting answer
      · cases taken
  | poll =>
      simp only [ceremonyStep] at taken
      split at taken <;> cases taken
      exact sound.finish
  | timeout =>
      simp only [ceremonyStep] at taken
      split at taken <;> cases taken
      exact (sound.leave (by simp)).finish

/-! ## Runs -/

theorem sound_start (opened : Bool) : Sound setting (.start opened) := by
  cases opened <;>
    exact ⟨by simp [Exchange.start], by simp [Exchange.start], by simp [Exchange.start],
      by simp [Exchange.start], List.nodup_nil, by simp [Exchange.start]⟩

/-- Whoever else sends messages, and wherever the tab goes: what the guest takes for a key is what a
passkey of the page's relying party gave to a load of the page that had shown the person the guest's
own origin and request and was confirmed; a page's answers go to documents of the guest's origin
only; and no load of the page answers twice. -/
theorem guest_takes_what_was_confirmed (setting : Setting) (hasNonce : setting.nonce ≠ [])
    (opened : Bool) (exchange : Exchange)
    (reached : Reaches (ceremonyStep setting) anyAction (.start opened) exchange) :
    (∀ credentialId rpId prf, exchange.outcome = some (.ok credentialId rpId prf) →
      ∃ rawId, Given setting exchange.log rpId rawId prf ∧ toBase64Url rawId = some credentialId ∧
        prf.length = 32) ∧
    (∀ mail ∈ exchange.mails, mail.source = some .tab → mail.sourceOrigin = setting.ceremonyOrigin →
      mail.data = readyMessage ∨ mail.targetOrigin = some setting.guestOrigin) ∧
    (exchange.log.filterMap Noted.posted?).Nodup := by
  have sound : Sound setting exchange :=
    reached.invariant (Sound setting) (sound_start opened) fun _ sound _ taken =>
      sound.step hasNonce taken
  refine ⟨sound.outcome, ?_, sound.once⟩
  intro mail inside tab page
  have sent := sound.pages mail inside tab page
  revert sent
  generalize mail.targetOrigin = origin
  generalize mail.data = data
  intro sent
  cases sent with
  | ready => exact .inl rfl
  | error nonce reason => exact .inr rfl
  | result given spellsId spellsPrf => exact .inr rfl

def sampleSetting : Setting where
  parseUrl text := some ⟨text, js "http:", js "localhost"⟩
  pageHost := js "localhost"
  guestOrigin := js "http://localhost"
  ceremonyOrigin := js "http://localhost:8080"
  nonce := js "once"
  request := ⟨.create, js "Studio", none, none, none⟩

/-- A new passkey that has no output before it is used, and one stranger that asks the page first. -/
def createsAKey : List CeremonyStep :=
  [.load (js "#o=http%3A%2F%2Flocalhost"),
    .send ⟨.tab, none, some (.elsewhere 0), js "http://localhost",
      requestMessage (js "theirs") sampleSetting.request⟩,
    .deliver 0 false, .deliver 0 false, .deliver 0 false, .confirm true,
    .prompted (.credential [1, 2] none), .prompted (.credential [1, 2] (some (List.replicate 32 7))),
    .deliver 0 false]

theorem a_key_is_taken : ∃ exchange : Exchange,
    run (ceremonyStep sampleSetting) (.start true) createsAKey = some exchange ∧
      exchange.outcome = some (.ok (js "AQI") (js "localhost") (List.replicate 32 7)) ∧
      ∃ rawId, Given sampleSetting exchange.log (js "localhost") rawId (List.replicate 32 7) ∧
        toBase64Url rawId = some (js "AQI") := by
  have ends : (run (ceremonyStep sampleSetting) (.start true) createsAKey).bind Exchange.outcome =
      some (.ok (js "AQI") (js "localhost") (List.replicate 32 7)) := by
    decide +kernel
  obtain ⟨exchange, ran, ends⟩ := Option.bind_eq_some_iff.mp ends
  have taken := guest_takes_what_was_confirmed sampleSetting (by decide) true exchange
    (.of_run ran (meetsAlong_anyAction _ _))
  obtain ⟨rawId, given, spells, -⟩ := taken.1 _ _ _ ends
  exact ⟨exchange, ran, ends, rawId, given, spells⟩

end Tapes.Identity.Ceremony
