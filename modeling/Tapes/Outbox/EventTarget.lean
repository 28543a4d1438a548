import Tapes.Js.Text

namespace Tapes.Outbox

open Tapes.Js

/-! The host that a device sends its plays to, and the host that it reads play counts from.

Two precedence chains over one input decide them.  `new URL` is a parameter: nothing here depends
on how it splits a text.
-/

structure BlobEndpoint where
  baseUrl : JsString
  token : Option JsString
  isLocal : Option Bool
deriving DecidableEq

/-- What an embedded host advertises about itself. -/
structure SyncServerInfo where
  blobBaseUrl : Option JsString
  pairingToken : Option JsString

/-- `ResolveBlobEndpointInput`, which has the fields of `ResolveEventTargetInput`.  A flag that is
left out is false. -/
structure ResolveInput where
  syncServerInfo : Option SyncServerInfo
  origin : Option JsString
  servedByHost : Bool
  isDev : Bool
  remoteSyncServerUrl : Option JsString
  token : Option JsString

/-- The parts of a `URL` that are read. -/
structure Url where
  protocol : JsString
  host : JsString

/-- A text that a condition takes as true: neither missing nor empty. -/
def truthy (text : Option JsString) : Option JsString := text.filter (· ≠ [])

/-- `value.replace(/\/+$/, '')`. -/
def trimSlash (value : JsString) : JsString := (value.reverse.dropWhile (· == 0x2F)).reverse

section

variable (parseUrl : JsString → Option Url)

def deriveHttpOrigin (syncUrl : JsString) : Option JsString :=
  match parseUrl syncUrl with
  | none => none
  | some url =>
      if url.protocol ≠ js "ws:" ∧ url.protocol ≠ js "wss:" then none
      else some ((if url.protocol = js "wss:" then js "https" else js "http") ++ js "://" ++ url.host)

namespace ResolveInput

/-- The base of the embedded host's own surface. -/
def embedded (input : ResolveInput) : Option JsString :=
  (truthy (input.syncServerInfo.bind SyncServerInfo.blobBaseUrl)).map trimSlash

/-- The base of the page origin, when a host or a development server serves the page. -/
def servingOrigin (input : ResolveInput) : Option JsString :=
  if input.servedByHost || input.isDev then (truthy input.origin).map trimSlash else none

/-- The base of the remote host that the device is paired with. -/
def remote (input : ResolveInput) : Option JsString :=
  match truthy input.remoteSyncServerUrl, truthy input.token with
  | some syncUrl, some _ => deriveHttpOrigin parseUrl syncUrl
  | _, _ => none

end ResolveInput

/-! ## Sending plays -/

/-- The first endpoint of each base url. -/
def withoutRepeats (endpoints : List BlobEndpoint) : List BlobEndpoint :=
  (endpoints.zipIdx.filter fun (endpoint, index) =>
    endpoints.findIdx (·.baseUrl == endpoint.baseUrl) == index).map (·.1)

def resolveBlobEndpoints (input : ResolveInput) : List BlobEndpoint :=
  withoutRepeats <|
    (input.embedded.map fun baseUrl =>
      BlobEndpoint.mk baseUrl (input.syncServerInfo.bind SyncServerInfo.pairingToken)
        (some true)).toList ++
    (input.servingOrigin.map fun baseUrl => BlobEndpoint.mk baseUrl input.token none).toList ++
    ((input.remote parseUrl).map fun baseUrl => BlobEndpoint.mk baseUrl input.token none).toList

/-- The endpoint that plays of a recording are sent to. -/
def EventQueue.resolveEventTarget (_recordingUrl : JsString) (endpoints : List BlobEndpoint) :
    Option BlobEndpoint :=
  endpoints.find? (·.isLocal ≠ some true) <|> endpoints.head?

/-! ## Reading counts -/

inductive EventHost where
  | ipc
  | http (baseUrl : JsString) (token : Option JsString)
deriving DecidableEq

def EventTarget.resolveEventTarget (input : ResolveInput) : Option EventHost :=
  match input.remote parseUrl with
  | some derived => some (.http derived input.token)
  | none =>
      match input.embedded with
      | some _ => some .ipc
      | none => input.servingOrigin.map (EventHost.http · input.token)

end

/-! ## One host under several addresses -/

/-- A machine that answers requests. -/
inductive HostIdentity where
  | embedded
  | other (baseUrl : JsString)
deriving DecidableEq

/-- The host behind a base url.  A page that a development server serves reaches the embedded
host through that server's proxy. -/
def ResolveInput.hostAt (input : ResolveInput) (baseUrl : JsString) : HostIdentity :=
  match input.embedded with
  | none => .other baseUrl
  | some embedded =>
      if baseUrl = embedded ∨ (input.isDev ∧ input.servingOrigin = some baseUrl) then .embedded
      else .other baseUrl

def ResolveInput.hostOf (input : ResolveInput) : EventHost → HostIdentity
  | .ipc => .embedded
  | .http baseUrl _ => input.hostAt baseUrl

/-- What is sent goes to the host that is read from. -/
def WrittenWhereRead (parseUrl : JsString → Option Url) (input : ResolveInput) : Prop :=
  ∀ recordingUrl endpoint host,
    EventQueue.resolveEventTarget recordingUrl (resolveBlobEndpoints parseUrl input) =
      some endpoint →
    EventTarget.resolveEventTarget parseUrl input = some host →
    input.hostAt endpoint.baseUrl = input.hostOf host

/-- Reading asks a remote host first, and writing asks a serving page origin first.  So a page
origin that is in use must be the host that is read from. -/
def OriginIsTheCountedHost (parseUrl : JsString → Option Url) (input : ResolveInput) : Prop :=
  ∀ origin, input.servingOrigin = some origin →
    match input.remote parseUrl with
    | some derived =>
        input.embedded = some origin ∨ origin = derived ∨
          (input.isDev ∧ input.embedded = some derived)
    | none => input.embedded = none ∨ input.embedded = some origin ∨ input.isDev

/-- The base url that plays are sent to: the first of the page origin and the remote host that is
not the embedded host, and otherwise the embedded host. -/
def writtenBase (parseUrl : JsString → Option Url) (input : ResolveInput) : Option JsString :=
  input.servingOrigin.filter (some · ≠ input.embedded) <|>
    (input.remote parseUrl).filter (some · ≠ input.embedded) <|> input.embedded

@[simp] theorem withoutRepeats_nil : withoutRepeats [] = [] := rfl

@[simp] theorem withoutRepeats_cons (first : BlobEndpoint) (rest : List BlobEndpoint) :
    withoutRepeats (first :: rest) =
      first :: (withoutRepeats rest).filter (·.baseUrl ≠ first.baseUrl) := by
  have later (endpoint : BlobEndpoint) (index : Nat) :
      ((first :: rest).findIdx (·.baseUrl == endpoint.baseUrl) == index + 1) =
        (decide (endpoint.baseUrl ≠ first.baseUrl) &&
          rest.findIdx (·.baseUrl == endpoint.baseUrl) == index) := by
    by_cases same : first.baseUrl = endpoint.baseUrl
    · simp [List.findIdx_cons, same]
    · simp [List.findIdx_cons, beq_eq_false_iff_ne.mpr same, Ne.symm same]
  have head : (first :: rest).findIdx (·.baseUrl == first.baseUrl) = 0 := by
    simp [List.findIdx_cons]
  unfold withoutRepeats
  rw [List.zipIdx_cons', List.filter_cons, if_pos (by simp [head]), List.map_cons,
    List.filter_map, List.map_map, List.filter_map, List.filter_filter]
  congr 1
  have shifted : (fun (entry : BlobEndpoint × Nat) =>
        (first :: rest).findIdx (·.baseUrl == entry.1.baseUrl) == entry.2 + 1) =
      fun entry => decide (entry.1.baseUrl ≠ first.baseUrl) &&
        rest.findIdx (·.baseUrl == entry.1.baseUrl) == entry.2 :=
    funext fun entry => later entry.1 entry.2
  exact congrArg (fun kept => (rest.zipIdx.filter kept).map Prod.fst) shifted

theorem baseUrl_of_resolveEventTarget (parseUrl : JsString → Option Url) (input : ResolveInput)
    (recordingUrl : JsString) :
    (EventQueue.resolveEventTarget recordingUrl (resolveBlobEndpoints parseUrl input)).map
      BlobEndpoint.baseUrl = writtenBase parseUrl input := by
  unfold EventQueue.resolveEventTarget resolveBlobEndpoints writtenBase
  cases input.embedded with
  | none =>
      cases input.servingOrigin <;> cases input.remote parseUrl <;> simp [Option.filter_some]
  | some embedded =>
      cases input.servingOrigin with
      | none =>
          cases input.remote parseUrl with
          | none => simp
          | some derived => by_cases same : derived = embedded <;> simp [Option.filter_some, same]
      | some origin =>
          by_cases same : origin = embedded
          · cases input.remote parseUrl with
            | none => simp [Option.filter_some, same]
            | some derived =>
                by_cases derived_same : derived = embedded <;>
                  simp [Option.filter_some, same, derived_same]
          · cases input.remote parseUrl <;> simp [Option.filter_some, same]

/-- The two chains name one host exactly when what `writtenBase` says and the host that is read
from are one host. -/
theorem writtenWhereRead_iff_writtenBase (parseUrl : JsString → Option Url)
    (input : ResolveInput) :
    WrittenWhereRead parseUrl input ↔
      ∀ base host, writtenBase parseUrl input = some base →
        EventTarget.resolveEventTarget parseUrl input = some host →
        input.hostAt base = input.hostOf host := by
  apply Iff.intro
  · intro same base host written read
    rw [← baseUrl_of_resolveEventTarget parseUrl input []] at written
    obtain ⟨endpoint, picked, rfl⟩ := Option.map_eq_some_iff.mp written
    exact same [] endpoint host picked read
  · intro same recordingUrl endpoint host picked read
    apply same endpoint.baseUrl host _ read
    rw [← baseUrl_of_resolveEventTarget parseUrl input recordingUrl, picked, Option.map_some]

/-- Plays are written to the host that counts are read from exactly when a page origin in use is
that host. -/
theorem written_where_read_iff (parseUrl : JsString → Option Url) (input : ResolveInput) :
    WrittenWhereRead parseUrl input ↔ OriginIsTheCountedHost parseUrl input := by
  rw [writtenWhereRead_iff_writtenBase]
  unfold OriginIsTheCountedHost writtenBase EventTarget.resolveEventTarget ResolveInput.hostOf
    ResolveInput.hostAt
  cases input.servingOrigin with
  | none =>
      cases input.remote parseUrl with
      | none => cases input.embedded <;> simp
      | some derived =>
          cases input.embedded with
          | none => simp [Option.filter_some]
          | some embedded =>
              by_cases same : derived = embedded <;> simp [Option.filter_some, same]
  | some origin =>
      cases input.remote parseUrl with
      | none =>
          cases input.embedded with
          | none => simp [Option.filter_some]
          | some embedded =>
              by_cases same : origin = embedded
              · simp [Option.filter_some, same]
              · simp [Option.filter_some, same, Ne.symm same]
      | some derived =>
          cases input.embedded with
          | none => simp [Option.filter_some]
          | some embedded =>
              by_cases same : origin = embedded
              · by_cases derived_same : derived = embedded <;>
                  simp [Option.filter_some, same, derived_same]
              · by_cases derived_same : derived = embedded
                · simp [Option.filter_some, same, derived_same, Ne.symm same]
                · by_cases origin_derived : origin = derived
                  · simp [Option.filter_some, origin_derived, derived_same]
                  · cases input.isDev <;>
                      simp [Option.filter_some, same, derived_same, origin_derived,
                        Ne.symm same, Ne.symm derived_same]

/-! ## A page that one host serves, on a device paired with another -/

/-- `new URL` of the sync url that the settings name here. -/
def studioUrl (text : JsString) : Option Url :=
  if text = js "wss://studio.local:3000/sync" then some ⟨js "wss:", js "studio.local:3000"⟩
  else none

/-- The laptop serves the page, and the settings name the studio. -/
def laptopGuest : ResolveInput where
  syncServerInfo := none
  origin := some (js "https://laptop.local:3000")
  servedByHost := true
  isDev := false
  remoteSyncServerUrl := some (js "wss://studio.local:3000/sync")
  token := some (js "pairing-token")

theorem plays_to_laptop_counts_from_studio :
    ¬ ∀ parseUrl input, WrittenWhereRead parseUrl input := by
  intro same
  have laptop := same studioUrl laptopGuest []
    ⟨js "https://laptop.local:3000", some (js "pairing-token"), none⟩
    (.http (js "https://studio.local:3000") (some (js "pairing-token")))
    (by decide +kernel) (by decide +kernel)
  exact absurd laptop (by decide +kernel)

end Tapes.Outbox
