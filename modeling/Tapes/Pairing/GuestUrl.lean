import Tapes.Js.Uri
import Tapes.Pairing.Fingerprint
import Tapes.Pairing.LoneSurrogates

namespace Tapes.Pairing

open Tapes.Js
open Tapes.Provenance (toBase64Url InAlphabet base64UrlAlphabet)

/-! The link that the host shows as a QR code, and what its query gives back. -/

structure GuestUrlOptions where
  lanWebAppUrl : Option JsString
  /-- None until this device has a document. -/
  automergeUrl : Option JsString
  pairingToken : Option JsString
  rootCertFingerprint : Option JsString
  hostKey : Option JsString
  hostName : Option JsString

inductive LinkError where
  | notAFingerprint
  | malformedUri
  deriving DecidableEq

/-- A string that is there and is not empty. -/
def truthy (value : Option JsString) : Option JsString := value.filter fun text => decide (text ≠ [])

def escaped (text : JsString) : Except LinkError JsString :=
  match encodeURIComponent text with
  | some spelled => .ok spelled
  | none => .error .malformedUri

def fingerprintText (fingerprint : JsString) : Except LinkError JsString :=
  match encodeFingerprint fingerprint with
  | some spelled => .ok spelled
  | none => .error .notAFingerprint

/-- A parameter is left out where there is no value for it. -/
def appendParam (name : JsString) (spell : JsString → Except LinkError JsString)
    (value : Option JsString) (url : JsString) : Except LinkError JsString :=
  match value with
  | none => .ok url
  | some text => (spell text).map fun spelled => url ++ [0x26] ++ writeParam name spelled

def pairingFingerprintParam : JsString := js "fp"

def pairingHostKeyParam : JsString := js "hk"

def pairingHostNameParam : JsString := js "hn"

/-- The Automerge url and the host key are written as they are. -/
def buildGuestUrl (options : GuestUrlOptions) : Except LinkError (Option JsString) :=
  match truthy options.lanWebAppUrl, truthy options.automergeUrl with
  | some lanWebAppUrl, some automergeUrl => do
      let url := lanWebAppUrl ++ js "/?" ++ writeParam (js "am") automergeUrl
      let url ← appendParam (js "pt") escaped (truthy options.pairingToken) url
      let url ← appendParam pairingFingerprintParam fingerprintText
        (truthy options.rootCertFingerprint) url
      let url ← appendParam pairingHostKeyParam .ok (truthy options.hostKey) url
      let url ← appendParam pairingHostNameParam escaped (options.hostName.bind sanitizeLabel) url
      return some url
  | _, _ => .ok none

/-- A link's query: what follows the slash, up to a fragment. -/
def linkQuery (lanWebAppUrl link : JsString) : JsString :=
  (link.drop (lanWebAppUrl ++ js "/?").length).takeWhile (· ≠ 0x23)

/-! ## What goes in and what comes back -/

def base58 : JsString := js "123456789ABCDEFGHJKLMNPQRSTUVWXYZabcdefghijkmnopqrstuvwxyz"

/-- A document's id, and after a `#` the heads it is seen at. -/
def IsAutomergeUrl (url : JsString) : Prop :=
  ∃ documentId heads, url = js "automerge:" ++ documentId ++ heads ∧
    documentId ≠ [] ∧ (∀ unit ∈ documentId, unit ∈ base58) ∧
    (heads = [] ∨ ∃ rest, heads = 0x23 :: rest ∧ ∀ unit ∈ rest, unit ∈ base58 ∨ unit = 0x7C)

structure Pairable (options : GuestUrlOptions) (lanWebAppUrl automergeUrl : JsString) : Prop where
  lan : options.lanWebAppUrl = some lanWebAppUrl
  reachable : lanWebAppUrl ≠ []
  document : options.automergeUrl = some automergeUrl
  automerge : IsAutomergeUrl automergeUrl
  token : ∀ token ∈ options.pairingToken, wellFormed token = true
  fingerprint : ∀ fingerprint ∈ options.rootCertFingerprint,
    (hexToBytes (withoutColons fingerprint)).isSome
  hostKey : ∀ key ∈ options.hostKey, InAlphabet key

structure GivesBack (options : GuestUrlOptions) (params : List (JsString × JsString)) : Prop where
  am : getParam params (js "am") = options.automergeUrl
  pt : getParam params (js "pt") = truthy options.pairingToken
  fp : getParam params pairingFingerprintParam =
    (truthy options.rootCertFingerprint).bind encodeFingerprint
  hk : getParam params pairingHostKeyParam = truthy options.hostKey
  hn : getParam params pairingHostNameParam = options.hostName.bind sanitizeLabel
  absent : getParam params pairingHostNameParam = none →
    ∀ name ∈ options.hostName, NothingWithinReach name

/-- The link is built, and its query gives everything back. -/
def LinkGivesBack (options : GuestUrlOptions) (lanWebAppUrl : JsString) : Prop :=
  ∃ link, buildGuestUrl options = .ok (some link) ∧
    GivesBack options (parseQuery (linkQuery lanWebAppUrl link))

/-! ## One parameter -/

variable {options : GuestUrlOptions} {lanWebAppUrl automergeUrl : JsString}

/-- The pieces of a query that a parameter adds, and what they are read as. -/
structure Written (name : JsString) (value : Option JsString) (pieces : List JsString) : Prop where
  whole : ∀ piece ∈ pieces, piece ≠ [] ∧ ∀ unit ∈ piece, unit ∉ ([0x23, 0x26] : List UInt16)
  reads : pieces.map parseParam = (value.map fun text => (name, text)).toList

theorem writeParam_apart {name spelled value : JsString} (plain : ∀ unit ∈ name, IsPlainUnit unit)
    (reads : Spelled spelled value) : writeParam name spelled ≠ [] ∧
      ∀ unit ∈ writeParam name spelled, unit ∉ ([0x23, 0x26] : List UInt16) := by
  refine ⟨by simp [writeParam], ?_⟩
  intro unit member
  rw [writeParam, List.mem_append, List.mem_cons] at member
  rcases member with inside | equal | inside
  · have others := (plain unit inside).2
    simp only [List.mem_cons, List.not_mem_nil, or_false, not_or] at others ⊢
    exact ⟨others.1, others.2.2.1⟩
  · rw [equal]
    decide
  · exact reads.apart unit inside

theorem appendParam_written {name : JsString} {spell : JsString → Except LinkError JsString}
    (reading : JsString → JsString) {value : Option JsString} (plain : ∀ unit ∈ name, IsPlainUnit unit)
    (spells : ∀ text ∈ value, ∃ spelled, spell text = .ok spelled ∧ Spelled spelled (reading text))
    (url : JsString) : ∃ pieces, appendParam name spell value url =
      .ok (url ++ pieces.flatMap (0x26 :: ·)) ∧ Written name (value.map reading) pieces := by
  cases value with
  | none =>
      refine ⟨[], ?_, ⟨by simp, rfl⟩⟩
      rw [List.flatMap_nil, List.append_nil]
      rfl
  | some text =>
      obtain ⟨spelled, isSpelled, reads⟩ := spells text rfl
      refine ⟨[writeParam name spelled], ?_, ⟨?_, ?_⟩⟩
      · simp [appendParam, isSpelled, Except.map]
      · intro piece member
        rw [List.mem_singleton.mp member]
        exact writeParam_apart plain reads
      · simp only [List.map_cons, List.map_nil, parseParam_writeParam plain reads, Option.map_some,
          Option.toList_some]

theorem escaped_spells {text : JsString} (valid : wellFormed text = true) :
    ∃ spelled, escaped text = .ok spelled ∧ Spelled spelled text := by
  obtain ⟨spelled, encoded, reads⟩ := encodeURIComponent_of_wellFormed valid
  exact ⟨spelled, by rw [escaped, encoded], reads⟩

theorem spelled_inAlphabet {text : JsString} (letters : InAlphabet text) : Spelled text text := by
  have all : ∀ unit ∈ base64UrlAlphabet, IsPlainUnit unit := by decide
  exact spelled_plain fun unit member => all unit (letters unit member)

theorem fingerprintText_spells {fingerprint : JsString}
    (valid : (hexToBytes (withoutColons fingerprint)).isSome) :
    ∃ spelled, fingerprintText fingerprint = .ok spelled ∧
      encodeFingerprint fingerprint = some spelled ∧ Spelled spelled spelled := by
  obtain ⟨bytes, accepted⟩ := Option.isSome_iff_exists.mp valid
  have encoded := encodeFingerprint_eq accepted
  exact ⟨_, by rw [fingerprintText, encoded], encoded,
    spelled_inAlphabet (Provenance.inAlphabet_toBase64Url bytes)⟩

theorem mem_truthy {value : Option JsString} {text : JsString} (member : text ∈ truthy value) :
    text ∈ value ∧ text ≠ [] := by
  rw [Option.mem_def, truthy, Option.filter_eq_some_iff] at member
  exact ⟨member.1, of_decide_eq_true member.2⟩

theorem truthy_some {text : JsString} (nonempty : text ≠ []) : truthy (some text) = some text := by
  rw [truthy, Option.filter_some, if_pos (decide_eq_true nonempty)]

/-! ## The Automerge url -/

theorem plain_documentId {documentId : JsString} (letters : ∀ unit ∈ documentId, unit ∈ base58) :
    ∀ unit ∈ js "automerge:" ++ documentId, IsPlainUnit unit := by
  intro unit member
  have scheme : ∀ unit ∈ js "automerge:", IsPlainUnit unit := by decide
  have all : ∀ unit ∈ base58, IsPlainUnit unit := by decide
  exact (List.mem_append.mp member).elim (scheme unit) fun inside => all unit (letters unit inside)

/-- Up to its heads an Automerge url is plain. -/
theorem automergeUrl_parts (automerge : IsAutomergeUrl automergeUrl) :
    ∃ document heads, automergeUrl = document ++ heads ∧ (∀ unit ∈ document, IsPlainUnit unit) ∧
      (heads = [] ∨ ∃ rest, heads = 0x23 :: rest) := by
  obtain ⟨documentId, heads, whole, -, letters, ends⟩ := automerge
  exact ⟨_, heads, whole, plain_documentId letters, ends.imp_right fun ⟨rest, same, _⟩ => ⟨rest, same⟩⟩

theorem isPlainUnit_notHash {text : JsString} (plain : ∀ unit ∈ text, IsPlainUnit unit) :
    (0x23 : UInt16) ∉ text := by
  intro member
  have others := (plain _ member).2
  simp at others

theorem am_plain : ∀ unit ∈ js "am", IsPlainUnit unit := by decide

/-! ## The whole link -/

theorem appendParam_ok {name : JsString} {spell : JsString → Except LinkError JsString}
    {value : Option JsString} {url next : JsString} (built : appendParam name spell value url = .ok next) :
    url <+: next ∧ ∀ text ∈ value, ∃ spelled, spell text = .ok spelled := by
  cases value with
  | none =>
      cases built
      exact ⟨List.prefix_rfl, by simp⟩
  | some text =>
      simp only [appendParam] at built
      cases result : spell text with
      | error reason =>
          rw [result] at built
          cases built
      | ok spelled =>
          rw [result] at built
          cases built
          refine ⟨⟨[0x26] ++ writeParam name spelled, (List.append_assoc ..).symm⟩, ?_⟩
          intro other same
          cases same
          exact ⟨spelled, result⟩

theorem except_bind_ok {Value Result : Type} {first : Except LinkError Value}
    {next : Value → Except LinkError Result} {result : Result} (whole : first >>= next = .ok result) :
    ∃ value, first = .ok value ∧ next value = .ok result := by
  cases first with
  | error reason => cases whole
  | ok value => exact ⟨value, rfl, whole⟩

theorem except_ok_bind {Value Result : Type} (value : Value)
    (next : Value → Except LinkError Result) : (Except.ok value >>= next) = next value := rfl

theorem buildGuestUrl_eq (pairable : Pairable options lanWebAppUrl automergeUrl) :
    buildGuestUrl options = (do
      let url ← appendParam (js "pt") escaped (truthy options.pairingToken)
        (lanWebAppUrl ++ js "/?" ++ writeParam (js "am") automergeUrl)
      let url ← appendParam pairingFingerprintParam fingerprintText
        (truthy options.rootCertFingerprint) url
      let url ← appendParam pairingHostKeyParam .ok (truthy options.hostKey) url
      let url ← appendParam pairingHostNameParam escaped (options.hostName.bind sanitizeLabel) url
      return some url) := by
  have document : automergeUrl ≠ [] := by
    obtain ⟨documentId, heads, whole, -⟩ := pairable.automerge
    rw [whole]
    exact List.cons_ne_nil _ _
  rw [buildGuestUrl, pairable.lan, pairable.document, truthy_some pairable.reachable,
    truthy_some document]

theorem prefix_of_built (pairable : Pairable options lanWebAppUrl automergeUrl) {link : JsString}
    (built : buildGuestUrl options = .ok (some link)) :
    lanWebAppUrl ++ js "/?" ++ writeParam (js "am") automergeUrl <+: link ∧
      ∀ name ∈ options.hostName.bind sanitizeLabel, wellFormed name = true := by
  rw [buildGuestUrl_eq pairable] at built
  obtain ⟨first, withToken, built⟩ := except_bind_ok built
  obtain ⟨second, withFingerprint, built⟩ := except_bind_ok built
  obtain ⟨third, withKey, built⟩ := except_bind_ok built
  obtain ⟨last, withName, built⟩ := except_bind_ok built
  have same : last = link := Option.some.inj (Except.ok.inj built)
  obtain ⟨named, names⟩ := appendParam_ok withName
  constructor
  · rw [← same]
    exact (((appendParam_ok withToken).1.trans (appendParam_ok withFingerprint).1).trans
      (appendParam_ok withKey).1).trans named
  · intro name kept
    obtain ⟨spelled, isSpelled⟩ := names name kept
    rw [← Bool.not_eq_false]
    intro lone
    rw [escaped, encodeURIComponent_of_lone lone] at isSpelled
    cases isSpelled

theorem linkQuery_of_split {link query rest : JsString}
    (whole : link = lanWebAppUrl ++ js "/?" ++ (query ++ rest)) (plain : (0x23 : UInt16) ∉ query)
    (ends : rest = [] ∨ ∃ others, rest = 0x23 :: others) : linkQuery lanWebAppUrl link = query := by
  have kept : ∀ unit ∈ query, decide (unit ≠ 0x23) = true :=
    fun unit member => decide_eq_true fun same => plain (same ▸ member)
  rw [linkQuery, whole, List.drop_left, List.takeWhile_append_of_pos kept]
  rcases ends with rfl | ⟨others, rfl⟩ <;> simp

section

variable (pairable : Pairable options lanWebAppUrl automergeUrl)

include pairable

theorem token_written (url : JsString) : ∃ pieces,
    appendParam (js "pt") escaped (truthy options.pairingToken) url =
      .ok (url ++ pieces.flatMap (0x26 :: ·)) ∧
      Written (js "pt") (truthy options.pairingToken) pieces := by
  have written := appendParam_written id (show ∀ unit ∈ js "pt", IsPlainUnit unit by decide)
    (fun text member => escaped_spells (pairable.token text (mem_truthy member).1)) url
  rwa [Option.map_id, id_def] at written

theorem fingerprint_written (url : JsString) : ∃ pieces,
    appendParam pairingFingerprintParam fingerprintText (truthy options.rootCertFingerprint) url =
      .ok (url ++ pieces.flatMap (0x26 :: ·)) ∧
      Written pairingFingerprintParam
        ((truthy options.rootCertFingerprint).bind encodeFingerprint) pieces := by
  have spells : ∀ text ∈ truthy options.rootCertFingerprint, ∃ spelled,
      fingerprintText text = .ok spelled ∧ encodeFingerprint text = some spelled ∧
        Spelled spelled spelled :=
    fun text member => fingerprintText_spells (pairable.fingerprint text (mem_truthy member).1)
  have same : (truthy options.rootCertFingerprint).bind encodeFingerprint =
      (truthy options.rootCertFingerprint).map fun text => (encodeFingerprint text).getD [] := by
    cases given : truthy options.rootCertFingerprint with
    | none => rfl
    | some text =>
        obtain ⟨spelled, -, encoded, -⟩ := spells text given
        rw [Option.bind_some, Option.map_some, encoded]
        rfl
  rw [same]
  apply appendParam_written _ (by decide)
  intro text member
  obtain ⟨spelled, written, encoded, reads⟩ := spells text member
  exact ⟨spelled, written, by rwa [encoded]⟩

theorem hostKey_written (url : JsString) : ∃ pieces,
    appendParam pairingHostKeyParam .ok (truthy options.hostKey) url =
      .ok (url ++ pieces.flatMap (0x26 :: ·)) ∧
      Written pairingHostKeyParam (truthy options.hostKey) pieces := by
  have written := appendParam_written id (show ∀ unit ∈ pairingHostKeyParam, IsPlainUnit unit by decide)
    (fun text member => ⟨text, rfl, spelled_inAlphabet (pairable.hostKey text (mem_truthy member).1)⟩)
    url
  rwa [Option.map_id, id_def] at written

end

theorem hostName_written (names : ∀ name ∈ options.hostName.bind sanitizeLabel, wellFormed name = true)
    (url : JsString) : ∃ pieces,
    appendParam pairingHostNameParam escaped (options.hostName.bind sanitizeLabel) url =
      .ok (url ++ pieces.flatMap (0x26 :: ·)) ∧
      Written pairingHostNameParam (options.hostName.bind sanitizeLabel) pieces := by
  have written := appendParam_written id (show ∀ unit ∈ pairingHostNameParam, IsPlainUnit unit by decide)
    (fun text member => escaped_spells (names text member)) url
  rwa [Option.map_id, id_def] at written

/-- Each parameter of the options, as a query gives it back. -/
def givenParams (options : GuestUrlOptions) : List (JsString × JsString) :=
  ((truthy options.pairingToken).map fun text => (js "pt", text)).toList ++
  (((truthy options.rootCertFingerprint).bind encodeFingerprint).map fun text =>
    (pairingFingerprintParam, text)).toList ++
  ((truthy options.hostKey).map fun text => (pairingHostKeyParam, text)).toList ++
  ((options.hostName.bind sanitizeLabel).map fun text => (pairingHostNameParam, text)).toList

theorem buildGuestUrl_written (pairable : Pairable options lanWebAppUrl automergeUrl)
    (names : ∀ name ∈ options.hostName.bind sanitizeLabel, wellFormed name = true) :
    ∃ pieces : List JsString, buildGuestUrl options = .ok (some (lanWebAppUrl ++ js "/?" ++
        (writeParam (js "am") automergeUrl ++ pieces.flatMap (0x26 :: ·)))) ∧
      (∀ piece ∈ pieces, piece ≠ [] ∧ ∀ unit ∈ piece, unit ∉ ([0x23, 0x26] : List UInt16)) ∧
      pieces.map parseParam = givenParams options := by
  let url := lanWebAppUrl ++ js "/?" ++ writeParam (js "am") automergeUrl
  obtain ⟨first, withToken, token⟩ := token_written pairable url
  obtain ⟨second, withFingerprint, fingerprint⟩ :=
    fingerprint_written pairable (url ++ first.flatMap (0x26 :: ·))
  obtain ⟨third, withKey, key⟩ := hostKey_written pairable
    (url ++ first.flatMap (0x26 :: ·) ++ second.flatMap (0x26 :: ·))
  obtain ⟨last, withName, name⟩ := hostName_written names
    (url ++ first.flatMap (0x26 :: ·) ++ second.flatMap (0x26 :: ·) ++ third.flatMap (0x26 :: ·))
  refine ⟨first ++ second ++ third ++ last, ?_, ?_, ?_⟩
  · rw [buildGuestUrl_eq pairable, withToken, except_ok_bind, withFingerprint, except_ok_bind, withKey,
      except_ok_bind, withName, except_ok_bind]
    simp only [List.flatMap_append, List.append_assoc, url]
    rfl
  · intro piece member
    simp only [List.mem_append] at member
    rcases member with ((inside | inside) | inside) | inside
    · exact token.whole piece inside
    · exact fingerprint.whole piece inside
    · exact key.whole piece inside
    · exact name.whole piece inside
  · simp only [List.map_append, token.reads, fingerprint.reads, key.reads, name.reads, givenParams]

theorem givesBack_of_params (document : options.automergeUrl = some automergeUrl)
    {params : List (JsString × JsString)}
    (same : params = (js "am", automergeUrl) :: givenParams options) : GivesBack options params := by
  have reads : getParam params (js "am") = some automergeUrl ∧
      getParam params (js "pt") = truthy options.pairingToken ∧
      getParam params pairingFingerprintParam =
        (truthy options.rootCertFingerprint).bind encodeFingerprint ∧
      getParam params pairingHostKeyParam = truthy options.hostKey ∧
      getParam params pairingHostNameParam = options.hostName.bind sanitizeLabel := by
    rw [same, givenParams]
    generalize truthy options.pairingToken = token
    generalize (truthy options.rootCertFingerprint).bind encodeFingerprint = fingerprint
    generalize truthy options.hostKey = key
    generalize options.hostName.bind sanitizeLabel = name
    refine ⟨rfl, ?_, ?_, ?_, ?_⟩ <;>
      cases token <;> cases fingerprint <;> cases key <;> cases name <;> rfl
  obtain ⟨am, pt, fp, hk, hn⟩ := reads
  refine ⟨am.trans document.symm, pt, fp, hk, hn, ?_⟩
  intro absent text given
  rw [hn, given, Option.bind_some] at absent
  exact nothingWithinReach_of_none absent

theorem givesBack_of_query (document : options.automergeUrl = some automergeUrl) {link query : JsString}
    (isQuery : linkQuery lanWebAppUrl link = query)
    (same : parseQuery query = (js "am", automergeUrl) :: givenParams options) :
    GivesBack options (parseQuery (linkQuery lanWebAppUrl link)) :=
  givesBack_of_params document (isQuery ▸ same)

/-! ## The property -/

/-- The heads of an Automerge url are taken for the link's fragment. -/
theorem not_givesBack_of_heads (pairable : Pairable options lanWebAppUrl automergeUrl)
    {document heads link : JsString} (whole : automergeUrl = document ++ 0x23 :: heads)
    (plain : ∀ unit ∈ document, IsPlainUnit unit)
    (start : lanWebAppUrl ++ js "/?" ++ writeParam (js "am") automergeUrl <+: link) :
    ¬ GivesBack options (parseQuery (linkQuery lanWebAppUrl link)) := by
  intro back
  obtain ⟨rest, isLink⟩ := start
  have spelled := spelled_plain plain
  obtain ⟨nonempty, apart⟩ := writeParam_apart am_plain spelled
  have split : link =
      lanWebAppUrl ++ js "/?" ++ (writeParam (js "am") document ++ 0x23 :: (heads ++ rest)) := by
    rw [← isLink, whole]
    simp only [writeParam, List.append_assoc, List.cons_append]
  have query : linkQuery lanWebAppUrl link = writeParam (js "am") document :=
    linkQuery_of_split split (fun member => apart _ member (by decide)) (.inr ⟨_, rfl⟩)
  have pieces := parseQuery_pieces (writeParam (js "am") document) [] (by
    intro piece member
    rw [List.mem_singleton.mp member]
    exact ⟨nonempty, fun inside => apart _ inside (by decide)⟩)
  rw [List.flatMap_nil, List.append_nil, List.map_singleton, parseParam_writeParam am_plain spelled]
    at pieces
  have read := back.am
  rw [query, pieces, pairable.document] at read
  have same : document = automergeUrl := Option.some.inj read
  rw [whole] at same
  have longer := congrArg List.length same
  rw [List.length_append, List.length_cons] at longer
  omega

theorem link_gives_back_iff (options : GuestUrlOptions) (lanWebAppUrl automergeUrl : JsString)
    (pairable : Pairable options lanWebAppUrl automergeUrl) :
    LinkGivesBack options lanWebAppUrl ↔
      (0x23 : UInt16) ∉ automergeUrl ∧ ∀ name ∈ options.hostName, NoLoneWithinReach name := by
  obtain ⟨document, heads, whole, plain, ends⟩ := automergeUrl_parts pairable.automerge
  have names : (∀ name ∈ options.hostName, NoLoneWithinReach name) ↔
      ∀ name ∈ options.hostName.bind sanitizeLabel, wellFormed name = true := by
    cases options.hostName with
    | none => simp
    | some text =>
        simp only [Option.mem_some_iff, forall_eq', Option.bind_some]
        exact (wellFormed_sanitizeLabel_iff text).symm
  rw [names]
  constructor
  · intro ⟨link, built, back⟩
    obtain ⟨start, valid⟩ := prefix_of_built pairable built
    refine ⟨?_, valid⟩
    intro hash
    rcases ends with none | ⟨others, same⟩
    · rw [whole, none, List.append_nil] at hash
      exact isPlainUnit_notHash plain hash
    · rw [same] at whole
      exact not_givesBack_of_heads pairable whole plain start back
  · intro ⟨noHeads, valid⟩
    have plain' : ∀ unit ∈ automergeUrl, IsPlainUnit unit := by
      rcases ends with none | ⟨others, same⟩
      · rwa [whole, none, List.append_nil]
      · exact absurd (by simp [whole, same]) noHeads
    have spelled := spelled_plain plain'
    obtain ⟨nonempty, apart⟩ := writeParam_apart am_plain spelled
    obtain ⟨pieces, built, others, reads⟩ := buildGuestUrl_written pairable valid
    have separate : ∀ piece ∈ writeParam (js "am") automergeUrl :: pieces,
        piece ≠ [] ∧ ∀ unit ∈ piece, unit ∉ ([0x23, 0x26] : List UInt16) :=
      List.forall_mem_cons.mpr ⟨⟨nonempty, apart⟩, others⟩
    refine ⟨_, built, givesBack_of_query pairable.document
      (linkQuery_of_split (by rw [List.append_nil]) ?_ (.inl rfl)) ?_⟩
    · rw [List.mem_append, List.mem_flatMap]
      rintro (inside | ⟨piece, member, inside⟩)
      · exact apart _ inside (by decide)
      · rcases List.mem_cons.mp inside with same | inside
        · exact absurd same (by decide)
        · exact (others piece member).2 _ inside (by decide)
    · rw [parseQuery_pieces _ _ fun piece member => ⟨(separate piece member).1, fun inside =>
        (separate piece member).2 _ inside (by decide)⟩, List.map_cons, reads,
        parseParam_writeParam am_plain spelled]

/-! Samples: a host called Studio, and one whose name has half a pair in its middle. -/

def sampleOptions (hostName : JsString) : GuestUrlOptions where
  lanWebAppUrl := some (js "https://192.168.1.42:9001")
  automergeUrl := some (js "automerge:2j9knpCseyhnK8izDgqsvbdgAqb9")
  pairingToken := some (js "a&b=c/d")
  rootCertFingerprint := some allOnes
  hostKey := some (js "Ab-_xyz")
  hostName := some hostName

theorem pairable_sample (hostName : JsString) : Pairable (sampleOptions hostName)
    (js "https://192.168.1.42:9001") (js "automerge:2j9knpCseyhnK8izDgqsvbdgAqb9") where
  lan := rfl
  reachable := by decide
  document := rfl
  automerge := ⟨js "2j9knpCseyhnK8izDgqsvbdgAqb9", [], by decide, by decide, by decide, .inl rfl⟩
  token := by
    intro token same
    cases same
    decide
  fingerprint := by
    intro fingerprint same
    cases same
    decide
  hostKey := by
    intro key same
    cases same
    exact show ∀ unit ∈ js "Ab-_xyz", unit ∈ base64UrlAlphabet by decide

theorem studio_link_gives_back : LinkGivesBack (sampleOptions (js "Studio"))
    (js "https://192.168.1.42:9001") := by
  refine (link_gives_back_iff _ _ _ (pairable_sample _)).mpr ⟨by decide, ?_⟩
  intro name same
  cases same
  have kept : sanitizeLabel (js "Studio") = some (js "Studio") := by decide
  rw [← wellFormed_sanitizeLabel_iff, kept]
  intro name same
  cases same
  decide

/-- `encodeURIComponent` throws at the lone surrogate that the sanitizer keeps. -/
theorem half_a_pair_breaks_the_link :
    Pairable (sampleOptions [0x61, 0xD800, 0x62]) (js "https://192.168.1.42:9001")
      (js "automerge:2j9knpCseyhnK8izDgqsvbdgAqb9") ∧
    buildGuestUrl (sampleOptions [0x61, 0xD800, 0x62]) = .error .malformedUri ∧
    ¬ LinkGivesBack (sampleOptions [0x61, 0xD800, 0x62]) (js "https://192.168.1.42:9001") := by
  have thrown : buildGuestUrl (sampleOptions [0x61, 0xD800, 0x62]) = .error .malformedUri := by
    decide
  refine ⟨pairable_sample _, thrown, ?_⟩
  intro ⟨link, built, _⟩
  rw [thrown] at built
  cases built

end Tapes.Pairing
