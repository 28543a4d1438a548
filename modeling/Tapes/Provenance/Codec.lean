import Tapes.Js.JsonParsed
import Tapes.Provenance.Canonical

namespace Tapes.Provenance

open Tapes.Js

/-! The text form of signed statements, and that a statement has one byte form. -/

/-- None where `canonicalJson` throws. -/
def encodeSignedStatement (signed : Signed JsValue) : Option JsString :=
  (statementBytes signed).map toBase64Url

def decodeSignedStatement (text : JsString) : Option (Signed JsValue) :=
  (fromBase64Url text).bind parseSignedStatement

/-! ## Parsed values -/

mutual

/-- Of the values `JSON.parse` returns, `canonicalJson` takes data only. -/
theorem isData_of_canonicalJson {value : JsValue} {text : JsString} (parsed : Parsed value)
    (written : canonicalJson value = some text) : IsData value := by
  cases value with
  | undefined => cases written
  | null => trivial
  | boolean value => trivial
  | number number =>
      cases number with
      | finite negative magnitude => trivial
      | _ => cases written
  | string content =>
      rw [canonicalJson] at written
      split at written
      · assumption
      · cases written
  | array items =>
      obtain ⟨texts, each, -⟩ := Option.bind_eq_some_iff.mp written
      exact areData_of_canonicalItems parsed each
  | object members =>
      obtain ⟨texts, each, -⟩ := Option.bind_eq_some_iff.mp written
      exact ⟨parsed.1, membersData_of_canonicalMembers parsed.2 each⟩

theorem areData_of_canonicalItems {items : List JsValue} {texts : List JsString}
    (parsed : AllParsed items) (written : canonicalItems items = some texts) : AreData items := by
  cases items with
  | nil => trivial
  | cons item rest =>
      obtain ⟨first, here, written⟩ := Option.bind_eq_some_iff.mp written
      obtain ⟨others, later, -⟩ := Option.bind_eq_some_iff.mp written
      exact ⟨isData_of_canonicalJson parsed.1 here, areData_of_canonicalItems parsed.2 later⟩

theorem membersData_of_canonicalMembers {members : List (JsString × JsValue)}
    {texts : List (JsString × JsString)} (parsed : MembersParsed members)
    (written : canonicalMembers members = some texts) : MembersData members := by
  cases members with
  | nil => trivial
  | cons member rest =>
      obtain ⟨key, value⟩ := member
      rw [canonicalMembers] at written
      split at written
      · rename_i missing
        exact ⟨.inl missing, membersData_of_canonicalMembers parsed.2 written⟩
      · split at written
        · rename_i named
          obtain ⟨first, here, written⟩ := Option.bind_eq_some_iff.mp written
          obtain ⟨others, later, -⟩ := Option.bind_eq_some_iff.mp written
          exact ⟨.inr ⟨named, isData_of_canonicalJson parsed.1 here⟩,
            membersData_of_canonicalMembers parsed.2 later⟩
        · cases written

end

/-! ## Signed statements -/

section

variable {signed : Signed JsValue}

def wrapperMembers (signed : Signed JsValue) : List (JsString × JsValue) :=
  [(js "payload", signed.payload), (js "signature", .string signed.signature)]

theorem lookup_wrapperMembers (signed : Signed JsValue) (key : JsString) :
    JsValue.lookup key (wrapperMembers signed) =
      if js "payload" = key then signed.payload
      else if js "signature" = key then .string signed.signature else .undefined := rfl

theorem wrapperMembers_distinct : ((wrapperMembers signed).map Prod.fst).Nodup := by
  have different : js "payload" ≠ js "signature" := by decide
  simp [wrapperMembers, different]

theorem isData_toValue (payload : IsData signed.payload)
    (signature : wellFormed signed.signature = true) : IsData signed.toValue :=
  ⟨wrapperMembers_distinct, .inr ⟨by decide, payload⟩, .inr ⟨by decide, signature⟩, trivial⟩

theorem payload_of_toValue (data : IsData signed.toValue) :
    (signed.payload.isUndefined = true ∨ IsData signed.payload) ∧
      wellFormed signed.signature = true := by
  obtain ⟨-, payload, signature, -⟩ := data
  exact ⟨payload.imp_right And.right, (signature.resolve_left (by simp [JsValue.isUndefined])).2⟩

theorem statementBytes_eq (data : IsData signed.toValue) :
    statementBytes signed = some (utf8Encode (stringify (normal signed.toValue))) := by
  rw [statementBytes, canonicalJson_eq data, Option.map_some]

/-- Text that starts with a brace has no byte order mark. -/
theorem utf8DecodeFatal_brace {text : JsString} (valid : wellFormed (0x7B :: text) = true) :
    utf8DecodeFatal (utf8Encode (0x7B :: text)) = some (0x7B :: text) := by
  have encoded : utf8Encode (0x7B :: text) = 0x7B :: utf8Encode text := by
    rw [utf8Encode_unit (by decide) (by decide)]
    rfl
  have strict := utf8Decode_utf8Encode valid
  rw [encoded] at strict ⊢
  exact strict

theorem parse_statementBytes (data : IsData signed.toValue) :
    (utf8DecodeFatal (utf8Encode (stringify (normal signed.toValue)))).bind parse =
      some (normal signed.toValue) := by
  have valid := wellFormed_text data
  have start : ∃ text, stringify (normal signed.toValue) = 0x7B :: text := ⟨_, rfl⟩
  obtain ⟨text, same⟩ := start
  rw [same] at valid
  rw [same, utf8DecodeFatal_brace valid, Option.bind_some, ← same]
  exact parse_canonicalJson data (canonicalJson_eq data)

/-- The members of the wrapper as they are read back. -/
def readMembers (signed : Signed JsValue) : List (JsString × JsValue) :=
  sortMembers (normalMembers (wrapperMembers signed))

theorem lookup_readMembers (key : JsString) : JsValue.lookup key (readMembers signed) =
    normal (JsValue.lookup key (wrapperMembers signed)) := by
  have distinct : ((wrapperMembers signed).map Prod.fst).Nodup := wrapperMembers_distinct
  have sorted := sortMembers_distinct (distinct.sublist (normalMembers_keys _))
  rw [readMembers, lookup_perm sorted (perm_sortMembers _), lookup_normalMembers distinct]

theorem payload_readMembers :
    JsValue.lookup (js "payload") (readMembers signed) = normal signed.payload := by
  rw [lookup_readMembers]
  rfl

theorem signature_readMembers :
    JsValue.lookup (js "signature") (readMembers signed) = .string signed.signature := by
  have different : js "payload" ≠ js "signature" := by decide
  rw [lookup_readMembers, wrapperMembers, JsValue.lookup, if_neg different, JsValue.lookup,
    if_pos rfl]
  rfl

/-- A statement with a payload reads back from its own bytes. -/
theorem parseSignedStatement_statementBytes (payload : IsData signed.payload)
    (signature : wellFormed signed.signature = true) :
    ∃ bytes, statementBytes signed = some bytes ∧
      parseSignedStatement bytes = some ⟨normal signed.payload, signed.signature⟩ := by
  have data := isData_toValue payload signature
  obtain ⟨text, decoded, parsed⟩ := Option.bind_eq_some_iff.mp (parse_statementBytes data)
  have defined : (JsValue.lookup (js "payload") (readMembers signed)).isUndefined = false := by
    rw [payload_readMembers, isUndefined_normal]
    cases held : signed.payload with
    | undefined =>
        rw [held] at payload
        exact absurd payload id
    | _ => rfl
  have present : (JsValue.object (readMembers signed)).hasKey (js "payload") = true :=
    any_key_iff.mpr (List.mem_map_of_mem (f := Prod.fst) (mem_of_lookup defined))
  have members : parse text = some (.object (readMembers signed)) := parsed
  refine ⟨_, statementBytes_eq data, ?_⟩
  rw [parseSignedStatement, decoded]
  simp only [Option.bind_eq_bind, Option.bind_some, members, signature_readMembers,
    JsValue.string?, present, if_true, payload_readMembers, Option.pure_def]

theorem decode_encodeSignedStatement (payload : IsData signed.payload)
    (signature : wellFormed signed.signature = true) :
    ∃ text decoded, encodeSignedStatement signed = some text ∧
      decodeSignedStatement text = some decoded ∧ decoded.signature = signed.signature ∧
      Same decoded.payload signed.payload := by
  obtain ⟨bytes, written, read⟩ := parseSignedStatement_statementBytes payload signature
  refine ⟨toBase64Url bytes, ⟨normal signed.payload, signed.signature⟩, ?_, ?_, rfl,
    same_normal payload⟩
  · rw [encodeSignedStatement, written, Option.map_some]
  · rw [decodeSignedStatement, fromBase64Url_toBase64Url, Option.bind_some, read]

/-! ## Parsed statements -/

theorem parsed_lookup {key : JsString} {members : List (JsString × JsValue)}
    (parsed : Parsed (.object members)) (present : key ∈ members.map Prod.fst) :
    Parsed (JsValue.lookup key members) := by
  obtain ⟨⟨name, value⟩, inside, rfl⟩ := List.mem_map.mp present
  rw [lookup_of_mem parsed.1 inside]
  exact membersParsed_iff.mp parsed.2 _ inside

theorem parsed_of_parseSignedStatement {bytes : Bytes}
    (read : parseSignedStatement bytes = some signed) : Parsed signed.payload := by
  obtain ⟨text, -, read⟩ := Option.bind_eq_some_iff.mp read
  obtain ⟨value, parsed, read⟩ := Option.bind_eq_some_iff.mp read
  have whole := parsed_of_parse parsed
  cases value with
  | object members =>
      obtain ⟨signature, -, read⟩ := Option.bind_eq_some_iff.mp read
      split at read
      · rename_i present
        cases read
        exact parsed_lookup whole (any_key_iff.mp present)
      · cases read
  | _ => cases read

theorem isData_of_statementBytes {bytes : Bytes} (parsed : Parsed signed.payload)
    (written : statementBytes signed = some bytes) : IsData signed.toValue := by
  obtain ⟨text, canonical, -⟩ := Option.map_eq_some_iff.mp written
  have whole : Parsed signed.toValue := ⟨wrapperMembers_distinct, parsed, trivial, trivial⟩
  exact isData_of_canonicalJson whole canonical

/-- Statements that say the same have the same bytes, so they sit at one address. -/
theorem statementBytes_of_same {left right : Signed JsValue} {leftBytes rightBytes : Bytes}
    (leftRead : parseSignedStatement leftBytes = some left)
    (rightRead : parseSignedStatement rightBytes = some right)
    (leftCanonical : statementBytes left = some leftBytes)
    (rightCanonical : statementBytes right = some rightBytes)
    (signature : left.signature = right.signature) (payload : Same left.payload right.payload) :
    leftBytes = rightBytes := by
  have leftData := isData_of_statementBytes (parsed_of_parseSignedStatement leftRead) leftCanonical
  have rightData :=
    isData_of_statementBytes (parsed_of_parseSignedStatement rightRead) rightCanonical
  have wrapped : Same left.toValue right.toValue := by
    refine .object fun key => ?_
    change Same (JsValue.lookup key (wrapperMembers left)) (JsValue.lookup key (wrapperMembers right))
    rw [lookup_wrapperMembers, lookup_wrapperMembers, signature]
    by_cases first : js "payload" = key
    · rw [if_pos first, if_pos first]
      exact payload
    · rw [if_neg first, if_neg first]
      split
      · exact .string _
      · exact .undefined
  have texts := (canonicalJson_eq_iff leftData rightData).mpr wrapped
  rw [statementBytes, texts] at leftCanonical
  exact Option.some.inj (leftCanonical.symm.trans rightCanonical)

end

/-! ## The codec -/

theorem membersData_iff {members : List (JsString × JsValue)} :
    MembersData members ↔ ∀ member ∈ members,
      member.2.isUndefined = true ∨ (wellFormed member.1 = true ∧ IsData member.2) := by
  induction members with
  | nil => simp [MembersData]
  | cons member rest induction =>
      obtain ⟨key, value⟩ := member
      rw [MembersData, List.forall_mem_cons, induction]

theorem same_self {value : JsValue} (data : value.isUndefined = true ∨ IsData value) :
    Same value value := by
  rcases data with missing | data
  · cases value <;> cases missing
    exact .undefined
  · exact (same_normal data).symm.trans (same_normal data)

/-- The order in which members were put into an object does not matter. -/
theorem canonicalJson_perm {members reordered : List (JsString × JsValue)}
    (data : IsData (.object members)) (perm : reordered.Perm members) :
    canonicalJson (.object reordered) = canonicalJson (.object members) := by
  obtain ⟨distinct, each⟩ := data
  have distinctReordered := (perm.map Prod.fst).nodup_iff.mpr distinct
  have eachReordered : MembersData reordered :=
    membersData_iff.mpr fun member inside => membersData_iff.mp each member (perm.mem_iff.mp inside)
  have reorderedData : IsData (.object reordered) := ⟨distinctReordered, eachReordered⟩
  have data : IsData (.object members) := ⟨distinct, each⟩
  refine (canonicalJson_eq_iff reorderedData data).mpr ?_
  refine .object fun key => ?_
  rw [lookup_perm distinctReordered perm]
  exact same_self (each.lookup key)

/-- `canonicalJson` is a codec of data up to the order of members, undefined members and
the sign of zero, signed statements survive their text form up to the same, and equal
statements in canonical form are equal bytes. -/
theorem canonicalJson_is_codec :
    (∀ value, IsData value → ∃ text read, canonicalJson value = some text ∧
      parse text = some read ∧ Same read value ∧ Settled read) ∧
    (∀ members reordered, IsData (.object members) → reordered.Perm members →
      canonicalJson (.object reordered) = canonicalJson (.object members)) ∧
    (∀ left right, IsData left → IsData right →
      (canonicalJson left = canonicalJson right ↔ Same left right)) ∧
    (∀ signed : Signed JsValue, IsData signed.payload → wellFormed signed.signature = true →
      ∃ text decoded, encodeSignedStatement signed = some text ∧
        decodeSignedStatement text = some decoded ∧ decoded.signature = signed.signature ∧
        Same decoded.payload signed.payload) ∧
    ∀ left right leftBytes rightBytes, parseSignedStatement leftBytes = some left →
      parseSignedStatement rightBytes = some right → statementBytes left = some leftBytes →
      statementBytes right = some rightBytes → left.signature = right.signature →
      Same left.payload right.payload → leftBytes = rightBytes := by
  refine ⟨?_, ?_, ?_, ?_, ?_⟩
  · intro value data
    have written := canonicalJson_eq data
    exact ⟨_, normal value, written, parse_canonicalJson data written, same_normal data,
      settled_normal data⟩
  · exact fun _ _ data perm => canonicalJson_perm data perm
  · exact fun _ _ leftData rightData => canonicalJson_eq_iff leftData rightData
  · exact fun _ payload signature => decode_encodeSignedStatement payload signature
  · exact fun _ _ _ _ leftRead rightRead leftCanonical rightCanonical signature payload =>
      statementBytes_of_same leftRead rightRead leftCanonical rightCanonical signature payload

end Tapes.Provenance
