import Tapes.Js.Json
import Tapes.Js.NumberText

namespace Tapes.Js

/-! What `JSON.stringify` writes, `JSON.parse` reads back. -/

/-! ## Strings -/

theorem hexValue_hexDigit {digit : Nat} (small : digit < 16) :
    hexValue (hexDigit digit) = some digit := by
  interval_cases digit <;> decide

theorem hexUnit_unicodeEscape (unit : UInt16) :
    hexUnit (hexDigit (unit.toNat / 0x1000)) (hexDigit (unit.toNat / 0x100 % 0x10))
      (hexDigit (unit.toNat / 0x10 % 0x10)) (hexDigit (unit.toNat % 0x10)) = some unit := by
  have small := unit.toNat_lt
  have value : unit.toNat / 0x1000 * 0x1000 + unit.toNat / 0x100 % 0x10 * 0x100 +
      unit.toNat / 0x10 % 0x10 * 0x10 + unit.toNat % 0x10 = unit.toNat := by omega
  have first : unit.toNat / 0x1000 < 16 := by omega
  have digit : ∀ number, number % 0x10 < 16 := fun number => Nat.mod_lt number (by decide)
  simp only [hexUnit, hexValue_hexDigit first, hexValue_hexDigit (digit _), Option.bind_eq_bind,
    Option.bind_some, value, Option.pure_def]
  exact congrArg some UInt16.ofNat_toNat

/-- A code unit that stands for itself in a string literal. -/
def IsPlain (unit : UInt16) : Prop := unit ≠ 0x22 ∧ unit ≠ 0x5C ∧ ¬ unit < 0x20

theorem parseString_plain {unit : UInt16} (plain : IsPlain unit) (after : JsString) :
    parseString (unit :: after) =
      (parseString after).map fun (units, rest) => (unit :: units, rest) := by
  obtain ⟨quote, backslash, control⟩ := plain
  rw [parseString.eq_def]
  simp only [quote, backslash, control, if_false]
  cases parseString after <;> rfl

theorem parseString_escape {escape unit : UInt16} (named : escape ≠ 0x75)
    (stands : simpleEscape escape = some unit) (after : JsString) :
    parseString (0x5C :: escape :: after) =
      (parseString after).map fun (units, rest) => (unit :: units, rest) := by
  rw [parseString.eq_def]
  simp only [named, stands, if_false]
  cases parseString after <;> rfl

theorem parseString_unicodeEscape (unit : UInt16) (after : JsString) :
    parseString (unicodeEscape unit ++ after) =
      (parseString after).map fun (units, rest) => (unit :: units, rest) := by
  rw [unicodeEscape, parseString.eq_def]
  simp only [List.cons_append, List.nil_append, hexUnit_unicodeEscape]
  cases parseString after <;> rfl

theorem parseString_close (rest : JsString) : parseString (0x22 :: rest) = some ([], rest) := by
  rw [parseString.eq_def]
  rfl

theorem parseString_quoteUnit (unit : UInt16) (after : JsString) :
    parseString (quoteUnit unit ++ after) =
      (parseString after).map fun (units, rest) => (unit :: units, rest) := by
  have escape : ∀ letter, letter ≠ 0x75 → simpleEscape letter = some unit →
      parseString ([0x5C, letter] ++ after) =
        (parseString after).map fun (units, rest) => (unit :: units, rest) :=
    fun letter named stands => parseString_escape named stands after
  unfold quoteUnit
  split_ifs with quote backslash backspace feed newline carriage tab unicode
  · exact escape 0x22 (by decide) (by rw [quote]; decide)
  · exact escape 0x5C (by decide) (by rw [backslash]; decide)
  · exact escape 0x62 (by decide) (by rw [backspace]; decide)
  · exact escape 0x66 (by decide) (by rw [feed]; decide)
  · exact escape 0x6E (by decide) (by rw [newline]; decide)
  · exact escape 0x72 (by decide) (by rw [carriage]; decide)
  · exact escape 0x74 (by decide) (by rw [tab]; decide)
  · exact parseString_unicodeEscape unit after
  · have plain : IsPlain unit := ⟨quote, backslash, fun control => unicode (by simp [control])⟩
    exact parseString_plain plain after

theorem isPlain_surrogate {unit : UInt16}
    (surrogate : isHighSurrogate unit = true ∨ isLowSurrogate unit = true) : IsPlain unit := by
  have large : 0xD800 ≤ unit := by
    rcases surrogate with high | low
    · simp only [isHighSurrogate, Bool.and_eq_true, decide_eq_true_eq] at high
      exact high.1
    · simp only [isLowSurrogate, Bool.and_eq_true, decide_eq_true_eq] at low
      exact UInt16.le_trans (by decide) low.1
  refine ⟨?_, ?_, ?_⟩
  · rintro rfl
    exact absurd large (by decide)
  · rintro rfl
    exact absurd large (by decide)
  · intro small
    exact absurd (UInt16.lt_of_le_of_lt large small) (by decide)

/-- A string literal reads back as its string. -/
theorem parseString_quoteUnits (text rest : JsString) :
    parseString (quoteUnits text ++ 0x22 :: rest) = some (text, rest) := by
  fun_induction quoteUnits text with
  | case1 => exact parseString_close rest
  | case2 unit =>
      rw [parseString_quoteUnit, parseString_close]
      rfl
  | case3 unit next others pair induction =>
      simp only [Bool.and_eq_true] at pair
      rw [List.cons_append, List.cons_append, parseString_plain (isPlain_surrogate (.inl pair.1)),
        parseString_plain (isPlain_surrogate (.inr pair.2)), induction]
      rfl
  | case4 unit next others single induction =>
      rw [List.append_assoc, parseString_quoteUnit, induction]
      rfl

/-! ## Values -/

mutual

/-- What reading back what was written of a value gives. -/
def reread : JsValue → JsValue
  | .undefined => .null
  | .null => .null
  | .boolean value => .boolean value
  | .number (.finite negative magnitude) => .number (.written negative magnitude)
  | .number _ => .null
  | .string value => .string value
  | .array items => .array (rereadItems items)
  | .object members => .object (rereadMembers [] members)

def rereadItems : List JsValue → List JsValue
  | [] => []
  | item :: rest => reread item :: rereadItems rest

/-- The members, after the ones already read. -/
def rereadMembers (read : List (JsString × JsValue)) :
    List (JsString × JsValue) → List (JsString × JsValue)
  | [] => read
  | (key, value) :: rest =>
      if value.isUndefined then rereadMembers read rest
      else rereadMembers (setEntry read key (reread value)) rest

end

/-- What follows a value inside an array, an object or nothing. -/
def Follows (rest : JsString) : Prop := ∀ unit ∈ rest.head?, unit = 0x2C ∨ unit = 0x5D ∨ unit = 0x7D

theorem Follows.numberEnds {rest : JsString} (follows : Follows rest) : NumberEnds rest := by
  intro unit head
  rcases follows unit head with rfl | rfl | rfl <;> decide

theorem skipSpace_cons {unit : UInt16} {rest : JsString} (other : isJsonSpace unit = false) :
    skipSpace (unit :: rest) = unit :: rest := by
  simp [skipSpace, other]

theorem Follows.skipSpace {rest : JsString} (follows : Follows rest) : skipSpace rest = rest := by
  cases rest with
  | nil => rfl
  | cons unit rest =>
      refine skipSpace_cons ?_
      rcases follows unit (by simp) with rfl | rfl | rfl <;> decide

theorem dropWord_append (word rest : JsString) : dropWord word (word ++ rest) = some rest := by
  induction word with
  | nil => rfl
  | cons unit word induction => simp [dropWord, induction]

/-- The first code unit of a number is none that starts another value. -/
theorem number_head_dispatch {unit : UInt16} (head : unit = 0x2D ∨ isDigit unit = true) :
    isJsonSpace unit = false ∧ unit ≠ 0x5D ∧ unit ≠ 0x7B ∧ unit ≠ 0x5B ∧ unit ≠ 0x22 ∧
      unit ≠ 0x74 ∧ unit ≠ 0x66 ∧ unit ≠ 0x6E := by
  rcases head with rfl | digit
  · decide
  · have other : ∀ unit', isDigit unit' = false → unit ≠ unit' := by
      intro unit' no same
      rw [same, no] at digit
      cases digit
    refine ⟨?_, other _ (by decide), other _ (by decide), other _ (by decide), other _ (by decide),
      other _ (by decide), other _ (by decide), other _ (by decide)⟩
    simp [isJsonSpace, other 0x20 (by decide), other 0x09 (by decide), other 0x0A (by decide),
      other 0x0D (by decide)]

theorem stringify_head (value : JsValue) : ∃ unit after,
    stringify value = unit :: after ∧ isJsonSpace unit = false ∧ unit ≠ 0x5D := by
  cases value with
  | undefined => exact ⟨_, _, rfl, by decide, by decide⟩
  | null => exact ⟨_, _, rfl, by decide, by decide⟩
  | boolean value => cases value <;> exact ⟨_, _, rfl, by decide, by decide⟩
  | number value =>
      cases value with
      | nan => exact ⟨_, _, rfl, by decide, by decide⟩
      | infinite negative => exact ⟨_, _, rfl, by decide, by decide⟩
      | finite negative magnitude =>
          obtain ⟨unit, after, text, head⟩ := numberText_head negative magnitude
          obtain ⟨space, bracket, -⟩ := number_head_dispatch head
          exact ⟨unit, after, text, space, bracket⟩
  | string value => exact ⟨_, _, rfl, by decide, by decide⟩
  | array items => exact ⟨_, _, rfl, by decide, by decide⟩
  | object members => exact ⟨_, _, rfl, by decide, by decide⟩

theorem parseValue_null (fuel : Nat) (rest : JsString) :
    parseValue (fuel + 1) (js "null" ++ rest) = some (.null, rest) := by
  have text : js "null" ++ rest = 0x6E :: (js "ull" ++ rest) := rfl
  rw [text, parseValue, skipSpace_cons (by decide)]
  simp [dropWord_append]

theorem parseValue_boolean (fuel : Nat) (value : Bool) (rest : JsString) :
    parseValue (fuel + 1) (js (if value then "true" else "false") ++ rest) =
      some (.boolean value, rest) := by
  cases value with
  | true =>
      have text : js "true" ++ rest = 0x74 :: (js "rue" ++ rest) := rfl
      rw [if_pos rfl, text, parseValue, skipSpace_cons (by decide)]
      simp [dropWord_append]
  | false =>
      have text : js "false" ++ rest = 0x66 :: (js "alse" ++ rest) := rfl
      rw [if_neg (by decide), text, parseValue, skipSpace_cons (by decide)]
      simp [dropWord_append]

theorem parseValue_number (fuel : Nat) (number : JsNumber) {rest : JsString}
    (ends : NumberEnds rest) :
    parseValue (fuel + 1) (stringify (.number number) ++ rest) =
      some (reread (.number number), rest) := by
  cases number with
  | nan => exact parseValue_null fuel rest
  | infinite negative => exact parseValue_null fuel rest
  | finite negative magnitude =>
      have read := parseNumber_numberText negative magnitude ends
      obtain ⟨unit, after, text, head⟩ := numberText_head negative magnitude
      obtain ⟨space, -, brace, bracket, quote, t, f, n⟩ := number_head_dispatch head
      rw [text, List.cons_append] at read
      have whole : stringify (.number (.finite negative magnitude)) = unit :: after := by
        rw [stringify, stringifyNumber, text]
      rw [whole, List.cons_append, parseValue, skipSpace_cons space]
      simp only [brace, bracket, quote, t, f, n, if_false, read, Option.map_some, reread]

theorem parseValue_string (fuel : Nat) (text rest : JsString) :
    parseValue (fuel + 1) (quote text ++ rest) = some (.string text, rest) := by
  have whole : quote text ++ rest = 0x22 :: (quoteUnits text ++ 0x22 :: rest) := by
    simp [quote]
  rw [whole, parseValue, skipSpace_cons (by decide)]
  simp [parseString_quoteUnits]

/-! ## Arrays and objects -/

/-- What is left of a joined list, its first text written. -/
def separated (texts : List JsString) (close : UInt16) (rest : JsString) : JsString :=
  if texts = [] then close :: rest else 0x2C :: (joinComma texts ++ close :: rest)

theorem joinComma_cons (text : JsString) (texts : List JsString) (close : UInt16)
    (rest : JsString) :
    joinComma (text :: texts) ++ close :: rest = text ++ separated texts close rest := by
  cases texts with
  | nil => simp [joinComma, separated]
  | cons next texts => simp [joinComma, separated]

theorem length_joinComma_cons (text : JsString) (texts : List JsString) :
    (joinComma (text :: texts)).length =
      text.length + (if texts = [] then 0 else (joinComma texts).length + 1) := by
  cases texts with
  | nil => simp [joinComma]
  | cons next texts => simp [joinComma, Nat.add_comm]

theorem follows_separated (texts : List JsString) {close : UInt16} (rest : JsString)
    (closes : close = 0x5D ∨ close = 0x7D) : Follows (separated texts close rest) := by
  intro unit head
  unfold separated at head
  split at head <;> cases head
  · exact .inr closes
  · exact .inl rfl

theorem stringifyMembers_written (key : JsString) {value : JsValue}
    (members : List (JsString × JsValue)) (defined : ¬ value.isUndefined = true) :
    stringifyMembers ((key, value) :: members) =
      (quote key ++ [0x3A] ++ stringify value) :: stringifyMembers members := by
  simp [stringifyMembers, defined]

theorem rereadMembers_of_none {members : List (JsString × JsValue)}
    (none : stringifyMembers members = []) (before : List (JsString × JsValue)) :
    rereadMembers before members = before := by
  induction members with
  | nil => rfl
  | cons member members induction =>
      obtain ⟨key, value⟩ := member
      by_cases missing : value.isUndefined = true
      · simp only [stringifyMembers, missing, if_true] at none
        simp only [rereadMembers, missing, if_true, induction none]
      · simp [stringifyMembers, missing] at none

theorem stringifyMembers_head {members : List (JsString × JsValue)}
    (nonempty : stringifyMembers members ≠ []) (rest : JsString) : ∃ after,
      joinComma (stringifyMembers members) ++ 0x7D :: rest = 0x22 :: after := by
  induction members with
  | nil => exact absurd rfl nonempty
  | cons member members induction =>
      obtain ⟨key, value⟩ := member
      by_cases missing : value.isUndefined = true
      · simp only [stringifyMembers, missing, if_true] at nonempty ⊢
        exact induction nonempty
      · rw [stringifyMembers_written key members missing, joinComma_cons]
        exact ⟨_, rfl⟩

theorem parseValue_items (fuel : Nat) {unit : UInt16} (rest : JsString)
    (space : isJsonSpace unit = false) (more : unit ≠ 0x5D) :
    parseValue (fuel + 1) (0x5B :: unit :: rest) = parseItems fuel [] (unit :: rest) := by
  rw [parseValue, skipSpace_cons (by decide)]
  simp [skipSpace_cons space, more]

theorem parseValue_members (fuel : Nat) (rest : JsString) :
    parseValue (fuel + 1) (0x7B :: 0x22 :: rest) = parseMembers fuel [] (0x22 :: rest) := by
  have space : isJsonSpace 0x22 = false := by decide
  rw [parseValue, skipSpace_cons (by decide)]
  simp [skipSpace_cons space]

mutual

theorem parseValue_stringify (value : JsValue) (fuel : Nat) {rest : JsString}
    (enough : (stringify value).length < fuel) (follows : Follows rest) :
    parseValue fuel (stringify value ++ rest) = some (reread value, rest) := by
  cases fuel with
  | zero => omega
  | succ fuel =>
      cases value with
      | undefined => exact parseValue_null fuel rest
      | null => exact parseValue_null fuel rest
      | boolean value => exact parseValue_boolean fuel value rest
      | number number => exact parseValue_number fuel number follows.numberEnds
      | string text => exact parseValue_string fuel text rest
      | array items =>
          have text : stringify (.array items) ++ rest =
              0x5B :: (joinComma (stringifyItems items) ++ 0x5D :: rest) := by
            simp [stringify]
          cases items with
          | nil => rfl
          | cons item items =>
              obtain ⟨unit, after, head, space, more⟩ := stringify_head item
              have length : (joinComma (stringifyItems (item :: items))).length + 1 < fuel := by
                simp only [stringify, List.length_append, List.length_cons] at enough
                omega
              have read := parseItems_stringify (item :: items) (List.cons_ne_nil _ _) [] fuel rest
                length
              rw [stringifyItems, joinComma_cons, head, List.cons_append] at read
              rw [text, stringifyItems, joinComma_cons, head, List.cons_append,
                parseValue_items fuel _ space more, read]
              rfl
      | object members =>
          have text : stringify (.object members) ++ rest =
              0x7B :: (joinComma (stringifyMembers members) ++ 0x7D :: rest) := by
            simp [stringify]
          have length : (joinComma (stringifyMembers members)).length + 1 < fuel := by
            simp only [stringify, List.length_append, List.length_cons] at enough
            omega
          by_cases none : stringifyMembers members = []
          · rw [text, none, reread, rereadMembers_of_none none]
            rfl
          · have read := parseMembers_stringify members [] fuel rest length none
            obtain ⟨after, head⟩ := stringifyMembers_head none rest
            rw [head] at read
            rw [text, head, parseValue_members, read, reread]

theorem parseItems_stringify (items : List JsValue) (nonempty : items ≠ []) (before : List JsValue)
    (fuel : Nat) (rest : JsString)
    (enough : (joinComma (stringifyItems items)).length + 1 < fuel) :
    parseItems fuel before (joinComma (stringifyItems items) ++ 0x5D :: rest) =
      some (.array (before ++ rereadItems items), rest) := by
  cases fuel with
  | zero => omega
  | succ fuel =>
      cases items with
      | nil => exact absurd rfl nonempty
      | cons item items =>
          have follows := follows_separated (stringifyItems items) rest (.inl rfl)
          rw [stringifyItems, length_joinComma_cons] at enough
          have read := parseValue_stringify item fuel (by omega) follows
          rw [stringifyItems, joinComma_cons, parseItems, read]
          simp only [follows.skipSpace]
          cases items with
          | nil => simp [stringifyItems, separated, rereadItems]
          | cons next items =>
              have others := parseItems_stringify (next :: items) (List.cons_ne_nil _ _)
                (before ++ [reread item]) fuel rest
                (by simp only [stringifyItems, List.cons_ne_nil, if_false] at enough ⊢; omega)
              simp only [stringifyItems, separated, List.cons_ne_nil, if_false] at others ⊢
              rw [others]
              simp [rereadItems]

theorem parseMembers_stringify (members : List (JsString × JsValue))
    (before : List (JsString × JsValue)) (fuel : Nat) (rest : JsString)
    (enough : (joinComma (stringifyMembers members)).length + 1 < fuel)
    (nonempty : stringifyMembers members ≠ []) :
    parseMembers fuel before (joinComma (stringifyMembers members) ++ 0x7D :: rest) =
      some (.object (rereadMembers before members), rest) := by
  cases fuel with
  | zero => omega
  | succ fuel =>
      cases members with
      | nil => exact absurd rfl nonempty
      | cons member members =>
          obtain ⟨key, value⟩ := member
          by_cases missing : value.isUndefined = true
          · have skipped : stringifyMembers ((key, value) :: members) = stringifyMembers members := by
              simp [stringifyMembers, missing]
            rw [skipped] at enough nonempty ⊢
            have others := parseMembers_stringify members before (fuel + 1) rest enough nonempty
            simp [others, rereadMembers, missing]
          · have written := stringifyMembers_written key members missing
            have follows := follows_separated (stringifyMembers members) rest (.inr rfl)
            rw [written, length_joinComma_cons, List.length_append] at enough
            have read := parseValue_stringify value fuel (by omega) follows
            have text : quote key ++ [0x3A] ++ stringify value ++
                separated (stringifyMembers members) 0x7D rest =
                  0x22 :: (quoteUnits key ++ 0x22 :: 0x3A ::
                    (stringify value ++ separated (stringifyMembers members) 0x7D rest)) := by
              simp [quote]
            rw [written, joinComma_cons, text, parseMembers, skipSpace_cons (by decide)]
            simp only [parseString_quoteUnits]
            rw [skipSpace_cons (by decide)]
            simp only [read, follows.skipSpace]
            by_cases last : stringifyMembers members = []
            · simp [separated, last, rereadMembers, missing, rereadMembers_of_none last]
            · have others := parseMembers_stringify members (setEntry before key (reread value))
                fuel rest (by simp only [last, if_false] at enough; omega) last
              simp [separated, last, rereadMembers, missing, others]

end

/-- The round trip of JSON text. -/
theorem parse_stringify (value : JsValue) : parse (stringify value) = some (reread value) := by
  have follows : Follows [] := by simp [Follows]
  have read := parseValue_stringify value (2 * (stringify value).length + 2) (by omega) follows
  rw [List.append_nil] at read
  simp [parse, read, skipSpace]

theorem skipSpace_spaces {spaces : JsString} (all : ∀ unit ∈ spaces, isJsonSpace unit = true)
    (text : JsString) : skipSpace (spaces ++ text) = skipSpace text := by
  induction spaces with
  | nil => rfl
  | cons unit spaces induction =>
      obtain ⟨space, others⟩ := List.forall_mem_cons.mp all
      rw [List.cons_append, skipSpace, if_pos space, induction others]

/-- Spaces before a text do not matter. -/
theorem parse_spaces_stringify {spaces : JsString}
    (all : ∀ unit ∈ spaces, isJsonSpace unit = true) (value : JsValue) :
    parse (spaces ++ stringify value) = some (reread value) := by
  have follows : Follows [] := by simp [Follows]
  have read := parseValue_stringify value (2 * (spaces ++ stringify value).length + 2)
    (by rw [List.length_append]; omega) follows
  rw [List.append_nil, parseValue, ← skipSpace_spaces all] at read
  rw [parse, parseValue, read]
  simp [skipSpace]

/-! ## The members of what is read back -/

def writtenMembers : List (JsString × JsValue) → List (JsString × JsValue)
  | [] => []
  | (key, value) :: rest =>
      if value.isUndefined then writtenMembers rest else (key, reread value) :: writtenMembers rest

theorem setEntry_new {read : List (JsString × JsValue)} {key : JsString} (value : JsValue)
    (new : key ∉ read.map Prod.fst) : setEntry read key value = read ++ [(key, value)] := by
  have none : read.any (·.1 = key) = false := by
    rw [← Bool.not_eq_true, any_key_iff]
    exact new
  simp [setEntry, none]

theorem rereadMembers_distinct {members read : List (JsString × JsValue)}
    (distinct : (members.map Prod.fst).Nodup)
    (fresh : ∀ name ∈ read.map Prod.fst, name ∉ members.map Prod.fst) :
    rereadMembers read members = read ++ writtenMembers members := by
  induction members generalizing read with
  | nil => simp [rereadMembers, writtenMembers]
  | cons member members induction =>
      obtain ⟨key, value⟩ := member
      obtain ⟨single, others⟩ := List.nodup_cons.mp distinct
      have later : ∀ name ∈ read.map Prod.fst, name ∉ members.map Prod.fst :=
        fun name held inside => fresh name held (List.mem_cons_of_mem key inside)
      by_cases missing : value.isUndefined = true
      · simp [rereadMembers, writtenMembers, missing, induction others later]
      · have new : key ∉ read.map Prod.fst := fun held => fresh key held (by simp)
        have further : ∀ name ∈ (read ++ [(key, reread value)]).map Prod.fst,
            name ∉ members.map Prod.fst := by
          intro name held
          rw [List.map_append, List.mem_append] at held
          rcases held with held | held
          · exact later name held
          · rwa [List.mem_singleton.mp held]
        simp [rereadMembers, writtenMembers, missing, setEntry_new _ new,
          induction others further]

theorem lookup_absent {key : JsString} {members : List (JsString × JsValue)}
    (absent : key ∉ members.map Prod.fst) :
    JsValue.lookup key (writtenMembers members) = .undefined := by
  induction members with
  | nil => rfl
  | cons member members induction =>
      obtain ⟨name, value⟩ := member
      have others := induction fun held => absent (List.mem_cons_of_mem name held)
      have different : name ≠ key := fun same => absent (by simp [same])
      by_cases missing : value.isUndefined = true
      · simp [writtenMembers, missing, others]
      · simp [writtenMembers, missing, JsValue.lookup, different, others]

/-- Of members with different keys, each is read back under its key. -/
theorem get_reread {key : JsString} {value : JsValue} {members : List (JsString × JsValue)}
    (distinct : (members.map Prod.fst).Nodup) (member : (key, value) ∈ members) :
    (reread (.object members)).get key =
      if value.isUndefined then .undefined else reread value := by
  rw [reread, JsValue.get, rereadMembers_distinct distinct (by simp), List.nil_append]
  induction members with
  | nil => cases member
  | cons first members induction =>
      obtain ⟨name, held⟩ := first
      obtain ⟨single, others⟩ := List.nodup_cons.mp distinct
      rcases List.mem_cons.mp member with same | inside
      · cases same
        by_cases missing : value.isUndefined = true
        · simp [writtenMembers, missing, lookup_absent single]
        · simp [writtenMembers, missing, JsValue.lookup]
      · have different : name ≠ key := by
          intro same
          rw [same] at single
          exact single (List.mem_map.mpr ⟨(key, value), inside, rfl⟩)
        have later := induction others inside
        by_cases missing : held.isUndefined = true
        · simp [writtenMembers, missing, later]
        · simp [writtenMembers, missing, JsValue.lookup, different, later]

/-! ## Lengths -/

theorem quoteUnit_length_pos (unit : UInt16) : 0 < (quoteUnit unit).length := by
  unfold quoteUnit
  repeat' split
  all_goals exact Nat.succ_pos _

theorem length_le_quoteUnits (text : JsString) : text.length ≤ (quoteUnits text).length := by
  fun_induction quoteUnits text with
  | case1 => exact Nat.le_refl _
  | case2 unit => exact quoteUnit_length_pos unit
  | case3 unit next rest pair induction =>
      simp only [List.length_cons] at induction ⊢
      omega
  | case4 unit next rest single induction =>
      have one := quoteUnit_length_pos unit
      simp only [List.length_cons, List.length_append] at induction ⊢
      omega

theorem length_lt_quote (text : JsString) : text.length < (quote text).length := by
  have units := length_le_quoteUnits text
  simp only [quote, List.length_append, List.length_singleton]
  omega

end Tapes.Js
