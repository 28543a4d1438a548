import Tapes.Events.Segment
import Tapes.Js.JsonScan

namespace Tapes.Events

open Tapes.Js

/-! What one line of a segment reads as: the line of a stored event, alone, behind a
torn one, or cut by a line terminator in one of its strings. -/

/-! ## Lines -/

/-- The text split at every terminator, the last piece kept even when empty. -/
def pieces (line : JsString) : JsString → List JsString
  | [] => [line]
  | unit :: rest =>
      if isLineEnd unit then line :: pieces [] rest else pieces (line ++ [unit]) rest

/-- The pieces a terminator ends. -/
def finished (line : JsString) : JsString → List JsString
  | [] => []
  | unit :: rest =>
      if isLineEnd unit then line :: finished [] rest else finished (line ++ [unit]) rest

/-- The piece behind the last terminator. -/
def unterminated (line : JsString) : JsString → JsString
  | [] => line
  | unit :: rest =>
      if isLineEnd unit then unterminated [] rest else unterminated (line ++ [unit]) rest

theorem readLine_nil : readLine [] = none := rfl

/-- The empty lines between `\r` and `\n`, and at the end, hold no event. -/
theorem filterMap_readLines (line text : JsString) :
    (readLines line text).filterMap readLine = (pieces line text).filterMap readLine := by
  fun_induction readLines line text with
  | case1 => simp [pieces, readLine_nil]
  | case2 line nonempty => simp [pieces]
  | case3 line rest induction =>
      have carriage : isLineEnd 0x0D = true := by decide
      have newline : isLineEnd 0x0A = true := by decide
      simp only [pieces, carriage, newline, if_true, List.filterMap_cons, readLine_nil, induction]
  | case4 line unit rest other ending induction =>
      simp [pieces, ending, List.filterMap_cons, induction]
  | case5 line unit rest other inside induction =>
      simp [pieces, inside, induction]

theorem pieces_append (line first second : JsString) :
    pieces line (first ++ second) =
      finished line first ++ pieces (unterminated line first) second := by
  induction first generalizing line with
  | nil => rfl
  | cons unit first induction =>
      by_cases ending : isLineEnd unit = true <;>
        simp [pieces, finished, unterminated, ending, induction]

theorem pieces_eq (line text : JsString) :
    pieces line text = finished line text ++ [unterminated line text] := by
  have whole := pieces_append line text []
  rwa [List.append_nil] at whole

def NoLineEnd (text : JsString) : Prop := ∀ unit ∈ text, isLineEnd unit = false

instance (text : JsString) : Decidable (NoLineEnd text) :=
  List.decidableBAll (fun unit => isLineEnd unit = false) text

theorem finished_of_noLineEnd (line : JsString) {text : JsString} (none : NoLineEnd text) :
    finished line text = [] ∧ unterminated line text = line ++ text := by
  induction text generalizing line with
  | nil => exact ⟨rfl, (List.append_nil line).symm⟩
  | cons unit text induction =>
      obtain ⟨here, others⟩ := List.forall_mem_cons.mp none
      obtain ⟨noneFinished, left⟩ := induction (line ++ [unit]) others
      simp [finished, unterminated, here, noneFinished, left]

theorem pieces_of_noLineEnd (line : JsString) {text : JsString} (none : NoLineEnd text) :
    pieces line text = [line ++ text] := by
  obtain ⟨noneFinished, left⟩ := finished_of_noLineEnd line none
  rw [pieces_eq, noneFinished, left, List.nil_append]

/-! ## The event a line holds -/

theorem eventMembers_distinct (event : StoredEvent) :
    ((eventMembers event).map Prod.fst).Nodup := by
  have keys : (eventMembers event).map Prod.fst = [js "id", js "recordingUrl", js "type",
      js "completion", js "occurredAt", js "deviceId", js "receivedAt"] := rfl
  rw [keys]
  decide

theorem get_storedValue (event : StoredEvent) {key : JsString} {value : JsValue}
    (member : (key, value) ∈ eventMembers event) : (reread (storedValue event)).get key =
      if value.isUndefined then .undefined else reread value :=
  get_reread (eventMembers_distinct event) member

theorem isStoredEvent_storedValue (event : StoredEvent) :
    isStoredEvent (reread (storedValue event)) =
      (decide (event.id ≠ []) && match event.completion with | .finite _ _ => true | _ => false) := by
  have id := get_storedValue event (List.mem_cons_self ..)
  have recordingUrl := get_storedValue event (.tail _ (List.mem_cons_self ..))
  have type := get_storedValue event (.tail _ (.tail _ (List.mem_cons_self ..)))
  have completion := get_storedValue event (.tail _ (.tail _ (.tail _ (List.mem_cons_self ..))))
  have receivedAt := get_storedValue event
    (.tail _ (.tail _ (.tail _ (.tail _ (.tail _ (.tail _ (List.mem_cons_self ..)))))))
  simp only [isStoredEvent, id, recordingUrl, type, completion, receivedAt]
  cases event.completion <;>
    simp [JsValue.isUndefined, reread, JsValue.string?, JsNumber.written]

theorem storedKey_storedValue (event : StoredEvent) :
    storedKey (reread (storedValue event)) = dedupeKey event.toPlaybackEvent := by
  have id := get_storedValue event (List.mem_cons_self ..)
  have deviceId := get_storedValue event
    (.tail _ (.tail _ (.tail _ (.tail _ (.tail _ (List.mem_cons_self ..))))))
  simp only [storedKey, id, deviceId, dedupeKey]
  cases event.deviceId <;> simp [JsValue.isUndefined, reread, templateText]

theorem parse_of_readLine {line : JsString} {record : JsValue}
    (read : readLine line = some record) :
    parse line = some record ∧ isStoredEvent record = true := by
  unfold readLine at read
  split at read
  · cases read
  · obtain ⟨parsed, whole, checked⟩ := Option.bind_eq_some_iff.mp read
    split at checked
    · rename_i stored
      cases checked
      exact ⟨whole, stored⟩
    · cases checked

theorem readLine_none_of_parse {line : JsString} (none : parse line = none) :
    readLine line = .none := by
  cases read : readLine line with
  | none => rfl
  | some record =>
      rw [(parse_of_readLine read).1] at none
      cases none

/-- A line that holds an event is an object, whose first key is followed by a colon. -/
theorem object_of_readLine {line : JsString} {record : JsValue}
    (read : readLine line = some record) : ∃ spaces before rest key left,
      Spaces spaces ∧ Spaces before ∧ line = spaces ++ 0x7B :: (before ++ 0x22 :: rest) ∧
        parseString rest = some (key, left) ∧ (skipSpace left).head? = some 0x3A := by
  obtain ⟨whole, stored⟩ := parse_of_readLine read
  cases record with
  | object members =>
      refine object_start whole ?_
      rintro rfl
      cases stored
  | _ => cases stored

/-! ## Lines cut inside a string -/

/-- Whether a text inside a string literal ends with a pending backslash, or none when
a quote closes the literal. -/
def literal : Bool → JsString → Option Bool
  | pending, [] => some pending
  | true, _ :: rest => literal false rest
  | false, unit :: rest => if unit = 0x22 then none else literal (unit = 0x5C) rest

/-- Whole units of a string literal, its quotes not among them. -/
def Content (line : JsString) : Prop := literal false line = some false

theorem literal_append (pending : Bool) (first second : JsString) :
    literal pending (first ++ second) = (literal pending first).bind (literal · second) := by
  fun_induction literal pending first with
  | case1 pending => rfl
  | case2 unit rest induction => simp [literal, induction]
  | case3 rest => simp [literal]
  | case4 unit rest other induction => simp [literal, other, induction]

theorem Content.append {first second : JsString} (left : Content first) (right : Content second) :
    Content (first ++ second) := by
  rw [Content, literal_append, left]
  exact right

theorem content_singleton {unit : UInt16} (quote : unit ≠ 0x22) (backslash : unit ≠ 0x5C) :
    Content [unit] := by
  simp [Content, literal, quote, backslash]

theorem content_escape (letter : UInt16) : Content [0x5C, letter] := rfl

theorem hexDigit_plain {digit : Nat} (small : digit < 16) :
    hexDigit digit ≠ 0x22 ∧ hexDigit digit ≠ 0x5C := by
  interval_cases digit <;> decide

theorem content_unicodeEscape (unit : UInt16) : Content (unicodeEscape unit) := by
  have first : unit.toNat / 0x1000 < 16 := by
    have small := unit.toNat_lt
    omega
  have digit : ∀ number, number % 0x10 < 16 := fun number => Nat.mod_lt number (by decide)
  have hex : ∀ {value}, value < 16 → Content [hexDigit value] := fun small =>
    content_singleton (hexDigit_plain small).1 (hexDigit_plain small).2
  exact (content_escape 0x75).append ((hex first).append ((hex (digit _)).append
    ((hex (digit _)).append (hex (digit _)))))

theorem content_quoteUnit (unit : UInt16) : Content (quoteUnit unit) := by
  unfold quoteUnit
  split_ifs with quote backslash
  · exact content_escape _
  · exact content_escape _
  · exact content_escape _
  · exact content_escape _
  · exact content_escape _
  · exact content_escape _
  · exact content_escape _
  · exact content_unicodeEscape unit
  · exact content_singleton quote backslash

/-- A text without quotes and backslashes before a quote is what stands before the
first quote. -/
theorem literal_unique {before rest line after : JsString}
    (plain : ∀ unit ∈ before, unit ≠ 0x22 ∧ unit ≠ 0x5C) (content : Content line)
    (same : line ++ 0x22 :: after = before ++ 0x22 :: rest) : line = before ∧ after = rest := by
  induction before generalizing line with
  | nil =>
      cases line with
      | nil => exact ⟨rfl, List.cons.inj same |>.2⟩
      | cons unit line =>
          have quote : unit = 0x22 := (List.cons.inj same).1
          simp [Content, literal, quote] at content
  | cons first before induction =>
      obtain ⟨here, others⟩ := List.forall_mem_cons.mp plain
      cases line with
      | nil => exact absurd (List.cons.inj same).1.symm here.1
      | cons unit line =>
          obtain ⟨rfl, tails⟩ := List.cons.inj same
          have rest : Content line := by simpa [Content, literal, here] using content
          obtain ⟨rfl, after⟩ := induction others rest tails
          exact ⟨rfl, after⟩

theorem plain_spaces {spaces before : JsString} (all : Spaces spaces) (allBefore : Spaces before) :
    ∀ unit ∈ spaces ++ 0x7B :: before, unit ≠ 0x22 ∧ unit ≠ 0x5C := by
  have plain : ∀ unit, isJsonSpace unit = true → unit ≠ 0x22 ∧ unit ≠ 0x5C := by
    intro unit space
    rcases isJsonSpace_cases space with rfl | rfl | rfl | rfl <;> decide
  intro unit member
  rcases List.mem_append.mp member with member | member
  · exact plain unit (all unit member)
  · rcases List.mem_cons.mp member with rfl | member
    · decide
    · exact plain unit (allBefore unit member)

theorem content_literal_none {before : JsString} (rest : JsString)
    (plain : ∀ unit ∈ before, unit ≠ 0x22 ∧ unit ≠ 0x5C) :
    literal false (before ++ 0x22 :: rest) = none := by
  induction before with
  | nil => rfl
  | cons unit before induction =>
      obtain ⟨here, others⟩ := List.forall_mem_cons.mp plain
      simp [literal, here, induction others]

/-- A line within a string literal holds no event. -/
theorem readLine_content {line : JsString} (content : Content line) : readLine line = none := by
  cases read : readLine line with
  | none => rfl
  | some record =>
      obtain ⟨spaces, before, rest, key, left, all, allBefore, split, -, -⟩ := object_of_readLine read
      have none := content_literal_none rest (plain_spaces all allBefore)
      rw [List.append_assoc, List.cons_append, ← split, content] at none
      cases none

/-- A line that closes a string literal and goes on as `rest` holds an event only if
that starts with a key. -/
theorem key_of_closed {line after : JsString} {record : JsValue} (content : Content line)
    (read : readLine (line ++ 0x22 :: after) = some record) :
    ∃ key left, parseString after = some (key, left) ∧ (skipSpace left).head? = some 0x3A := by
  obtain ⟨spaces, before, rest, key, left, all, allBefore, split, string, colon⟩ :=
    object_of_readLine read
  have regrouped : line ++ 0x22 :: after = (spaces ++ 0x7B :: before) ++ 0x22 :: rest := by
    rw [split, List.append_assoc, List.cons_append]
  obtain ⟨-, rfl⟩ := literal_unique (plain_spaces all allBefore) content regrouped
  exact ⟨key, left, string, colon⟩

/-- However the line goes on, it holds no event. -/
def Doomed (line : JsString) : Prop := ∀ more, readLine (line ++ more) = none

theorem Doomed.append {line : JsString} (doomed : Doomed line) (more : JsString) :
    Doomed (line ++ more) := by
  intro further
  rw [List.append_assoc]
  exact doomed _

theorem readLine_closed_end {line : JsString} (content : Content line) :
    readLine (line ++ [0x22, 0x7D]) = none := by
  cases read : readLine (line ++ [0x22, 0x7D]) with
  | none => rfl
  | some record =>
      obtain ⟨key, left, string, -⟩ := key_of_closed content read
      cases string

theorem doomed_closed {line : JsString} (content : Content line) {letter : UInt16}
    (refused : ∀ depth, (Scan.closed depth).step letter = .bad) :
    Doomed (line ++ [0x22, 0x2C, 0x22, letter]) := by
  intro more
  rw [List.append_assoc]
  cases read : readLine (line ++ ([0x22, 0x2C, 0x22, letter] ++ more)) with
  | none => rfl
  | some record =>
      obtain ⟨key, left, string, colon⟩ := key_of_closed content read
      have closes : parseString (0x2C :: 0x22 :: letter :: more) = some ([0x2C], letter :: more) := by
        rw [parseString_plain (by simp [IsPlain]), parseString_close]
        rfl
      have whole : some ([0x2C], letter :: more) = some (key, left) := closes.symm.trans string
      cases whole
      have space : isJsonSpace letter = false := by
        by_contra space
        have stays := closed_step_space 0 (Bool.eq_true_of_not_eq_false space)
        rw [refused 0] at stays
        cases stays
      rw [skipSpace_cons space] at colon
      cases colon
      cases refused 1

/-! ## The pieces of a line cut in a string -/

/-- The terminators that JSON text leaves as they are within strings. -/
def isSeparator (unit : UInt16) : Bool := unit = 0x2028 || unit = 0x2029

theorem hexDigit_inside {digit : Nat} (small : digit < 16) : isLineEnd (hexDigit digit) = false := by
  interval_cases digit <;> decide

theorem NoLineEnd.append {first second : JsString} (left : NoLineEnd first)
    (right : NoLineEnd second) : NoLineEnd (first ++ second) := by
  intro unit member
  rcases List.mem_append.mp member with member | member
  · exact left unit member
  · exact right unit member

theorem noLineEnd_quoteUnit {unit : UInt16} (inside : isSeparator unit = false) :
    NoLineEnd (quoteUnit unit) := by
  have first : unit.toNat / 0x1000 < 16 := by
    have small := unit.toNat_lt
    omega
  have digit : ∀ number, number % 0x10 < 16 := fun number => Nat.mod_lt number (by decide)
  unfold quoteUnit
  split_ifs with quote backslash backspace feed newline carriage
  · decide
  · decide
  · decide
  · decide
  · decide
  · decide
  · decide
  · simp [NoLineEnd, unicodeEscape, hexDigit_inside, first, digit]
    decide
  · simp only [isSeparator, Bool.or_eq_false_iff, decide_eq_false_iff_not] at inside
    simp [NoLineEnd, isLineEnd, newline, carriage, inside]

theorem quoteUnit_separator {unit : UInt16} (separator : isSeparator unit = true) :
    quoteUnit unit = [unit] ∧ isLineEnd unit = true := by
  simp only [isSeparator, Bool.or_eq_true, decide_eq_true_eq] at separator
  rcases separator with rfl | rfl <;> decide

theorem surrogate_not_separator {unit : UInt16}
    (surrogate : isHighSurrogate unit = true ∨ isLowSurrogate unit = true) :
    isLineEnd unit = false := by
  have other : ∀ delimiter, isHighSurrogate delimiter = false → isLowSurrogate delimiter = false →
      unit ≠ delimiter := by
    intro delimiter high low same
    rw [same, high, low] at surrogate
    simp at surrogate
  simp [isLineEnd, other 0x0A (by decide) (by decide), other 0x0D (by decide) (by decide),
    other 0x2028 (by decide) (by decide), other 0x2029 (by decide) (by decide)]

def Ignored (lines : List JsString) : Prop := ∀ line ∈ lines, readLine line = none

theorem pieces_pass (line : JsString) {passed : JsString} (rest : JsString)
    (inside : NoLineEnd passed) : pieces line (passed ++ rest) = pieces (line ++ passed) rest := by
  obtain ⟨none, left⟩ := finished_of_noLineEnd line inside
  rw [pieces_append, none, left, List.nil_append]

theorem pieces_separator (line : JsString) {unit : UInt16} (rest : JsString)
    (separator : isSeparator unit = true) :
    pieces line (quoteUnit unit ++ rest) = line :: pieces [] rest := by
  obtain ⟨single, ending⟩ := quoteUnit_separator separator
  rw [single, List.singleton_append, pieces, if_pos ending]

/-- Lines inside a string: whole content, or doomed before it began. -/
def Within (line : JsString) : Prop := Content line ∨ Doomed line

theorem Within.ignored {line : JsString} (within : Within line) : readLine line = none := by
  rcases within with content | doomed
  · exact readLine_content content
  · simpa using doomed []

theorem Within.append {line more : JsString} (within : Within line) (content : Content more) :
    Within (line ++ more) := by
  rcases within with left | doomed
  · exact .inl (left.append content)
  · exact .inr (doomed.append more)

/-- Pieces of a string's content are ignored when those of what follows are. -/
theorem ignored_quoteUnits {rest : JsString}
    (after : ∀ line, Within line → Ignored (pieces line (0x22 :: rest))) (text : JsString) :
    ∀ line, Within line → Ignored (pieces line (quoteUnits text ++ 0x22 :: rest)) := by
  have unit' : ∀ (unit : UInt16) (others : JsString),
      (∀ line, Within line → Ignored (pieces line others)) →
        ∀ line, Within line → Ignored (pieces line (quoteUnit unit ++ others)) := by
    intro unit others ignored line within
    by_cases separator : isSeparator unit = true
    · rw [pieces_separator line others separator]
      exact List.forall_mem_cons.mpr ⟨within.ignored, ignored [] (.inl rfl)⟩
    · rw [pieces_pass line others (noLineEnd_quoteUnit (Bool.eq_false_of_not_eq_true separator))]
      exact ignored _ (within.append (content_quoteUnit unit))
  fun_induction quoteUnits text with
  | case1 => exact after
  | case2 unit => exact unit' unit _ after
  | case3 unit next others pair induction =>
      intro line within
      simp only [Bool.and_eq_true] at pair
      have inside : NoLineEnd [unit, next] := by
        simp [NoLineEnd, surrogate_not_separator (.inl pair.1), surrogate_not_separator (.inr pair.2)]
      have plain : Content [unit, next] := by
        have first := isPlain_surrogate (.inl pair.1)
        have second := isPlain_surrogate (.inr pair.2)
        exact (content_singleton first.1 first.2.1).append
          (content_singleton second.1 second.2.1)
      have split : unit :: next :: quoteUnits others ++ 0x22 :: rest =
          [unit, next] ++ (quoteUnits others ++ 0x22 :: rest) := rfl
      rw [split, pieces_pass line _ inside]
      exact induction _ (within.append plain)
  | case4 unit next others single induction =>
      rw [List.append_assoc]
      exact unit' unit _ induction

/-! ## Objects of strings and numbers -/

/-- A key that starts with a letter. -/
structure Named (key : JsString) : Prop where
  letter : ∃ letter rest, quote key = 0x22 :: letter :: rest ∧
    ∀ depth, (Scan.closed depth).step letter = .bad
  inside : NoLineEnd (quote key)

def Flat : JsValue → Prop
  | .undefined | .number _ | .string _ => True
  | _ => False

def FlatMembers (members : List (JsString × JsValue)) : Prop :=
  ∀ member ∈ members, Named member.1 ∧ Flat member.2

/-- What is written of an object behind a member of it. -/
def tailText (members : List (JsString × JsValue)) : JsString :=
  separated (stringifyMembers members) 0x7D []

theorem tailText_undefined (key : JsString) (members : List (JsString × JsValue)) :
    tailText ((key, .undefined) :: members) = tailText members := rfl

theorem tailText_written (key : JsString) {value : JsValue} (members : List (JsString × JsValue))
    (defined : ¬ value.isUndefined = true) : tailText ((key, value) :: members) =
      (0x2C :: (quote key ++ [0x3A])) ++ (stringify value ++ tailText members) := by
  rw [tailText, stringifyMembers_written key members defined, separated, if_neg (by simp),
    joinComma_cons, tailText]
  simp

theorem stringify_members (key : JsString) {value : JsValue}
    (members : List (JsString × JsValue)) (defined : ¬ value.isUndefined = true) :
    stringify (.object ((key, value) :: members)) =
      (0x7B :: (quote key ++ [0x3A])) ++ (stringify value ++ tailText members) := by
  rw [stringify, stringifyMembers_written key members defined, List.append_assoc,
    List.singleton_append, joinComma_cons, tailText]
  simp

theorem noLineEnd_number (number : JsNumber) : NoLineEnd (stringify (.number number)) := by
  have null : NoLineEnd (js "null") := by decide
  cases number with
  | nan => exact null
  | infinite negative => exact null
  | finite negative magnitude =>
      have ends : NumberEnds [] := by simp [NumberEnds]
      obtain ⟨used, split, -, scalar⟩ := parseNumber_split
        (parseNumber_numberText negative magnitude ends)
      rw [List.append_nil, List.append_nil] at split
      intro unit member
      have here := scalar unit (split ▸ member)
      by_contra ending
      simp only [isLineEnd, Bool.not_eq_false, Bool.or_eq_true, decide_eq_true_eq,
        or_assoc] at ending
      rcases ending with rfl | rfl | rfl | rfl <;> cases here

/-- Behind the closing quote of content, or doomed before. -/
def Closed (line : JsString) : Prop := (∃ content, Content content ∧ line = content ++ [0x22]) ∨
  Doomed line

theorem Within.closed {line : JsString} (within : Within line) : Closed (line ++ [0x22]) := by
  rcases within with content | doomed
  · exact .inl ⟨line, content, rfl⟩
  · exact .inr (doomed.append _)

theorem Closed.key {line key : JsString} (closed : Closed line) (named : Named key) :
    Doomed (line ++ 0x2C :: (quote key ++ [0x3A])) := by
  rcases closed with ⟨content, within, rfl⟩ | doomed
  · obtain ⟨letter, rest, shape, refused⟩ := named.letter
    have split : content ++ [0x22] ++ 0x2C :: (quote key ++ [0x3A]) =
        content ++ [0x22, 0x2C, 0x22, letter] ++ (rest ++ [0x3A]) := by
      rw [shape]
      simp
    rw [split]
    exact (doomed_closed within refused).append _
  · exact doomed.append _

theorem ignored_tailText {members : List (JsString × JsValue)} (flat : FlatMembers members) :
    ∀ line, Closed line → Ignored (pieces line (tailText members)) := by
  induction members with
  | nil =>
      intro line closed
      have single : pieces line (tailText []) = [line ++ [0x7D]] := rfl
      rw [single]
      refine List.forall_mem_singleton.mpr ?_
      rcases closed with ⟨content, within, rfl⟩ | doomed
      · rw [List.append_assoc]
        exact readLine_closed_end within
      · exact doomed _
  | cons member members induction =>
      obtain ⟨⟨named, flatValue⟩, others⟩ := List.forall_mem_cons.mp flat
      have later := induction others
      obtain ⟨key, value⟩ := member
      intro line closed
      have doomed := closed.key named
      have inside : NoLineEnd (0x2C :: (quote key ++ [0x3A])) :=
        List.forall_mem_cons.mpr ⟨by decide, named.inside.append (by decide)⟩
      cases value with
      | undefined => exact later line closed
      | number number =>
          rw [tailText_written key members (by simp [JsValue.isUndefined]), pieces_pass _ _ inside,
            pieces_pass _ _ (noLineEnd_number number)]
          exact later _ (.inr (doomed.append _))
      | string text =>
          have opened : stringify (.string text) ++ tailText members =
              [0x22] ++ (quoteUnits text ++ 0x22 :: tailText members) := by
            simp [stringify, quote]
          rw [tailText_written key members (by simp [JsValue.isUndefined]), pieces_pass _ _ inside,
            opened, pieces_pass _ _ (by decide)]
          refine ignored_quoteUnits ?_ text _ (.inr (doomed.append _))
          intro line within
          rw [← List.singleton_append, pieces_pass _ _ (by decide)]
          exact later _ within.closed
      | _ => exact flatValue.elim

/-! ## The first piece, and the others -/

theorem tail_pieces (line other text : JsString) :
    (pieces line text).tail = (pieces other text).tail := by
  induction text generalizing line other with
  | nil => rfl
  | cons unit text induction =>
      by_cases ending : isLineEnd unit = true
      · simp [pieces, ending]
      · simp only [pieces, ending]
        exact induction _ _

theorem doomed_letter : Doomed [0x78] := by
  intro more
  cases read : readLine ([0x78] ++ more) with
  | none => rfl
  | some record =>
      obtain ⟨spaces, before, rest, key, left, all, -, split, -, -⟩ := object_of_readLine read
      cases spaces with
      | nil => cases split
      | cons unit spaces =>
          have space := all unit (by simp)
          rw [← (List.cons.inj split).1] at space
          cases space

theorem others_ignored {key : JsString} {value : JsValue} {members : List (JsString × JsValue)}
    (flat : FlatMembers ((key, value) :: members)) (defined : ¬ value.isUndefined = true)
    (line : JsString) : Ignored (pieces line (stringify (.object ((key, value) :: members)))).tail := by
  have named := (flat (key, value) (by simp)).1
  have inside : ∀ unit, isLineEnd unit = false → NoLineEnd (unit :: (quote key ++ [0x3A])) :=
    fun unit other => List.forall_mem_cons.mpr ⟨other, named.inside.append (by decide)⟩
  have ignored := ignored_tailText flat [0x78] (.inr doomed_letter)
  rw [tailText_written key members defined, pieces_pass _ _ (inside _ (by decide))] at ignored
  rw [stringify_members key members defined, pieces_pass _ _ (inside _ (by decide)),
    tail_pieces _ ([0x78] ++ 0x2C :: (quote key ++ [0x3A]))]
  exact fun piece member => ignored piece (List.mem_of_mem_tail member)

/-- The only terminators in the text are ones a string holds. -/
def OnlySeparators (text : JsString) : Prop :=
  ∀ unit ∈ text, isLineEnd unit = true → isSeparator unit = true

theorem OnlySeparators.of_noLineEnd {text : JsString} (inside : NoLineEnd text) :
    OnlySeparators text := by
  intro unit member ending
  rw [inside unit member] at ending
  cases ending

theorem OnlySeparators.append {first second : JsString} (left : OnlySeparators first)
    (right : OnlySeparators second) : OnlySeparators (first ++ second) := by
  intro unit member
  rcases List.mem_append.mp member with member | member
  · exact left unit member
  · exact right unit member

def NoSeparator (text : JsString) : Prop := ∀ unit ∈ text, isSeparator unit = false

instance (text : JsString) : Decidable (NoSeparator text) :=
  List.decidableBAll (fun unit => isSeparator unit = false) text

/-- Which terminators a string literal holds. -/
theorem lineEnds_quoteUnits (text : JsString) : OnlySeparators (quoteUnits text) ∧
    (NoLineEnd (quoteUnits text) ↔ NoSeparator text) := by
  have unit' : ∀ unit : UInt16, OnlySeparators (quoteUnit unit) ∧
      (NoLineEnd (quoteUnit unit) ↔ isSeparator unit = false) := by
    intro unit
    by_cases separator : isSeparator unit = true
    · obtain ⟨single, ending⟩ := quoteUnit_separator separator
      rw [single]
      refine ⟨?_, ?_⟩
      · intro other member _
        rwa [List.mem_singleton.mp member]
      · simp [NoLineEnd, separator, ending]
    · have inside := noLineEnd_quoteUnit (Bool.eq_false_of_not_eq_true separator)
      exact ⟨.of_noLineEnd inside, by simp [inside, separator]⟩
  have split : ∀ first second : JsString,
      NoLineEnd (first ++ second) ↔ NoLineEnd first ∧ NoLineEnd second := by
    intro first second
    simp only [NoLineEnd, List.forall_mem_append]
  fun_induction quoteUnits text with
  | case1 => simp [OnlySeparators, NoLineEnd, NoSeparator]
  | case2 unit => simpa [NoSeparator] using unit' unit
  | case3 unit next others pair induction =>
      simp only [Bool.and_eq_true] at pair
      have first := surrogate_not_separator (.inl pair.1)
      have second := surrogate_not_separator (.inr pair.2)
      have inside : NoLineEnd [unit, next] := by simp [NoLineEnd, first, second]
      have plain : isSeparator unit = false ∧ isSeparator next = false := by
        have weaker : ∀ unit, isLineEnd unit = false → isSeparator unit = false := by
          intro unit other
          simp only [isLineEnd, Bool.or_eq_false_iff] at other
          simp [isSeparator, other]
        exact ⟨weaker unit first, weaker next second⟩
      have whole : unit :: next :: quoteUnits others = [unit, next] ++ quoteUnits others := rfl
      rw [whole, split]
      refine ⟨(OnlySeparators.of_noLineEnd inside).append induction.1, ?_⟩
      rw [induction.2]
      simp [inside, NoSeparator, plain]
  | case4 unit next others single induction =>
      rw [split]
      refine ⟨(unit' unit).1.append induction.1, ?_⟩
      rw [(unit' unit).2, induction.2]
      simp [NoSeparator]

def SafeValue : JsValue → Prop
  | .string text => NoSeparator text
  | _ => True

theorem lineEnds_value {value : JsValue} (flat : Flat value) :
    OnlySeparators (stringify value) ∧ (NoLineEnd (stringify value) ↔ SafeValue value) := by
  cases value with
  | undefined =>
      have inside : NoLineEnd (stringify .undefined) := by decide
      exact ⟨.of_noLineEnd inside, by simp [inside, SafeValue]⟩
  | number number =>
      have inside := noLineEnd_number number
      exact ⟨.of_noLineEnd inside, by simp [inside, SafeValue]⟩
  | string text =>
      have quotes : NoLineEnd [0x22] := by decide
      obtain ⟨only, iff⟩ := lineEnds_quoteUnits text
      refine ⟨((OnlySeparators.of_noLineEnd quotes).append only).append (.of_noLineEnd quotes), ?_⟩
      simp only [stringify, quote, SafeValue, ← iff, NoLineEnd, List.forall_mem_append]
      exact ⟨fun all => all.1.2, fun all => ⟨⟨quotes, all⟩, quotes⟩⟩
  | _ => exact flat.elim

theorem lineEnds_opened {key : JsString} {value : JsValue} {opening : UInt16} {rest : JsString}
    {holds : Prop} (other : isLineEnd opening = false) (named : Named key) (flat : Flat value)
    (after : OnlySeparators rest ∧ (NoLineEnd rest ↔ holds)) :
    OnlySeparators ((opening :: (quote key ++ [0x3A])) ++ (stringify value ++ rest)) ∧
      (NoLineEnd ((opening :: (quote key ++ [0x3A])) ++ (stringify value ++ rest)) ↔
        SafeValue value ∧ holds) := by
  have inside : NoLineEnd (opening :: (quote key ++ [0x3A])) :=
    List.forall_mem_cons.mpr ⟨other, named.inside.append (by decide)⟩
  obtain ⟨onlyValue, iffValue⟩ := lineEnds_value flat
  obtain ⟨only, iff⟩ := after
  refine ⟨(OnlySeparators.of_noLineEnd inside).append (onlyValue.append only), ?_⟩
  rw [← iff, ← iffValue]
  simp only [NoLineEnd, List.forall_mem_append] at inside ⊢
  exact ⟨fun all => all.2, fun all => ⟨inside, all⟩⟩

theorem lineEnds_tailText {members : List (JsString × JsValue)} (flat : FlatMembers members) :
    OnlySeparators (tailText members) ∧
      (NoLineEnd (tailText members) ↔ ∀ member ∈ members, SafeValue member.2) := by
  induction members with
  | nil =>
      have inside : NoLineEnd (tailText []) := by decide
      exact ⟨.of_noLineEnd inside, by simp [inside]⟩
  | cons member members induction =>
      obtain ⟨⟨named, flatValue⟩, others⟩ := List.forall_mem_cons.mp flat
      have later := induction others
      obtain ⟨key, value⟩ := member
      rw [List.forall_mem_cons]
      by_cases missing : value.isUndefined = true
      · cases value with
        | undefined =>
            rw [tailText_undefined]
            exact ⟨later.1, by simp [later.2, SafeValue]⟩
        | _ => cases missing
      · rw [tailText_written key members missing]
        exact lineEnds_opened (by decide) named flatValue later

theorem lineEnds_object {key : JsString} {value : JsValue} {members : List (JsString × JsValue)}
    (flat : FlatMembers ((key, value) :: members)) (defined : ¬ value.isUndefined = true) :
    OnlySeparators (stringify (.object ((key, value) :: members))) ∧
      (NoLineEnd (stringify (.object ((key, value) :: members))) ↔
        ∀ member ∈ (key, value) :: members, SafeValue member.2) := by
  obtain ⟨⟨named, flatValue⟩, others⟩ := List.forall_mem_cons.mp flat
  rw [stringify_members key members defined, List.forall_mem_cons]
  exact lineEnds_opened (by decide) named flatValue (lineEnds_tailText others)

/-- A text with a terminator, cut at the first one. -/
theorem cut_of_lineEnd {text : JsString} (only : OnlySeparators text) (ends : ¬ NoLineEnd text) :
    ∃ front unit back, text = front ++ unit :: back ∧ NoLineEnd front ∧
      isSeparator unit = true := by
  induction text with
  | nil => exact absurd (by simp [NoLineEnd]) ends
  | cons first text induction =>
      obtain ⟨here, others⟩ := List.forall_mem_cons.mp only
      by_cases ending : isLineEnd first = true
      · exact ⟨[], first, text, rfl, by simp [NoLineEnd], here ending⟩
      · have rest : ¬ NoLineEnd text := fun inside =>
          ends (List.forall_mem_cons.mpr ⟨Bool.eq_false_of_not_eq_true ending, inside⟩)
        obtain ⟨front, unit, back, split, inside, separator⟩ := induction others rest
        exact ⟨first :: front, unit, back, congrArg (first :: ·) split,
          List.forall_mem_cons.mpr ⟨Bool.eq_false_of_not_eq_true ending, inside⟩, separator⟩

theorem pieces_cut (line : JsString) {front back : JsString} {unit : UInt16}
    (inside : NoLineEnd front) (ending : isLineEnd unit = true) :
    pieces line (front ++ unit :: back) = (line ++ front) :: pieces [] back := by
  rw [pieces_pass _ _ inside, pieces, if_pos ending]

/-- The head of a written object. -/
theorem object_head {key : JsString} {value : JsValue} {members : List (JsString × JsValue)}
    (named : Named key) (defined : ¬ value.isUndefined = true) : ∃ letter after,
      stringify (.object ((key, value) :: members)) = 0x7B :: 0x22 :: letter :: after ∧
        (∀ depth, (Scan.closed depth).step letter = .bad) ∧ isLineEnd letter = false := by
  obtain ⟨letter, rest, shape, refused⟩ := named.letter
  have inside := named.inside
  rw [shape] at inside
  have head : stringify (.object ((key, value) :: members)) = 0x7B :: 0x22 :: letter ::
      (rest ++ [0x3A] ++ (stringify value ++ tailText members)) := by
    rw [stringify_members key members defined, shape]
    rfl
  exact ⟨letter, _, head, refused, inside letter (by simp)⟩

theorem isForeign_of_isSeparator {unit : UInt16} (separator : isSeparator unit = true) :
    Scan.isForeign unit = true ∧ isLineEnd unit = true := by
  simp only [isSeparator, Bool.or_eq_true, decide_eq_true_eq] at separator
  rcases separator with rfl | rfl <;> decide

/-- The head of what stands before a separator. -/
theorem front_head {letter unit : UInt16} {after front back : JsString}
    (split : 0x7B :: 0x22 :: letter :: after = front ++ unit :: back)
    (other : isLineEnd letter = false) (separator : isSeparator unit = true) :
    ∃ more, front = 0x7B :: 0x22 :: letter :: more := by
  have here : ∀ unit', isLineEnd unit' = false → unit' ≠ unit := by
    intro unit' inside same
    rw [same, (isForeign_of_isSeparator separator).2] at inside
    cases inside
  cases front with
  | nil => exact absurd (List.cons.inj split).1 (here 0x7B (by decide))
  | cons first front =>
      have firstSplit := List.cons.inj split
      cases front with
      | nil => exact absurd (List.cons.inj firstSplit.2).1 (here 0x22 (by decide))
      | cons second front =>
          have secondSplit := List.cons.inj firstSplit.2
          cases front with
          | nil => exact absurd (List.cons.inj secondSplit.2).1 (here letter other)
          | cons third front =>
              have thirdSplit := List.cons.inj secondSplit.2
              exact ⟨front, by rw [← firstSplit.1, ← secondSplit.1, ← thirdSplit.1]⟩

/-- A written object cut in a string holds no event in any piece. -/
theorem ignored_cut_object {key : JsString} {value : JsValue} {members : List (JsString × JsValue)}
    (flat : FlatMembers ((key, value) :: members)) (defined : ¬ value.isUndefined = true)
    (cut : ¬ ∀ member ∈ (key, value) :: members, SafeValue member.2) (line : JsString) :
    Ignored (pieces line (stringify (.object ((key, value) :: members)))) := by
  obtain ⟨only, iff⟩ := lineEnds_object flat defined
  obtain ⟨front, unit, back, split, inside, separator⟩ := cut_of_lineEnd only (iff.not.mpr cut)
  obtain ⟨foreign, ending⟩ := isForeign_of_isSeparator separator
  have others := others_ignored flat defined line
  have scanned := ScannedValue.of_stringify (.object ((key, value) :: members))
  have headNamed := (flat (key, value) List.mem_cons_self).1
  obtain ⟨letter, after, head, refused, other⟩ := object_head headNamed defined
  rw [split, pieces_cut line inside ending] at others ⊢
  refine List.forall_mem_cons.mpr ⟨?_, others⟩
  rw [split] at scanned
  obtain ⟨nested, top⟩ := scanned.cut foreign
  obtain ⟨more, rfl⟩ := front_head (head.symm.trans split) other separator
  exact readLine_none_of_parse (parse_behind refused nested fun _ => top)

/-- A written object behind a text that is not blank holds no event in any piece. -/
theorem ignored_behind {key : JsString} {value : JsValue} {members : List (JsString × JsValue)}
    (flat : FlatMembers ((key, value) :: members)) (defined : ¬ value.isUndefined = true)
    {line : JsString} (nonblank : ¬ Spaces line) :
    Ignored (pieces line (stringify (.object ((key, value) :: members)))) := by
  by_cases safe : ∀ member ∈ (key, value) :: members, SafeValue member.2
  · have inside := (lineEnds_object flat defined).2.mpr safe
    have scanned := ScannedValue.of_stringify (.object ((key, value) :: members))
    have headNamed := (flat (key, value) List.mem_cons_self).1
    obtain ⟨letter, after, head, refused, -⟩ := object_head headNamed defined
    rw [pieces_of_noLineEnd line inside]
    refine List.forall_mem_singleton.mpr (readLine_none_of_parse ?_)
    rw [head] at scanned ⊢
    exact parse_behind refused scanned.nested_open fun blank => absurd blank nonblank
  · exact ignored_cut_object flat defined safe line

/-- A written object on one line, behind spaces at most. -/
theorem readLine_object {key : JsString} {value : JsValue} {members : List (JsString × JsValue)}
    (defined : ¬ value.isUndefined = true) {line : JsString} (blank : Spaces line) :
    readLine (line ++ stringify (.object ((key, value) :: members))) =
      if isStoredEvent (reread (.object ((key, value) :: members))) then
        some (reread (.object ((key, value) :: members))) else none := by
  have brace : isWhiteSpace 0x7B = false := by decide
  have written : (line ++ stringify (.object ((key, value) :: members))).all isWhiteSpace = false := by
    rw [stringify_members key members defined, List.all_append]
    simp [brace]
  rw [readLine, written, parse_spaces_stringify blank]
  rfl

/-! ## The line of an event -/

def isFinite : JsNumber → Bool
  | .finite _ _ => true
  | _ => false

/-- An event whose line reads back: no separator in its strings, and a completion. -/
def LineSafe (event : PlaybackEvent) : Prop :=
  isFinite event.completion = true ∧ NoSeparator event.id ∧ NoSeparator event.recordingUrl ∧
    NoSeparator event.occurredAt ∧ NoSeparator (event.deviceId.getD [])

theorem refused_letter {letter : UInt16} (space : isJsonSpace letter = false)
    (comma : letter ≠ 0x2C) (colon : letter ≠ 0x3A) (closing : Scan.isClosing letter = false)
    (depth : Nat) : (Scan.closed depth).step letter = .bad := by
  simp [Scan.step, space, comma, colon, closing]

theorem named_keys : ∀ key ∈ [js "id", js "recordingUrl", js "type", js "completion",
    js "occurredAt", js "deviceId", js "receivedAt"], Named key := by
  have named : ∀ (letter : UInt16) (rest : JsString) (key : JsString),
      quote key = 0x22 :: letter :: rest → isJsonSpace letter = false → letter ≠ 0x2C →
        letter ≠ 0x3A → Scan.isClosing letter = false → NoLineEnd (quote key) → Named key :=
    fun letter rest key shape space comma colon closing inside =>
      ⟨⟨letter, rest, shape, refused_letter space comma colon closing⟩, inside⟩
  intro key member
  simp only [List.mem_cons, List.not_mem_nil, or_false] at member
  rcases member with rfl | rfl | rfl | rfl | rfl | rfl | rfl <;>
    exact named _ _ _ rfl (by decide) (by decide) (by decide) (by decide) (by decide)

theorem flat_eventMembers (event : StoredEvent) : FlatMembers (eventMembers event) := by
  intro member inside
  have key : member.1 ∈ (eventMembers event).map Prod.fst := List.mem_map_of_mem inside
  refine ⟨named_keys _ key, ?_⟩
  simp only [eventMembers, List.mem_cons, List.not_mem_nil, or_false] at inside
  rcases inside with rfl | rfl | rfl | rfl | rfl | rfl | rfl <;> try trivial
  cases event.deviceId <;> trivial

theorem safe_eventMembers (event : StoredEvent) (received : NoSeparator event.receivedAt) :
    (∀ member ∈ eventMembers event, SafeValue member.2) ↔
      NoSeparator event.id ∧ NoSeparator event.recordingUrl ∧ NoSeparator event.occurredAt ∧
        NoSeparator (event.deviceId.getD []) := by
  have play : NoSeparator (js "play") := by decide
  have nothing : NoSeparator [] := by decide
  cases device : event.deviceId <;>
    simp only [eventMembers, device, List.forall_mem_cons, SafeValue, play, received, nothing,
      Option.map_none, Option.map_some, Option.getD_none, Option.getD_some, true_and, and_true,
      List.not_mem_nil, false_implies, implies_true]

/-- What the line of an event adds behind the text `line`: the event, if the text is
blank and the event safe, else nothing. -/
theorem records_lineText (event : StoredEvent) (identified : event.id ≠ [])
    (received : NoSeparator event.receivedAt) (line : JsString) :
    (LineSafe event.toPlaybackEvent → Spaces line →
      (pieces line (lineText event)).filterMap readLine = [reread (storedValue event)]) ∧
    (¬ (LineSafe event.toPlaybackEvent ∧ Spaces line) →
      (pieces line (lineText event)).filterMap readLine = []) := by
  have flat := flat_eventMembers event
  have safe := safe_eventMembers event received
  have defined : ¬ (JsValue.string event.id).isUndefined = true := by simp [JsValue.isUndefined]
  have stored : isStoredEvent (reread (storedValue event)) = isFinite event.completion := by
    rw [isStoredEvent_storedValue]
    cases event.completion <;> simp [identified, isFinite]
  have single : Spaces line → NoLineEnd (lineText event) →
      (pieces line (lineText event)).filterMap readLine =
        if isFinite event.completion then [reread (storedValue event)] else [] := by
    intro blank inside
    have read : readLine (line ++ lineText event) = if isStoredEvent (reread (storedValue event))
        then some (reread (storedValue event)) else none := readLine_object defined blank
    rw [pieces_of_noLineEnd line inside, List.filterMap_cons, read, stored]
    cases isFinite event.completion <;> rfl
  have ignored : Ignored (pieces line (lineText event)) →
      (pieces line (lineText event)).filterMap readLine = [] :=
    fun ignored => List.filterMap_eq_nil_iff.mpr ignored
  refine ⟨?_, ?_⟩
  · intro lineSafe blank
    rw [single blank ((lineEnds_object flat defined).2.mpr (safe.mpr lineSafe.2)), lineSafe.1]
    rfl
  · intro not
    by_cases blank : Spaces line
    · by_cases strings : ∀ member ∈ eventMembers event, SafeValue member.2
      · rw [single blank ((lineEnds_object flat defined).2.mpr strings)]
        have infinite : isFinite event.completion = false := by
          by_contra finite
          exact not ⟨⟨Bool.eq_true_of_not_eq_false finite, safe.mp strings⟩, blank⟩
        rw [infinite]
        rfl
      · exact ignored (ignored_cut_object flat defined strings line)
    · exact ignored (ignored_behind flat defined blank)

end Tapes.Events
