import Tapes.Js.JsonScan

namespace Tapes.Js

/-! `JSON.stringify(value, null, gap)`, which sets items and members on lines of their own, and
that parsing it gives the value back. -/

/-- Texts that a comma and a line break separate. -/
def joinLines (lineBreak : JsString) : List JsString → JsString
  | [] => []
  | [text] => text
  | text :: next :: rest => text ++ [0x2C] ++ lineBreak ++ joinLines lineBreak (next :: rest)

/-- What stands between two brackets. -/
def bracketed (gap indent : JsString) (texts : List JsString) : JsString :=
  if texts = [] then []
  else [0x0A] ++ indent ++ gap ++ joinLines ([0x0A] ++ indent ++ gap) texts ++ [0x0A] ++ indent

mutual

/-- A value other than `undefined`, in a text that is indented by `indent` so far. -/
def stringifyIndented (gap indent : JsString) : JsValue → JsString
  | .array items =>
      [0x5B] ++ bracketed gap indent (stringifyIndentedItems gap (indent ++ gap) items) ++ [0x5D]
  | .object members =>
      [0x7B] ++ bracketed gap indent (stringifyIndentedMembers gap (indent ++ gap) members) ++ [0x7D]
  | value => stringify value

def stringifyIndentedItems (gap indent : JsString) : List JsValue → List JsString
  | [] => []
  | item :: rest => stringifyIndented gap indent item :: stringifyIndentedItems gap indent rest

def stringifyIndentedMembers (gap indent : JsString) : List (JsString × JsValue) → List JsString
  | [] => []
  | (key, value) :: rest =>
      if value.isUndefined then stringifyIndentedMembers gap indent rest
      else
        (quote key ++ [0x3A, 0x20] ++ stringifyIndented gap indent value) ::
          stringifyIndentedMembers gap indent rest

end

/-! ## Spaces -/

theorem Spaces.append {left right : JsString} (blank : Spaces left) (blank_right : Spaces right) :
    Spaces (left ++ right) := by
  intro unit member
  cases List.mem_append.mp member with
  | inl inside => exact blank unit inside
  | inr inside => exact blank_right unit inside

theorem spaces_newline : Spaces [0x0A] := by
  intro unit member
  cases List.mem_singleton.mp member
  rfl

/-- Blanks before a bracket or a comma end a number. -/
theorem numberEnds_blank {blank : JsString} (spaces : Spaces blank) {rest : JsString}
    (ends : NumberEnds rest) : NumberEnds (blank ++ rest) := by
  cases blank with
  | nil => exact ends
  | cons unit blank =>
      intro first head
      cases head
      have space := spaces unit List.mem_cons_self
      simp only [isJsonSpace, Bool.or_eq_true, decide_eq_true_eq] at space
      rcases space with ((rfl | rfl) | rfl) | rfl <;> decide

theorem parseValue_blank {blank : JsString} (spaces : Spaces blank) (fuel : Nat)
    (text : JsString) : parseValue fuel (blank ++ text) = parseValue fuel text := by
  cases fuel with
  | zero => rfl
  | succ fuel => rw [parseValue, parseValue, skipSpace_spaces spaces]

theorem parseItems_blank {blank : JsString} (spaces : Spaces blank) (fuel : Nat)
    (items : List JsValue) (text : JsString) :
    parseItems fuel items (blank ++ text) = parseItems fuel items text := by
  cases fuel with
  | zero => rfl
  | succ fuel => rw [parseItems, parseItems, parseValue_blank spaces]

theorem parseMembers_blank {blank : JsString} (spaces : Spaces blank) (fuel : Nat)
    (members : List (JsString × JsValue)) (text : JsString) :
    parseMembers fuel members (blank ++ text) = parseMembers fuel members text := by
  cases fuel with
  | zero => rfl
  | succ fuel => rw [parseMembers, parseMembers, skipSpace_spaces spaces]

theorem parseValue_array (fuel : Nat) {blank after : JsString} {unit : UInt16}
    (spaces : Spaces blank) (space : isJsonSpace unit = false) (more : unit ≠ 0x5D) :
    parseValue (fuel + 1) (0x5B :: (blank ++ unit :: after)) =
      parseItems fuel [] (unit :: after) := by
  rw [parseValue, skipSpace_cons (by decide)]
  simp [skipSpace_spaces spaces, skipSpace_cons space, more]

theorem parseValue_object (fuel : Nat) {blank : JsString} (after : JsString)
    (spaces : Spaces blank) :
    parseValue (fuel + 1) (0x7B :: (blank ++ 0x22 :: after)) =
      parseMembers fuel [] (0x22 :: after) := by
  have space : isJsonSpace 0x22 = false := by decide
  rw [parseValue, skipSpace_cons (by decide)]
  simp [skipSpace_spaces spaces, skipSpace_cons space]

/-! ## Lines -/

/-- What is left of the lines of a list, its first text written. -/
def linesAfter (lineBreak ending : JsString) (texts : List JsString) (close : UInt16)
    (rest : JsString) : JsString :=
  if texts = [] then ending ++ close :: rest
  else 0x2C :: (lineBreak ++ (joinLines lineBreak texts ++ (ending ++ close :: rest)))

theorem joinLines_cons (lineBreak ending text : JsString) (texts : List JsString) (close : UInt16)
    (rest : JsString) :
    joinLines lineBreak (text :: texts) ++ (ending ++ close :: rest) =
      text ++ linesAfter lineBreak ending texts close rest := by
  cases texts with
  | nil => simp [joinLines, linesAfter]
  | cons next texts => simp [joinLines, linesAfter]

theorem length_joinLines_cons (lineBreak text : JsString) (texts : List JsString) :
    (joinLines lineBreak (text :: texts)).length =
      text.length +
        (if texts = [] then 0 else lineBreak.length + (joinLines lineBreak texts).length + 1) := by
  cases texts with
  | nil => simp [joinLines]
  | cons next texts =>
      simp only [joinLines, List.length_append, List.length_singleton, List.cons_ne_nil, if_false]
      omega

theorem numberEnds_linesAfter (lineBreak : JsString) {ending : JsString} (blank : Spaces ending)
    (texts : List JsString) {close : UInt16} (rest : JsString)
    (closes : close = 0x5D ∨ close = 0x7D) :
    NumberEnds (linesAfter lineBreak ending texts close rest) := by
  unfold linesAfter
  split
  · apply numberEnds_blank blank
    intro unit head
    cases head
    cases closes with
    | inl bracket => subst bracket; decide
    | inr brace => subst brace; decide
  · intro unit head
    cases head
    decide

/-- Behind the last text of a list comes its closing bracket. -/
theorem skipSpace_linesAfter_nil {ending : JsString} (blank : Spaces ending) (lineBreak : JsString)
    {close : UInt16} (rest : JsString) (closes : close = 0x5D ∨ close = 0x7D) :
    skipSpace (linesAfter lineBreak ending [] close rest) = close :: rest := by
  rw [linesAfter, if_pos rfl, skipSpace_spaces blank]
  apply skipSpace_cons
  cases closes with
  | inl bracket => subst bracket; decide
  | inr brace => subst brace; decide

theorem skipSpace_linesAfter_cons (lineBreak ending : JsString) {texts : List JsString}
    (more : texts ≠ []) (close : UInt16) (rest : JsString) :
    skipSpace (linesAfter lineBreak ending texts close rest) =
      0x2C :: (lineBreak ++ (joinLines lineBreak texts ++ (ending ++ close :: rest))) := by
  rw [linesAfter, if_neg more, skipSpace_cons (by decide)]

theorem stringifyIndented_head (gap indent : JsString) (value : JsValue) : ∃ unit after,
    stringifyIndented gap indent value = unit :: after ∧ isJsonSpace unit = false ∧
      unit ≠ 0x5D := by
  cases value with
  | array items => exact ⟨_, _, rfl, by decide, by decide⟩
  | object members => exact ⟨_, _, rfl, by decide, by decide⟩
  | undefined => exact stringify_head .undefined
  | null => exact stringify_head .null
  | boolean value => exact stringify_head (.boolean value)
  | number value => exact stringify_head (.number value)
  | string value => exact stringify_head (.string value)

theorem stringifyIndentedMembers_written (gap indent key : JsString) {value : JsValue}
    (members : List (JsString × JsValue)) (defined : ¬ value.isUndefined = true) :
    stringifyIndentedMembers gap indent ((key, value) :: members) =
      (quote key ++ [0x3A, 0x20] ++ stringifyIndented gap indent value) ::
        stringifyIndentedMembers gap indent members := by
  simp [stringifyIndentedMembers, defined]

theorem rereadMembers_of_no_line {gap indent : JsString} {members : List (JsString × JsValue)}
    (none : stringifyIndentedMembers gap indent members = [])
    (before : List (JsString × JsValue)) : rereadMembers before members = before := by
  induction members with
  | nil => rfl
  | cons member members induction =>
      obtain ⟨key, value⟩ := member
      by_cases missing : value.isUndefined = true
      · simp only [stringifyIndentedMembers, missing, if_true] at none
        simp only [rereadMembers, missing, if_true, induction none]
      · simp [stringifyIndentedMembers, missing] at none

theorem stringifyIndentedMembers_head {gap indent : JsString}
    {members : List (JsString × JsValue)}
    (nonempty : stringifyIndentedMembers gap indent members ≠ []) (lineBreak rest : JsString) :
    ∃ after, joinLines lineBreak (stringifyIndentedMembers gap indent members) ++ rest =
      0x22 :: after := by
  induction members with
  | nil => exact absurd rfl nonempty
  | cons member members induction =>
      obtain ⟨key, value⟩ := member
      by_cases missing : value.isUndefined = true
      · simp only [stringifyIndentedMembers, missing, if_true] at nonempty ⊢
        exact induction nonempty
      · rw [stringifyIndentedMembers_written gap indent key members missing]
        cases stringifyIndentedMembers gap indent members with
        | nil => exact ⟨_, rfl⟩
        | cons next texts => exact ⟨_, rfl⟩

/-- A list that is not empty, between its brackets. -/
theorem bracketed_append (gap indent : JsString) {texts : List JsString} (more : texts ≠ [])
    (close : UInt16) (rest : JsString) :
    bracketed gap indent texts ++ close :: rest =
      ([0x0A] ++ indent ++ gap) ++
        (joinLines ([0x0A] ++ indent ++ gap) texts ++ (([0x0A] ++ indent) ++ close :: rest)) := by
  simp [bracketed, more]

theorem length_bracketed (gap indent : JsString) {texts : List JsString} (more : texts ≠ []) :
    (joinLines ([0x0A] ++ indent ++ gap) texts).length + 2 ≤
      (bracketed gap indent texts).length := by
  simp only [bracketed, more, if_false, List.length_append, List.length_singleton]
  omega

mutual

theorem parseValue_indented {gap : JsString} (gaps : Spaces gap) (value : JsValue)
    {indent : JsString} (indents : Spaces indent) (fuel : Nat) {rest : JsString}
    (enough : (stringifyIndented gap indent value).length < fuel) (ends : NumberEnds rest) :
    parseValue fuel (stringifyIndented gap indent value ++ rest) = some (reread value, rest) := by
  cases fuel with
  | zero => omega
  | succ fuel =>
      have further : Spaces (indent ++ gap) := indents.append gaps
      have lineBreaks : Spaces ([0x0A] ++ indent ++ gap) :=
        (spaces_newline.append indents).append gaps
      have endings : Spaces ([0x0A] ++ indent) := spaces_newline.append indents
      cases value with
      | undefined => exact parseValue_null fuel rest
      | null => exact parseValue_null fuel rest
      | boolean value => exact parseValue_boolean fuel value rest
      | number number => exact parseValue_number fuel number ends
      | string text => exact parseValue_string fuel text rest
      | array items =>
          cases items with
          | nil => rfl
          | cons item items =>
              have more : stringifyIndentedItems gap (indent ++ gap) (item :: items) ≠ [] := by
                simp [stringifyIndentedItems]
              have short := length_bracketed gap indent more
              simp only [stringifyIndented, List.length_append, List.length_singleton] at enough
              have read := parseItems_indented gaps (item :: items) (List.cons_ne_nil _ _) further
                lineBreaks endings [] fuel rest (by omega)
              obtain ⟨unit, after, head, space, bracket⟩ :=
                stringifyIndented_head gap (indent ++ gap) item
              have text : stringifyIndented gap indent (.array (item :: items)) ++ rest =
                  0x5B :: (([0x0A] ++ indent ++ gap) ++ (joinLines ([0x0A] ++ indent ++ gap)
                    (stringifyIndentedItems gap (indent ++ gap) (item :: items)) ++
                      (([0x0A] ++ indent) ++ 0x5D :: rest))) := by
                rw [← bracketed_append gap indent more]
                simp [stringifyIndented]
              have lines : joinLines ([0x0A] ++ indent ++ gap)
                  (stringifyIndentedItems gap (indent ++ gap) (item :: items)) ++
                    (([0x0A] ++ indent) ++ 0x5D :: rest) =
                  unit :: (after ++ linesAfter ([0x0A] ++ indent ++ gap) ([0x0A] ++ indent)
                    (stringifyIndentedItems gap (indent ++ gap) items) 0x5D rest) := by
                rw [stringifyIndentedItems, joinLines_cons, head]
                rfl
              rw [parseItems_blank lineBreaks, lines] at read
              rw [text, lines, parseValue_array fuel lineBreaks space bracket, read]
              rfl
      | object members =>
          by_cases none : stringifyIndentedMembers gap (indent ++ gap) members = []
          · have text : stringifyIndented gap indent (.object members) ++ rest =
                0x7B :: 0x7D :: rest := by
              simp [stringifyIndented, none, bracketed]
            rw [text, reread, rereadMembers_of_no_line none]
            rfl
          · have short := length_bracketed gap indent none
            simp only [stringifyIndented, List.length_append, List.length_singleton] at enough
            have read := parseMembers_indented gaps members further lineBreaks endings [] fuel rest
              (by omega) none
            obtain ⟨after, head⟩ := stringifyIndentedMembers_head none
              ([0x0A] ++ indent ++ gap) (([0x0A] ++ indent) ++ 0x7D :: rest)
            have text : stringifyIndented gap indent (.object members) ++ rest =
                0x7B :: (([0x0A] ++ indent ++ gap) ++ (joinLines ([0x0A] ++ indent ++ gap)
                  (stringifyIndentedMembers gap (indent ++ gap) members) ++
                    (([0x0A] ++ indent) ++ 0x7D :: rest))) := by
              rw [← bracketed_append gap indent none]
              simp [stringifyIndented]
            rw [parseMembers_blank lineBreaks] at read
            rw [text]
            rw [head] at read ⊢
            rw [parseValue_object fuel after lineBreaks, read, reread]

theorem parseItems_indented {gap : JsString} (gaps : Spaces gap) (items : List JsValue)
    (nonempty : items ≠ []) {indent lineBreak ending : JsString} (indents : Spaces indent)
    (lineBreaks : Spaces lineBreak) (endings : Spaces ending) (before : List JsValue) (fuel : Nat)
    (rest : JsString)
    (enough : (joinLines lineBreak (stringifyIndentedItems gap indent items)).length + 1 < fuel) :
    parseItems fuel before (lineBreak ++
        (joinLines lineBreak (stringifyIndentedItems gap indent items) ++
          (ending ++ 0x5D :: rest))) =
      some (.array (before ++ rereadItems items), rest) := by
  cases fuel with
  | zero => omega
  | succ fuel =>
      cases items with
      | nil => exact absurd rfl nonempty
      | cons item items =>
          rw [stringifyIndentedItems, length_joinLines_cons] at enough
          have ends := numberEnds_linesAfter lineBreak endings
            (stringifyIndentedItems gap indent items) rest (.inl rfl)
          have read := parseValue_indented gaps item indents fuel (by omega) ends
          rw [stringifyIndentedItems, joinLines_cons, parseItems_blank lineBreaks, parseItems, read]
          cases items with
          | nil =>
              simp only [stringifyIndentedItems, skipSpace_linesAfter_nil endings lineBreak rest
                (.inl rfl)]
              simp [rereadItems]
          | cons next items =>
              have more : stringifyIndentedItems gap indent (next :: items) ≠ [] := by
                simp [stringifyIndentedItems]
              have others := parseItems_indented gaps (next :: items) (List.cons_ne_nil _ _) indents
                lineBreaks endings (before ++ [reread item]) fuel rest
                (by simp only [more, if_false] at enough; omega)
              simp only [skipSpace_linesAfter_cons lineBreak ending more]
              rw [others]
              simp [rereadItems]

theorem parseMembers_indented {gap : JsString} (gaps : Spaces gap)
    (members : List (JsString × JsValue)) {indent lineBreak ending : JsString}
    (indents : Spaces indent) (lineBreaks : Spaces lineBreak) (endings : Spaces ending)
    (before : List (JsString × JsValue)) (fuel : Nat) (rest : JsString)
    (enough : (joinLines lineBreak (stringifyIndentedMembers gap indent members)).length + 1 < fuel)
    (nonempty : stringifyIndentedMembers gap indent members ≠ []) :
    parseMembers fuel before (lineBreak ++
        (joinLines lineBreak (stringifyIndentedMembers gap indent members) ++
          (ending ++ 0x7D :: rest))) =
      some (.object (rereadMembers before members), rest) := by
  cases fuel with
  | zero => omega
  | succ fuel =>
      cases members with
      | nil => exact absurd rfl nonempty
      | cons member members =>
          obtain ⟨key, value⟩ := member
          by_cases missing : value.isUndefined = true
          · have skipped : stringifyIndentedMembers gap indent ((key, value) :: members) =
                stringifyIndentedMembers gap indent members := by
              simp [stringifyIndentedMembers, missing]
            rw [skipped] at enough nonempty ⊢
            have others := parseMembers_indented gaps members indents lineBreaks endings before
              (fuel + 1) rest enough nonempty
            rw [others, rereadMembers, if_pos missing]
          · rw [stringifyIndentedMembers_written gap indent key members missing] at enough ⊢
            rw [length_joinLines_cons, List.length_append] at enough
            have ends := numberEnds_linesAfter lineBreak endings
              (stringifyIndentedMembers gap indent members) rest (.inr rfl)
            have read := parseValue_indented gaps value indents fuel (by omega) ends
            have colon : parseValue fuel ([0x20] ++ (stringifyIndented gap indent value ++
                linesAfter lineBreak ending (stringifyIndentedMembers gap indent members) 0x7D
                  rest)) = some (reread value, linesAfter lineBreak ending
                    (stringifyIndentedMembers gap indent members) 0x7D rest) := by
              rw [parseValue_blank (by simp [Spaces, isJsonSpace]), read]
            have text : quote key ++ [0x3A, 0x20] ++ stringifyIndented gap indent value ++
                linesAfter lineBreak ending (stringifyIndentedMembers gap indent members) 0x7D rest =
                  0x22 :: (quoteUnits key ++ 0x22 :: 0x3A :: ([0x20] ++
                    (stringifyIndented gap indent value ++ linesAfter lineBreak ending
                      (stringifyIndentedMembers gap indent members) 0x7D rest))) := by
              simp [quote]
            rw [joinLines_cons, parseMembers_blank lineBreaks, text, parseMembers,
              skipSpace_cons (by decide)]
            simp only [parseString_quoteUnits]
            rw [skipSpace_cons (by decide)]
            simp only [colon]
            by_cases last : stringifyIndentedMembers gap indent members = []
            · rw [last, skipSpace_linesAfter_nil endings lineBreak rest (.inr rfl)]
              simp [rereadMembers, missing, rereadMembers_of_no_line last]
            · have others := parseMembers_indented gaps members indents lineBreaks endings
                (setEntry before key (reread value)) fuel rest
                (by simp only [last, if_false] at enough; omega) last
              rw [skipSpace_linesAfter_cons lineBreak ending last]
              simp only [others, rereadMembers, missing]
              rfl

end

/-- The round trip of indented JSON text, with spaces around it. -/
theorem parse_indented {gap before after : JsString} (gaps : Spaces gap) (spaces : Spaces before)
    (spaces_after : Spaces after) (value : JsValue) :
    parse (before ++ stringifyIndented gap [] value ++ after) = some (reread value) := by
  have ends : NumberEnds after := by
    rw [← List.append_nil after]
    exact numberEnds_blank spaces_after (by simp [NumberEnds])
  have indents : Spaces [] := by simp [Spaces]
  have read := parseValue_indented gaps value indents
    (2 * (before ++ stringifyIndented gap [] value ++ after).length + 2)
    (by simp only [List.length_append]; omega) ends
  have rest : skipSpace after = [] := by
    rw [← List.append_nil after, skipSpace_spaces spaces_after]
    rfl
  rw [parse, List.append_assoc, parseValue_blank spaces, ← List.append_assoc, read]
  simp [rest]

end Tapes.Js
