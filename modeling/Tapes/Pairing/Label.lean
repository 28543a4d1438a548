import Tapes.Js.CodePoints
import Tapes.Provenance.PersonKeyBackup

namespace Tapes.Pairing

open Tapes.Js
open Tapes.Provenance (trim)

/-! The rules for the names people type. -/

def maxLabelLength : Nat := 64

/-- The first and the last code point of each range of `\p{Cc}`, `\p{Cf}`, `\p{Zl}` and `\p{Zp}`. -/
def hiddenRanges : List (Nat × Nat) :=
  [(0x0, 0x1F), (0x7F, 0x9F), (0xAD, 0xAD), (0x600, 0x605), (0x61C, 0x61C), (0x6DD, 0x6DD),
    (0x70F, 0x70F), (0x890, 0x891), (0x8E2, 0x8E2), (0x180E, 0x180E), (0x200B, 0x200F),
    (0x2028, 0x202E), (0x2060, 0x2064), (0x2066, 0x206F), (0xFEFF, 0xFEFF), (0xFFF9, 0xFFFB),
    (0x110BD, 0x110BD), (0x110CD, 0x110CD), (0x13430, 0x1343F), (0x1BCA0, 0x1BCA3),
    (0x1D173, 0x1D17A), (0xE0001, 0xE0001), (0xE0020, 0xE007F)]

def isHidden (point : Nat) : Bool :=
  hiddenRanges.any fun (first, last) => decide (first ≤ point) && decide (point ≤ last)

def shown (point : Nat) : Nat := if isHidden point then 0x20 else point

/-- `.replace(/[\p{Cc}\p{Cf}\p{Zl}\p{Zp}]/gu, ' ')` -/
def replaceHidden (text : JsString) : JsString := ofCodePoints ((codePoints text).map shown)

def collapseFrom : Bool → JsString → JsString
  | _, [] => []
  | inRun, unit :: rest =>
      if isWhiteSpace unit then
        if inRun then collapseFrom true rest else 0x20 :: collapseFrom true rest
      else unit :: collapseFrom false rest

/-- `.replace(/\s+/g, ' ')` -/
def collapse (text : JsString) : JsString := collapseFrom false text

def isWhiteOrSurrogate (point : Nat) : Bool := isWhiteSpacePoint point || isSurrogatePoint point

/-- `.replace(/[\s\p{Cs}]+$/gu, '')` -/
def stripEnd (text : JsString) : JsString :=
  ofCodePoints ((codePoints text).rdropWhile isWhiteOrSurrogate)

/-- A name as one line of plain text. -/
def oneLine (text : JsString) : JsString := trim (collapse (replaceHidden text))

def sanitizeLabel (value : JsString) : Option JsString :=
  let cleaned := stripEnd ((oneLine value).take maxLabelLength)
  if 0 < cleaned.length then some cleaned else none

/-! ## What the rules ask for -/

structure SafeLabel (name : JsString) : Prop where
  short : name.length ≤ maxLabelLength
  plain : ∀ point ∈ codePoints name, isHidden point = false
  start : ∀ unit ∈ name.head?, isWhiteSpace unit = false
  finish : ∀ unit ∈ name.getLast?, isWhiteSpace unit = false
  single : name.IsChain fun unit next => ¬ (isWhiteSpace unit = true ∧ isWhiteSpace next = true)
  spaces : ∀ unit ∈ name, isWhiteSpace unit = true → unit = 0x20
  whole : ∀ point ∈ (codePoints name).getLast?, isSurrogatePoint point = false

/-- A character of its own: no surrogate, nothing hidden and no white space. -/
structure Printable (point : Nat) : Prop where
  scalar : IsScalarValue point
  plain : isHidden point = false
  solid : isWhiteSpacePoint point = false

/-- What the line has before a printable character, if `text` stands before it. -/
def lineBefore (text : JsString) : JsString :=
  (collapse (replaceHidden text)).dropWhile isWhiteSpace

/-- Each printable character of the text ends beyond the cut. -/
def NothingWithinReach (text : JsString) : Prop :=
  ∀ before point after, text = before ++ pointUnits point ++ after → Printable point →
    maxLabelLength < (lineBefore before).length + (pointUnits point).length

/-! ## Hidden characters -/

variable {text name left right : JsString} {point : Nat}

theorem isHidden_surrogate (surrogate : 0xD800 ≤ point ∧ point ≤ 0xDFFF) :
    isHidden point = false := by
  have apart : ∀ range ∈ hiddenRanges, range.2 < 0xD800 ∨ 0xDFFF < range.1 := by decide
  rw [isHidden, List.any_eq_false]
  intro range member
  have others := apart range member
  rw [Bool.and_eq_true, decide_eq_true_eq, decide_eq_true_eq]
  omega

theorem shown_cases (point : Nat) : shown point = point ∨ IsScalarValue (shown point) := by
  unfold shown
  split
  · exact .inr ⟨by decide, by decide⟩
  · exact .inl rfl

theorem isHidden_shown (point : Nat) : isHidden (shown point) = false := by
  unfold shown
  split
  · decide
  · rename_i plain
    exact Bool.not_eq_true _ ▸ plain

theorem codePoints_replaceHidden (text : JsString) :
    codePoints (replaceHidden text) = (codePoints text).map shown :=
  codePoints_ofCodePoints ((apart_codePoints text).map shown_cases)

theorem replaceHidden_eq_self (plain : ∀ point ∈ codePoints text, isHidden point = false) :
    replaceHidden text = text := by
  have same : (codePoints text).map shown = codePoints text := by
    refine (List.map_congr_left fun point member => ?_).trans (List.map_id _)
    rw [shown, plain point member]
    rfl
  rw [replaceHidden, same, ofCodePoints_codePoints]

/-- Nothing hidden in the text, by its units: no unit, and no pair. -/
structure Plain (text : JsString) : Prop where
  units : ∀ unit ∈ text, isHidden unit.toNat = false
  pairs : text.IsChain fun unit next => isHighSurrogate unit = true → isLowSurrogate next = true →
    isHidden (pairPoint unit next) = false

theorem isHidden_high {unit : UInt16} (high : isHighSurrogate unit = true) :
    isHidden unit.toNat = false := by
  have bounds := isHighSurrogate_iff.mp high
  exact isHidden_surrogate (by omega)

theorem isHidden_low {unit : UInt16} (low : isLowSurrogate unit = true) :
    isHidden unit.toNat = false := by
  have bounds := isLowSurrogate_iff.mp low
  exact isHidden_surrogate (by omega)

theorem not_low_of_high {unit : UInt16} (high : isHighSurrogate unit = true) :
    isLowSurrogate unit = false := by
  have bounds := isHighSurrogate_iff.mp high
  rw [← Bool.not_eq_true, isLowSurrogate_iff]
  omega

theorem plain_iff : Plain text ↔ ∀ point ∈ codePoints text, isHidden point = false := by
  induction text using codePoints.induct with
  | case1 => exact ⟨fun _ => by simp [codePoints], fun _ => ⟨by simp, List.isChain_nil⟩⟩
  | case2 unit =>
      constructor
      · intro plain point member
        rw [codePoints, List.mem_singleton] at member
        exact member ▸ plain.units unit (by simp)
      · intro plain
        refine ⟨?_, List.isChain_singleton _⟩
        intro other member
        rw [List.mem_singleton.mp member]
        exact plain unit.toNat (by simp [codePoints])
  | case3 unit next rest pair induction =>
      obtain ⟨high, low⟩ := Bool.and_eq_true _ _ ▸ pair
      rw [codePoints_cons_pair high low, List.forall_mem_cons, ← induction]
      constructor
      · intro plain
        obtain ⟨first, others⟩ := List.isChain_cons_cons.mp plain.pairs
        have later := (List.isChain_cons.mp others).2
        exact ⟨first high low, fun unit member => plain.units unit (by simp [member]), later⟩
      · intro both
        obtain ⟨first, plain⟩ := both
        refine ⟨?_, List.isChain_cons_cons.mpr ⟨fun _ _ => first, List.isChain_cons.mpr
          ⟨?_, plain.pairs⟩⟩⟩
        · exact List.forall_mem_cons.mpr ⟨isHidden_high high,
            List.forall_mem_cons.mpr ⟨isHidden_low low, plain.units⟩⟩
        · intro other _ isHigh
          rw [not_low_of_high isHigh] at low
          cases low
  | case4 unit next rest pair induction =>
      rw [codePoints, if_neg pair, List.forall_mem_cons, ← induction]
      constructor
      · intro plain
        obtain ⟨-, others⟩ := List.isChain_cons_cons.mp plain.pairs
        exact ⟨plain.units unit (by simp), fun unit member => plain.units unit (by simp [member]),
          others⟩
      · intro both
        obtain ⟨first, plain⟩ := both
        refine ⟨List.forall_mem_cons.mpr ⟨first, plain.units⟩,
          List.isChain_cons_cons.mpr ⟨?_, plain.pairs⟩⟩
        intro high low
        exact absurd (Bool.and_eq_true _ _ ▸ ⟨high, low⟩) pair

theorem Plain.inside (plain : Plain text) (inside : left <:+: text) : Plain left :=
  ⟨fun unit member => plain.units unit (inside.mem member), List.IsChain.infix plain.pairs inside⟩

theorem plain_replaceHidden (text : JsString) : Plain (replaceHidden text) := by
  rw [plain_iff, codePoints_replaceHidden]
  intro point member
  obtain ⟨old, _, rfl⟩ := List.mem_map.mp member
  exact isHidden_shown old

/-! ## Runs of white space -/

variable {inRun : Bool} {unit : UInt16}

theorem collapseFrom_white (white : isWhiteSpace unit = true) (inRun : Bool) (rest : JsString) :
    collapseFrom inRun (unit :: rest) =
      (if inRun then [] else [0x20]) ++ collapseFrom true rest := by
  rw [collapseFrom, if_pos white]
  cases inRun <;> rfl

theorem collapseFrom_solid (solid : isWhiteSpace unit = false) (inRun : Bool) (rest : JsString) :
    collapseFrom inRun (unit :: rest) = unit :: collapseFrom false rest := by
  rw [collapseFrom, if_neg (by simp [solid])]

/-- A run's white space is written once. -/
theorem head_collapseFrom_run (text : JsString) :
    ∀ unit ∈ (collapseFrom true text).head?, isWhiteSpace unit = false := by
  induction text with
  | nil => simp [collapseFrom]
  | cons first rest induction =>
      cases white : isWhiteSpace first with
      | true =>
          rw [collapseFrom_white white]
          exact induction
      | false =>
          rw [collapseFrom_solid white]
          intro unit member
          rwa [← Option.some.inj member]

/-- The next unit is the text's own, or the space for a run. -/
theorem head_collapseFrom (text : JsString) : ∀ unit ∈ (collapseFrom false text).head?,
    unit = 0x20 ∨ unit ∈ text.head? ∧ isWhiteSpace unit = false := by
  intro unit member
  cases text with
  | nil => cases member
  | cons first rest =>
      cases white : isWhiteSpace first with
      | true =>
          rw [collapseFrom_white white] at member
          exact .inl (Option.some.inj member).symm
      | false =>
          rw [collapseFrom_solid white] at member
          have same : first = unit := Option.some.inj member
          exact .inr ⟨same ▸ rfl, same ▸ white⟩

theorem mem_collapseFrom (text : JsString) : ∀ unit ∈ collapseFrom inRun text,
    unit = 0x20 ∨ unit ∈ text ∧ isWhiteSpace unit = false := by
  induction text generalizing inRun with
  | nil => simp [collapseFrom]
  | cons first rest induction =>
      intro unit member
      cases white : isWhiteSpace first with
      | true =>
          rw [collapseFrom_white white] at member
          cases List.mem_append.mp member with
          | inl space =>
              split at space
              · cases space
              · exact .inl (List.mem_singleton.mp space)
          | inr inside =>
              have later := induction unit inside
              exact later.imp_right fun own => ⟨List.mem_cons_of_mem _ own.1, own.2⟩
      | false =>
          rw [collapseFrom_solid white] at member
          cases List.mem_cons.mp member with
          | inl same => exact .inr ⟨same ▸ List.mem_cons_self, same ▸ white⟩
          | inr inside =>
              have later := induction unit inside
              exact later.imp_right fun own => ⟨List.mem_cons_of_mem _ own.1, own.2⟩

/-- A relation between neighbours that holds around the space for a run. -/
theorem isChain_collapseFrom {related : UInt16 → UInt16 → Prop}
    (before : ∀ unit, isWhiteSpace unit = false → related unit 0x20)
    (after : ∀ unit, isWhiteSpace unit = false → related 0x20 unit)
    (solid : text.IsChain fun unit next => isWhiteSpace unit = false →
      isWhiteSpace next = false → related unit next) :
    (collapseFrom inRun text).IsChain related := by
  induction text generalizing inRun with
  | nil => exact List.isChain_nil
  | cons first rest induction =>
      obtain ⟨next, later⟩ := List.isChain_cons.mp solid
      cases white : isWhiteSpace first with
      | true =>
          rw [collapseFrom_white white]
          cases inRun with
          | true => exact induction later
          | false =>
              refine List.isChain_cons.mpr ⟨?_, induction later⟩
              exact fun unit member => after unit (head_collapseFrom_run rest unit member)
      | false =>
          rw [collapseFrom_solid white]
          refine List.isChain_cons.mpr ⟨?_, induction later⟩
          intro unit member
          rcases head_collapseFrom rest unit member with same | ⟨own, solid⟩
          · exact same ▸ before first white
          · exact next unit own white solid

theorem plain_collapse (plain : Plain text) : Plain (collapse text) := by
  constructor
  · intro unit member
    rcases mem_collapseFrom text unit member with same | ⟨inside, -⟩
    · rw [same]
      decide
    · exact plain.units unit inside
  · have space : isLowSurrogate 0x20 = false ∧ isHighSurrogate 0x20 = false := by decide
    apply isChain_collapseFrom
    · intro unit _ _ low
      rw [space.1] at low
      cases low
    · intro unit _ high
      rw [space.2] at high
      cases high
    · exact plain.pairs.imp fun _ _ hidden _ _ => hidden

theorem single_collapse (text : JsString) : (collapse text).IsChain fun unit next =>
    ¬ (isWhiteSpace unit = true ∧ isWhiteSpace next = true) := by
  apply isChain_collapseFrom
  · intro unit solid both
    rw [solid] at both
    cases both.1
  · intro unit solid both
    rw [solid] at both
    cases both.2
  · apply List.Pairwise.isChain
    apply List.pairwise_of_forall
    intro unit next solid _ both
    rw [solid] at both
    cases both.1

theorem collapse_eq_self (spaces : ∀ unit ∈ text, isWhiteSpace unit = true → unit = 0x20)
    (single : text.IsChain fun unit next => ¬ (isWhiteSpace unit = true ∧ isWhiteSpace next = true)) :
    collapse text = text := by
  suffices every : ∀ inRun, (inRun = true → ∀ unit ∈ text.head?, isWhiteSpace unit = false) →
      collapseFrom inRun text = text from every false (by simp)
  induction text with
  | nil => exact fun _ _ => rfl
  | cons first rest induction =>
      intro inRun start
      obtain ⟨next, later⟩ := List.isChain_cons.mp single
      obtain ⟨space, others⟩ := List.forall_mem_cons.mp spaces
      cases white : isWhiteSpace first with
      | true =>
          have outside : inRun = false := by
            rw [← Bool.not_eq_true]
            intro inside
            rw [start inside first rfl] at white
            cases white
          have run := induction others later true fun _ unit member => by
            rw [← Bool.not_eq_true]
            exact fun other => next unit member ⟨white, other⟩
          rw [collapseFrom_white white, run, outside, space white]
          rfl
      | false =>
          rw [collapseFrom_solid white, induction others later false (by simp)]

theorem collapseFrom_append_solid (inRun : Bool) (solid : isWhiteSpace unit = false) (left right : JsString) :
    collapseFrom inRun (left ++ unit :: right) =
      collapseFrom inRun left ++ unit :: collapseFrom false right := by
  induction left generalizing inRun with
  | nil => exact collapseFrom_solid solid inRun right
  | cons first rest induction =>
      cases white : isWhiteSpace first with
      | true =>
          rw [List.cons_append, collapseFrom_white white, collapseFrom_white white, induction,
            List.append_assoc]
      | false =>
          rw [List.cons_append, collapseFrom_solid white, collapseFrom_solid white, induction,
            List.cons_append]

/-- What stands between two solid units is collapsed apart from the rest. -/
theorem collapse_around {middle : JsString} (nonempty : middle ≠ [])
    (solid : ∀ unit ∈ middle, isWhiteSpace unit = false) (left right : JsString) :
    collapse (left ++ middle ++ right) = collapse left ++ middle ++ collapse right := by
  have inside : ∀ middle : JsString, (∀ unit ∈ middle, isWhiteSpace unit = false) →
      collapseFrom false (middle ++ right) = middle ++ collapse right := by
    intro middle solid
    induction middle with
    | nil => rfl
    | cons unit rest induction =>
        obtain ⟨first, others⟩ := List.forall_mem_cons.mp solid
        rw [List.cons_append, collapseFrom_solid first, induction others, List.cons_append]
  cases middle with
  | nil => exact absurd rfl nonempty
  | cons unit rest =>
      obtain ⟨first, others⟩ := List.forall_mem_cons.mp solid
      have parted := collapseFrom_append_solid false first left (rest ++ right)
      rw [inside rest others] at parted
      rw [List.append_assoc, List.append_assoc]
      exact parted

/-! ## The ends -/

theorem trim_inside (text : JsString) : trim text <:+: text :=
  (List.rdropWhile_prefix _ _).isInfix.trans (List.dropWhile_suffix _).isInfix

theorem head_of_front (first : left <+: text) : ∀ unit ∈ left.head?, unit ∈ text.head? := by
  obtain ⟨rest, rfl⟩ := first
  intro unit member
  cases left with
  | nil => cases member
  | cons => exact member

theorem head_trim (text : JsString) : ∀ unit ∈ (trim text).head?, isWhiteSpace unit = false := by
  intro unit member
  have start := head_of_front (List.rdropWhile_prefix _ _) unit member
  have other := List.head?_dropWhile_not isWhiteSpace text
  rw [Option.mem_def] at start
  rw [start] at other
  simpa using other

theorem dropWhile_before {Value : Type} (skipped : Value → Bool) {value : Value}
    (kept : skipped value = false) (left rest : List Value) :
    (left ++ value :: rest).dropWhile skipped = left.dropWhile skipped ++ value :: rest := by
  induction left with
  | nil => exact List.dropWhile_cons_of_neg (by simp [kept])
  | cons first others induction =>
      cases skip : skipped first with
      | true =>
          rw [List.cons_append, List.dropWhile_cons_of_pos skip, List.dropWhile_cons_of_pos skip,
            induction]
      | false =>
          have not : ¬ skipped first = true := by simp [skip]
          rw [List.cons_append, List.dropWhile_cons_of_neg not, List.dropWhile_cons_of_neg not]
          rfl

theorem rdropWhile_after {Value : Type} (skipped : Value → Bool) {value : Value}
    (kept : skipped value = false) (left rest : List Value) :
    (left ++ value :: rest).rdropWhile skipped = left ++ value :: rest.rdropWhile skipped := by
  have turned : (left ++ value :: rest).reverse = rest.reverse ++ value :: left.reverse := by simp
  rw [List.rdropWhile, turned, dropWhile_before skipped kept]
  simp [List.rdropWhile]

theorem trim_around_solid {middle : JsString} (nonempty : middle ≠ [])
    (solid : ∀ unit ∈ middle, isWhiteSpace unit = false) (left right : JsString) :
    trim (left ++ middle ++ right) =
      left.dropWhile isWhiteSpace ++ middle ++ right.rdropWhile isWhiteSpace := by
  have front : (left ++ (middle ++ right)).dropWhile isWhiteSpace =
      left.dropWhile isWhiteSpace ++ (middle ++ right) := by
    cases middle with
    | nil => exact absurd rfl nonempty
    | cons unit others => exact dropWhile_before _ (solid unit List.mem_cons_self) _ _
  obtain ⟨others, last, whole⟩ := (List.eq_nil_or_concat' middle).resolve_left nonempty
  have back := rdropWhile_after isWhiteSpace (solid last (by simp [whole]))
    (left.dropWhile isWhiteSpace ++ others) right
  rw [trim, List.append_assoc, front, whole]
  simpa only [List.append_assoc, List.cons_append, List.nil_append] using back

theorem stripEnd_front (text : JsString) : stripEnd text <+: text := by
  obtain ⟨rest, whole⟩ := List.rdropWhile_prefix isWhiteOrSurrogate (codePoints text)
  refine ⟨ofCodePoints rest, ?_⟩
  rw [stripEnd, ← ofCodePoints_append, whole, ofCodePoints_codePoints]

theorem codePoints_stripEnd (text : JsString) :
    codePoints (stripEnd text) = (codePoints text).rdropWhile isWhiteOrSurrogate :=
  codePoints_ofCodePoints ((apart_codePoints text).of_front (List.rdropWhile_prefix _ _))

theorem last_stripEnd (text : JsString) : ∀ point ∈ (codePoints (stripEnd text)).getLast?,
    isWhiteSpacePoint point = false ∧ isSurrogatePoint point = false := by
  intro point member
  rw [codePoints_stripEnd] at member
  obtain ⟨nonempty, same⟩ := List.mem_getLast?_eq_getLast member
  have other := List.rdropWhile_last_not isWhiteOrSurrogate (codePoints text) nonempty
  rw [← same, isWhiteOrSurrogate, Bool.or_eq_true, not_or, Bool.not_eq_true, Bool.not_eq_true]
    at other
  exact other

/-- The last unit is white where the last code point is. -/
theorem last_unit_solid (last : ∀ point ∈ (codePoints text).getLast?, isWhiteSpacePoint point = false) :
    ∀ unit ∈ text.getLast?, isWhiteSpace unit = false := by
  intro unit member
  cases List.eq_nil_or_concat' (codePoints text) with
  | inl none =>
      rw [← ofCodePoints_codePoints text, none] at member
      cases member
  | inr others =>
      obtain ⟨first, point, points⟩ := others
      have bounded := (apart_codePoints text).bounded point (by simp [points])
      have solid := last point (by simp [points])
      rw [← ofCodePoints_codePoints text, points, ofCodePoints_append, ofCodePoints_cons,
        ofCodePoints_nil, List.append_nil,
        List.getLast?_append_of_ne_nil _ (pointUnits_ne_nil point)] at member
      exact not_white_pointUnits bounded solid unit (List.mem_of_getLast? member)

theorem last_point_solid (last : ∀ unit ∈ text.getLast?, isWhiteSpace unit = false) :
    ∀ point ∈ (codePoints text).getLast?, isWhiteSpacePoint point = false := by
  intro point member
  obtain ⟨first, points⟩ := List.getLast?_eq_some_iff.mp member
  rw [← Bool.not_eq_true, isWhiteSpacePoint, Bool.and_eq_true, decide_eq_true_eq]
  intro both
  obtain ⟨small, white⟩ := both
  have whole : text = ofCodePoints first ++ [point.toUInt16] := by
    rw [← ofCodePoints_codePoints text, points, ofCodePoints_append, ofCodePoints_cons,
      pointUnits, if_pos small]
    rfl
  have solid := last point.toUInt16 (by simp [whole])
  rw [solid] at white
  cases white

/-! ## The property -/

theorem safeLabel_of_inside (short : name.length ≤ maxLabelLength)
    (inside : name <:+: collapse (replaceHidden text))
    (start : ∀ unit ∈ name.head?, isWhiteSpace unit = false)
    (last : ∀ point ∈ (codePoints name).getLast?,
      isWhiteSpacePoint point = false ∧ isSurrogatePoint point = false) : SafeLabel name where
  short := short
  plain := plain_iff.mp ((plain_collapse (plain_replaceHidden text)).inside inside)
  start := start
  finish := last_unit_solid fun point member => (last point member).1
  single := List.IsChain.infix (single_collapse _) inside
  spaces := by
    intro unit member white
    rcases mem_collapseFrom _ unit (inside.mem member) with space | ⟨-, solid⟩
    · exact space
    · rw [solid] at white
      cases white
  whole := fun point member => (last point member).2

theorem sanitizeLabel_of_safe (safe : SafeLabel name) (nonempty : name ≠ []) :
    sanitizeLabel name = some name := by
  have solid : trim name = name := by
    have front : name.dropWhile isWhiteSpace = name := by
      cases name with
      | nil => rfl
      | cons unit rest => rw [List.dropWhile_cons, if_neg (by simp [safe.start unit rfl])]
    rw [trim, front, List.rdropWhile_eq_self_iff]
    intro other
    simp [safe.finish _ (List.getLast?_eq_getLast_of_ne_nil other)]
  have noTrailing : stripEnd name = name := by
    have kept : (codePoints name).rdropWhile isWhiteOrSurrogate = codePoints name := by
      rw [List.rdropWhile_eq_self_iff]
      intro other
      have last := List.getLast?_eq_getLast_of_ne_nil other
      simp [isWhiteOrSurrogate, last_point_solid safe.finish _ last, safe.whole _ last]
    rw [stripEnd, kept, ofCodePoints_codePoints]
  have line : oneLine name = name := by
    rw [oneLine, replaceHidden_eq_self safe.plain, collapse_eq_self safe.spaces safe.single, solid]
  simp only [sanitizeLabel, line, List.take_of_length_le safe.short, noTrailing,
    List.length_pos_iff.mpr nonempty, if_true]

/-- A printable character of the text is one of its line. -/
theorem oneLine_around (printable : Printable point) (before after : JsString) :
    ∃ rest, oneLine (before ++ pointUnits point ++ after) =
      lineBefore before ++ pointUnits point ++ rest := by
  have solid := not_white_pointUnits printable.scalar.1 printable.solid
  have nonempty := pointUnits_ne_nil point
  have kept : shown point = point := by rw [shown, printable.plain]; rfl
  refine ⟨(collapse (replaceHidden after)).rdropWhile isWhiteSpace, ?_⟩
  rw [oneLine, replaceHidden, codePoints_around printable.scalar, List.map_append, List.map_cons,
    kept, ofCodePoints_append, ofCodePoints_cons, ← List.append_assoc, collapse_around nonempty solid,
    trim_around_solid nonempty solid]
  rfl

/-- The cut of the line, up to a printable character within reach. -/
theorem cut_around (printable : Printable point) (before after : JsString)
    (reach : (lineBefore before).length + (pointUnits point).length ≤ maxLabelLength) :
    ∃ rest, (oneLine (before ++ pointUnits point ++ after)).take maxLabelLength =
      lineBefore before ++ pointUnits point ++ rest := by
  obtain ⟨rest, line⟩ := oneLine_around printable before after
  refine ⟨rest.take (maxLabelLength - (lineBefore before ++ pointUnits point).length), ?_⟩
  rw [line, List.take_append, List.take_of_length_le]
  rw [List.length_append]
  omega

/-- The kept name begins with the line up to a printable character within reach. -/
theorem sanitizeLabel_around (printable : Printable point) (before after : JsString)
    (reach : (lineBefore before).length + (pointUnits point).length ≤ maxLabelLength) :
    ∃ rest, sanitizeLabel (before ++ pointUnits point ++ after) =
      some (lineBefore before ++ pointUnits point ++ rest) := by
  obtain ⟨rest, cut⟩ := cut_around printable before after reach
  have notSurrogate : isSurrogatePoint point = false := by
    rw [← Bool.not_eq_true, isSurrogatePoint, Bool.and_eq_true, decide_eq_true_eq,
      decide_eq_true_eq]
    exact printable.scalar.2
  have kept : isWhiteOrSurrogate point = false := by
    rw [isWhiteOrSurrogate, printable.solid, notSurrogate]
    rfl
  refine ⟨ofCodePoints ((codePoints rest).rdropWhile isWhiteOrSurrogate), ?_⟩
  have stripped : stripEnd ((oneLine (before ++ pointUnits point ++ after)).take maxLabelLength) =
      lineBefore before ++ pointUnits point ++
        ofCodePoints ((codePoints rest).rdropWhile isWhiteOrSurrogate) := by
    rw [cut, stripEnd, codePoints_around printable.scalar, rdropWhile_after _ kept,
      ofCodePoints_append, ofCodePoints_cons, ofCodePoints_codePoints, List.append_assoc]
  have positive := List.length_pos_iff.mpr (pointUnits_ne_nil point)
  simp only [sanitizeLabel, stripped]
  rw [if_pos]
  simp only [List.length_append]
  omega

theorem nothingWithinReach_of_none (none : sanitizeLabel text = none) : NothingWithinReach text := by
  intro before point after whole printable
  by_contra within
  obtain ⟨rest, kept⟩ := sanitizeLabel_around printable before after (by omega)
  rw [← whole, none] at kept
  cases kept

theorem safe_of_sanitizeLabel (kept : sanitizeLabel text = some name) : SafeLabel name ∧ name ≠ [] := by
  simp only [sanitizeLabel] at kept
  split at kept
  · rename_i positive
    cases kept
    have cut := stripEnd_front ((oneLine text).take maxLabelLength)
    have line := cut.trans (List.take_prefix _ _)
    refine ⟨?_, List.ne_nil_of_length_pos positive⟩
    apply safeLabel_of_inside
    · exact cut.length_le.trans (List.length_take_le _ _)
    · exact line.isInfix.trans (trim_inside _)
    · exact fun unit member => head_trim _ unit (head_of_front line unit member)
    · exact last_stripEnd _
  · cases kept

/-- What the sanitizer keeps is safe and is kept again, and it keeps something where a printable
character is within reach. -/
theorem sanitizeLabel_is_a_projection (text : JsString) :
    match sanitizeLabel text with
    | some name => SafeLabel name ∧ name ≠ [] ∧ sanitizeLabel name = some name
    | none => NothingWithinReach text := by
  cases kept : sanitizeLabel text with
  | none => exact nothingWithinReach_of_none kept
  | some name =>
      obtain ⟨safe, nonempty⟩ := safe_of_sanitizeLabel kept
      exact ⟨safe, nonempty, sanitizeLabel_of_safe safe nonempty⟩

example : sanitizeLabel (js "  Studio\n\n iPad ") = some (js "Studio iPad") := by decide

end Tapes.Pairing
