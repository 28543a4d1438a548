import Tapes.Js.WellFormed
import Tapes.Pairing.Label

namespace Tapes.Pairing

open Tapes.Js
open Tapes.Provenance (trim)

/-! Where the sanitizer keeps a lone surrogate: the cleanup at the end of a name does not reach one
that stands before a printable character. -/

/-- What stands before a printable character within reach of the cut is well formed. -/
def NoLoneWithinReach (text : JsString) : Prop :=
  ∀ before point after, text = before ++ pointUnits point ++ after → Printable point →
    (lineBefore before).length + (pointUnits point).length ≤ maxLabelLength →
    wellFormed before = true

variable {text before : JsString} {point : Nat} {unit : UInt16}

/-! ## The stages keep lone surrogates -/

theorem not_surrogate_of_white (white : isWhiteSpace unit = true) :
    isHighSurrogate unit = false ∧ isLowSurrogate unit = false := by
  have other : isSurrogatePoint unit.toNat = false := by
    rw [← Bool.not_eq_true]
    intro surrogate
    rw [isWhiteSpace_surrogate surrogate] at white
    cases white
  rw [← Bool.not_eq_true, isSurrogatePoint, Bool.and_eq_true, decide_eq_true_eq,
    decide_eq_true_eq] at other
  rw [← Bool.not_eq_true, ← Bool.not_eq_true, isHighSurrogate_iff, isLowSurrogate_iff]
  omega

theorem wellFormed_white (white : isWhiteSpace unit = true) (rest : JsString) :
    wellFormed (unit :: rest) = wellFormed rest := by
  obtain ⟨high, low⟩ := not_surrogate_of_white white
  exact wellFormed_cons high low rest

theorem wellFormed_dropWhile (text : JsString) :
    wellFormed (text.dropWhile isWhiteSpace) = wellFormed text := by
  induction text with
  | nil => rfl
  | cons unit rest induction =>
      cases white : isWhiteSpace unit with
      | true => rw [List.dropWhile_cons_of_pos white, induction, wellFormed_white white]
      | false => rw [List.dropWhile_cons_of_neg (by simp [white])]

theorem isSurrogatePoint_shown (point : Nat) :
    isSurrogatePoint (shown point) = isSurrogatePoint point := by
  unfold shown
  split
  · rename_i hidden
    have other : isSurrogatePoint point = false := by
      rw [← Bool.not_eq_true, isSurrogatePoint, Bool.and_eq_true, decide_eq_true_eq,
        decide_eq_true_eq]
      intro surrogate
      rw [isHidden_surrogate surrogate] at hidden
      cases hidden
    rw [other]
    decide
  · rfl

theorem wellFormed_replaceHidden (text : JsString) :
    wellFormed (replaceHidden text) = wellFormed text := by
  rw [Bool.eq_iff_iff, wellFormed_iff_scalar, wellFormed_iff_scalar, codePoints_replaceHidden]
  simp only [List.mem_map, forall_exists_index, and_imp, forall_apply_eq_imp_iff₂,
    isSurrogatePoint_shown]

/-- A high surrogate without its low one is not well formed, whatever follows. -/
theorem wellFormed_high_alone (high : isHighSurrogate unit = true)
    (alone : ∀ next ∈ text.head?, isLowSurrogate next = false) :
    wellFormed (unit :: text) = false := by
  cases text with
  | nil => simp [wellFormed, high]
  | cons next rest => simp [wellFormed, high, alone next rfl]

theorem wellFormed_low_first (low : isLowSurrogate unit = true) (rest : JsString) :
    wellFormed (unit :: rest) = false := by
  have notHigh : isHighSurrogate unit = false := by
    rw [← Bool.not_eq_true]
    intro high
    rw [not_low_of_high high] at low
    cases low
  cases rest <;> simp [wellFormed, notHigh, low]

theorem solid_of_surrogate (surrogate : isHighSurrogate unit = true ∨ isLowSurrogate unit = true) :
    isWhiteSpace unit = false := by
  rw [← Bool.not_eq_true]
  intro white
  obtain ⟨high, low⟩ := not_surrogate_of_white white
  rw [high, low] at surrogate
  simp at surrogate

theorem wellFormed_collapseFrom (inRun : Bool) (text : JsString) :
    wellFormed (collapseFrom inRun text) = wellFormed text := by
  induction text using codePoints.induct generalizing inRun with
  | case1 => rfl
  | case2 unit =>
      cases white : isWhiteSpace unit with
      | true =>
          rw [collapseFrom_white white, wellFormed_white white]
          cases inRun <;> rfl
      | false => rw [collapseFrom_solid white]; rfl
  | case3 unit next rest pair induction =>
      obtain ⟨high, low⟩ := Bool.and_eq_true _ _ ▸ pair
      rw [collapseFrom_solid (solid_of_surrogate (.inl high)),
        collapseFrom_solid (solid_of_surrogate (.inr low)), wellFormed, if_pos high, induction,
        wellFormed, if_pos high]
  | case4 unit next rest pair induction =>
      cases white : isWhiteSpace unit with
      | true =>
          have space : isWhiteSpace 0x20 = true := by decide
          rw [collapseFrom_white white, wellFormed_white white]
          cases inRun with
          | true => exact induction true
          | false => exact (wellFormed_white space _).trans (induction true)
      | false =>
          rw [collapseFrom_solid white]
          cases high : isHighSurrogate unit with
          | true =>
              have notLow : isLowSurrogate next = false := by
                rw [← Bool.not_eq_true]
                exact fun low => pair (by rw [high, low]; rfl)
              rw [wellFormed_high_alone high, wellFormed_high_alone high]
              · intro other first
                cases first
                exact notLow
              · intro other first
                rcases head_collapseFrom _ other first with rfl | ⟨own, -⟩
                · decide
                · cases own
                  exact notLow
          | false =>
              cases low : isLowSurrogate unit with
              | true => rw [wellFormed_low_first low, wellFormed_low_first low]
              | false => rw [wellFormed_cons high low, wellFormed_cons high low, induction]

theorem wellFormed_lineBefore (text : JsString) :
    wellFormed (lineBefore text) = wellFormed text := by
  rw [lineBefore, wellFormed_dropWhile, collapse, wellFormed_collapseFrom, wellFormed_replaceHidden]

/-! ## From the line back to the text -/

/-- A solid unit of the collapsed text is one of the text. -/
theorem collapseFrom_split {inRun : Bool} {left right : JsString} (solid : isWhiteSpace unit = false)
    (whole : collapseFrom inRun text = left ++ unit :: right) :
    ∃ front back, text = front ++ unit :: back ∧ collapseFrom inRun front = left ∧
      collapseFrom false back = right := by
  induction text generalizing inRun left with
  | nil => simp [collapseFrom] at whole
  | cons first rest induction =>
      cases white : isWhiteSpace first with
      | true =>
          rw [collapseFrom_white white] at whole
          have later : ∃ others, left = (if inRun then [] else [0x20]) ++ others ∧
              collapseFrom true rest = others ++ unit :: right := by
            cases inRun with
            | true => exact ⟨left, rfl, whole⟩
            | false =>
                cases left with
                | nil =>
                    have same : 0x20 = unit := (List.cons.inj whole).1
                    rw [← same] at solid
                    exact absurd solid (by decide)
                | cons space others =>
                    obtain ⟨same, after⟩ := List.cons.inj whole
                    exact ⟨others, by rw [← same]; rfl, after⟩
          obtain ⟨others, same, after⟩ := later
          obtain ⟨front, back, parts, before, behind⟩ := induction after
          exact ⟨first :: front, back, by rw [parts]; rfl,
            by rw [collapseFrom_white white, before, same], behind⟩
      | false =>
          rw [collapseFrom_solid white] at whole
          cases left with
          | nil =>
              obtain ⟨same, after⟩ := List.cons.inj whole
              exact ⟨[], rest, by rw [same]; rfl, rfl, after⟩
          | cons other others =>
              obtain ⟨same, after⟩ := List.cons.inj whole
              obtain ⟨front, back, parts, before, behind⟩ := induction after
              exact ⟨first :: front, back, by rw [parts]; rfl,
                by rw [collapseFrom_solid white, before, same], behind⟩

theorem collapse_split {middle left right : JsString} (nonempty : middle ≠ [])
    (solid : ∀ unit ∈ middle, isWhiteSpace unit = false)
    (whole : collapse text = left ++ middle ++ right) :
    ∃ front back, text = front ++ middle ++ back ∧ collapse front = left := by
  have follow : ∀ middle text : JsString, (∀ unit ∈ middle, isWhiteSpace unit = false) →
      collapseFrom false text = middle ++ right → ∃ back, text = middle ++ back := by
    intro middle
    induction middle with
    | nil => exact fun text _ _ => ⟨text, rfl⟩
    | cons unit units induction =>
        intro text solid whole
        obtain ⟨first, others⟩ := List.forall_mem_cons.mp solid
        have whole' : collapseFrom false text = [] ++ unit :: (units ++ right) := whole
        obtain ⟨front, back, parts, empty, behind⟩ := collapseFrom_split first whole'
        have none : front = [] := by
          cases front with
          | nil => rfl
          | cons other rest =>
              cases white : isWhiteSpace other with
              | true =>
                  rw [collapseFrom_white white] at empty
                  cases empty
              | false =>
                  rw [collapseFrom_solid white] at empty
                  cases empty
        obtain ⟨rest, same⟩ := induction back others behind
        exact ⟨rest, by rw [parts, none, same]; rfl⟩
  cases middle with
  | nil => exact absurd rfl nonempty
  | cons unit units =>
      obtain ⟨first, others⟩ := List.forall_mem_cons.mp solid
      rw [List.append_assoc] at whole
      obtain ⟨front, back, parts, before, behind⟩ := collapseFrom_split first whole
      obtain ⟨rest, same⟩ := follow units back others behind
      exact ⟨front, rest, by rw [parts, same, List.append_assoc]; rfl, before⟩

/-- A printable character of the line is one of the text, with the same line before it. -/
theorem oneLine_split (printable : Printable point) {left right : JsString}
    (whole : oneLine text = left ++ pointUnits point ++ right) :
    ∃ before after, text = before ++ pointUnits point ++ after ∧ lineBefore before = left := by
  have solid := not_white_pointUnits printable.scalar.1 printable.solid
  have nonempty := pointUnits_ne_nil point
  -- the white space that `trim` took from both ends
  obtain ⟨tail, back⟩ := List.rdropWhile_prefix isWhiteSpace
    ((collapse (replaceHidden text)).dropWhile isWhiteSpace)
  have front := List.takeWhile_append_dropWhile (p := isWhiteSpace) (l := collapse (replaceHidden text))
  have collapsed : collapse (replaceHidden text) =
      ((collapse (replaceHidden text)).takeWhile isWhiteSpace ++ left) ++ pointUnits point ++
        (right ++ tail) := by
    rw [oneLine, trim] at whole
    rw [whole] at back
    rw [← back] at front
    simp only [List.append_assoc] at front ⊢
    exact front.symm
  obtain ⟨first, last, parts, before⟩ := collapse_split nonempty solid collapsed
  have points : (codePoints text).map shown = codePoints first ++ point :: codePoints last := by
    rw [← codePoints_replaceHidden, parts, codePoints_around printable.scalar]
  obtain ⟨earlier, others, split, same, behind⟩ := List.map_eq_append_iff.mp points
  obtain ⟨own, later, rest, isShown, -⟩ := List.map_eq_cons_iff.mp behind
  have kept : own = point := by
    unfold shown at isShown
    split at isShown
    · have solid' := printable.solid
      rw [← isShown] at solid'
      exact absurd solid' (by decide)
    · exact isShown
  have apart : Apart earlier := (apart_codePoints text).of_front ⟨others, split.symm⟩
  refine ⟨ofCodePoints earlier, ofCodePoints later, ?_, ?_⟩
  · rw [← ofCodePoints_codePoints text, split, rest, kept, ofCodePoints_append, ofCodePoints_cons,
      List.append_assoc]
  · have again : replaceHidden (ofCodePoints earlier) = first := by
      rw [replaceHidden, codePoints_ofCodePoints apart, same, ofCodePoints_codePoints]
    have start : ∀ unit ∈ (left ++ pointUnits point).head?, isWhiteSpace unit = false := by
      intro unit member
      apply head_trim (collapse (replaceHidden text)) unit
      rw [oneLine] at whole
      rw [whole]
      exact head_of_front (List.prefix_append _ _) unit member
    rw [lineBefore, again, before, List.dropWhile_append_of_pos fun unit member =>
      List.mem_takeWhile_imp member]
    cases left with
    | nil => rfl
    | cons unit rest => exact List.dropWhile_cons_of_neg (by simp [start unit rfl])

/-! ## What the sanitizer keeps -/

theorem wellFormed_pointUnits (scalar : IsScalarValue point) : wellFormed (pointUnits point) = true := by
  have points := codePoints_around scalar [] []
  rw [List.nil_append, List.append_nil] at points
  rw [wellFormed_iff_scalar, points]
  intro other member
  have same : other = point := by simpa [codePoints] using member
  rw [same, ← Bool.not_eq_true, isSurrogatePoint, Bool.and_eq_true, decide_eq_true_eq,
    decide_eq_true_eq]
  exact scalar.2

/-- A name ends with a printable character. -/
theorem last_of_sanitizeLabel {name : JsString} (kept : sanitizeLabel text = some name) :
    ∃ left point, name = left ++ pointUnits point ∧ Printable point ∧ name <+: oneLine text := by
  simp only [sanitizeLabel] at kept
  split at kept
  · rename_i positive
    cases kept
    let cut := (oneLine text).take maxLabelLength
    have inside : stripEnd cut <+: oneLine text := (stripEnd_front cut).trans (List.take_prefix _ _)
    have nonempty : codePoints (stripEnd cut) ≠ [] := by
      intro none
      have empty := ofCodePoints_codePoints (stripEnd cut)
      rw [none] at empty
      exact List.ne_nil_of_length_pos positive empty.symm
    obtain ⟨others, last, points⟩ := (List.eq_nil_or_concat' (codePoints (stripEnd cut))).resolve_left nonempty
    obtain ⟨solid, notSurrogate⟩ := last_stripEnd cut last (by simp [points])
    have plain := (plain_collapse (plain_replaceHidden text)).inside
      (inside.isInfix.trans (trim_inside _))
    have member : last ∈ codePoints (stripEnd cut) := by simp [points]
    rw [← Bool.not_eq_true, isSurrogatePoint, Bool.and_eq_true, decide_eq_true_eq,
      decide_eq_true_eq] at notSurrogate
    refine ⟨ofCodePoints others, last, ?_, ⟨⟨(apart_codePoints _).bounded last member,
      notSurrogate⟩, plain_iff.mp plain last member, solid⟩, inside⟩
    rw [← ofCodePoints_codePoints (stripEnd cut), points, ofCodePoints_append, ofCodePoints_cons,
      ofCodePoints_nil, List.append_nil]
  · cases kept

theorem wellFormed_sanitizeLabel_iff (text : JsString) :
    (∀ name ∈ sanitizeLabel text, wellFormed name = true) ↔ NoLoneWithinReach text := by
  constructor
  · intro valid before point after whole printable reach
    obtain ⟨rest, kept⟩ := sanitizeLabel_around printable before after reach
    rw [← whole] at kept
    have points := (wellFormed_iff_scalar _).mp (valid _ kept)
    rw [codePoints_around printable.scalar] at points
    rw [← wellFormed_lineBefore, wellFormed_iff_scalar]
    exact fun other member => points other (List.mem_append_left _ member)
  · intro none name kept
    obtain ⟨left, point, whole, printable, rest, line⟩ := last_of_sanitizeLabel kept
    rw [whole] at line
    obtain ⟨before, after, parts, same⟩ := oneLine_split printable line.symm
    have short := (safe_of_sanitizeLabel kept).1.short
    rw [whole, List.length_append, ← same] at short
    have valid := none before point after parts printable short
    rw [← wellFormed_lineBefore, same] at valid
    rw [whole]
    exact wellFormed_append valid (wellFormed_pointUnits printable.scalar)

end Tapes.Pairing
