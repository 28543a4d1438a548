import Tapes.Js.JsonText

namespace Tapes.Js

/-! A scan of JSON text for strings, escapes and nesting, which every text that parses
passes. It shows texts that do not parse: a cut one, or two run together. -/

/-- Where a scan is. `text`, `escape` and `closed` are inside a string, behind a
backslash in one and behind its closing quote; `inside` is outside strings, within
`depth` brackets. -/
inductive Scan where
  | start
  | done
  | inside (depth : Nat)
  | text (depth : Nat)
  | escape (depth : Nat)
  | closed (depth : Nat)
  | bad
deriving DecidableEq

namespace Scan

/-- A closing bracket within `depth` of them. -/
def leave : Nat → Scan
  | 0 => .bad
  | 1 => .done
  | depth + 2 => .inside (depth + 1)

def isOpening (unit : UInt16) : Bool := unit = 0x7B || unit = 0x5B

def isClosing (unit : UInt16) : Bool := unit = 0x7D || unit = 0x5D

/-- Code units that stand only within strings. -/
def isForeign (unit : UInt16) : Bool := unit = 0x5C || unit = 0x2028 || unit = 0x2029

def step : Scan → UInt16 → Scan
  | .start, unit =>
      if isJsonSpace unit then .start
      else if unit = 0x22 then .text 0
      else if isOpening unit then .inside 1
      else if isClosing unit || isForeign unit then .bad
      else .done
  | .done, unit =>
      if unit = 0x22 || isOpening unit || isClosing unit || isForeign unit then .bad else .done
  | .inside depth, unit =>
      if unit = 0x22 then .text depth
      else if isOpening unit then .inside (depth + 1)
      else if isClosing unit then leave depth
      else if isForeign unit then .bad
      else .inside depth
  | .text depth, unit =>
      if unit = 0x22 then .closed depth else if unit = 0x5C then .escape depth else .text depth
  | .escape depth, _ => .text depth
  | .closed depth, unit =>
      if isJsonSpace unit then .closed depth
      else if (unit = 0x2C || unit = 0x3A) && depth ≠ 0 then .inside depth
      else if isClosing unit then leave depth
      else .bad
  | .bad, _ => .bad

/-- A whole value has been scanned. -/
def complete : Scan → Bool
  | .done | .closed 0 => true
  | _ => false

end Scan

def scan (state : Scan) (text : JsString) : Scan := text.foldl Scan.step state

@[simp] theorem scan_nil (state : Scan) : scan state [] = state := rfl

@[simp] theorem scan_cons (state : Scan) (unit : UInt16) (text : JsString) :
    scan state (unit :: text) = scan (state.step unit) text := rfl

@[simp] theorem scan_append (state : Scan) (first second : JsString) :
    scan state (first ++ second) = scan (scan state first) second :=
  List.foldl_append

@[simp] theorem scan_bad (text : JsString) : scan .bad text = .bad := by
  induction text with
  | nil => rfl
  | cons unit text induction => exact induction

/-! ## Spaces, strings, words and numbers -/

def Spaces (text : JsString) : Prop := ∀ unit ∈ text, isJsonSpace unit = true

theorem skipSpace_split (text : JsString) :
    ∃ spaces, Spaces spaces ∧ text = spaces ++ skipSpace text := by
  induction text with
  | nil => exact ⟨[], by simp [Spaces], rfl⟩
  | cons unit text induction =>
      by_cases space : isJsonSpace unit = true
      · obtain ⟨spaces, all, split⟩ := induction
        refine ⟨unit :: spaces, List.forall_mem_cons.mpr ⟨space, all⟩, ?_⟩
        rw [skipSpace, if_pos space, List.cons_append, ← split]
      · exact ⟨[], by simp [Spaces], by simp [skipSpace, space]⟩

theorem isJsonSpace_cases {unit : UInt16} (space : isJsonSpace unit = true) :
    unit = 0x20 ∨ unit = 0x09 ∨ unit = 0x0A ∨ unit = 0x0D := by
  simpa [isJsonSpace, or_assoc] using space

/-- Spaces change nothing where they may stand. -/
theorem scan_spaces {state : Scan} {spaces : JsString} (all : Spaces spaces)
    (stays : ∀ unit, isJsonSpace unit = true → state.step unit = state) :
    scan state spaces = state := by
  induction spaces with
  | nil => rfl
  | cons unit spaces induction =>
      obtain ⟨space, others⟩ := List.forall_mem_cons.mp all
      rw [scan_cons, stays unit space, induction others]

theorem start_step_space {unit : UInt16} (space : isJsonSpace unit = true) :
    Scan.start.step unit = .start := by
  simp [Scan.step, space]

theorem done_step_space {unit : UInt16} (space : isJsonSpace unit = true) :
    Scan.done.step unit = .done := by
  rcases isJsonSpace_cases space with rfl | rfl | rfl | rfl <;> decide

theorem inside_step_space (depth : Nat) {unit : UInt16} (space : isJsonSpace unit = true) :
    (Scan.inside depth).step unit = .inside depth := by
  rcases isJsonSpace_cases space with rfl | rfl | rfl | rfl <;> rfl

theorem closed_step_space (depth : Nat) {unit : UInt16} (space : isJsonSpace unit = true) :
    (Scan.closed depth).step unit = .closed depth := by
  simp [Scan.step, space]

/-- Hex digits are no quotes and no backslashes. -/
theorem text_step_hexDigit (depth : Nat) {unit : UInt16} {value : Nat}
    (hex : hexValue unit = some value) : (Scan.text depth).step unit = .text depth := by
  have quote : unit ≠ 0x22 := by
    intro same
    rw [same] at hex
    cases hex
  have backslash : unit ≠ 0x5C := by
    intro same
    rw [same] at hex
    cases hex
  simp [Scan.step, quote, backslash]

theorem hexUnit_digits {a b c d unit : UInt16} (read : hexUnit a b c d = some unit) :
    ∃ w x y z, hexValue a = some w ∧ hexValue b = some x ∧ hexValue c = some y ∧
      hexValue d = some z := by
  simp only [hexUnit, Option.bind_eq_bind, Option.bind_eq_some_iff] at read
  obtain ⟨w, first, x, second, y, third, z, fourth, -⟩ := read
  exact ⟨w, x, y, z, first, second, third, fourth⟩

/-- A string literal read is scanned to its closing quote. -/
theorem parseString_scan (text : JsString) : ∀ {units rest : JsString},
    parseString text = some (units, rest) →
      ∃ used, text = used ++ rest ∧ ∀ depth, scan (.text depth) used = .closed depth := by
  induction text using parseString.induct with
  | case1 =>
      intro units rest read
      cases read
  | case2 after =>
      intro units rest read
      rw [parseString.eq_def] at read
      cases read
      exact ⟨[0x22], rfl, fun depth => rfl⟩
  | case3 quote =>
      intro units rest read
      cases read
  | case4 a b c d after quote induction =>
      intro units rest read
      rw [parseString.eq_def] at read
      simp only [quote, if_false, if_true, Option.bind_eq_bind, Option.bind_eq_some_iff] at read
      obtain ⟨unit, hex, ⟨others, left⟩, tail, same⟩ := read
      cases same
      obtain ⟨used, split, scanned⟩ := induction tail
      obtain ⟨w, x, y, z, first, second, third, fourth⟩ := hexUnit_digits hex
      refine ⟨0x5C :: 0x75 :: a :: b :: c :: d :: used, by simp [split], fun depth => ?_⟩
      have opened : ((Scan.text depth).step 0x5C).step 0x75 = .text depth := rfl
      simp only [scan_cons, opened, text_step_hexDigit depth first, text_step_hexDigit depth second,
        text_step_hexDigit depth third, text_step_hexDigit depth fourth, scanned]
  | case5 after short quote =>
      intro units rest read
      rw [parseString.eq_def] at read
      simp only [quote, if_false, if_true] at read
      cases read
  | case6 escape after named quote induction =>
      intro units rest read
      rw [parseString.eq_def] at read
      simp only [quote, named, if_false, if_true, Option.bind_eq_bind,
        Option.bind_eq_some_iff] at read
      obtain ⟨unit, stands, ⟨others, left⟩, tail, same⟩ := read
      cases same
      obtain ⟨used, split, scanned⟩ := induction tail
      refine ⟨0x5C :: escape :: used, by simp [split], fun depth => ?_⟩
      have opened : ((Scan.text depth).step 0x5C).step escape = .text depth := rfl
      rw [scan_cons, scan_cons, opened, scanned]
  | case7 unit after quote backslash control =>
      intro units rest read
      rw [parseString.eq_def] at read
      simp [quote, backslash, control] at read
  | case8 unit after quote backslash control induction =>
      intro units rest read
      rw [parseString.eq_def] at read
      simp only [quote, backslash, control, if_false, Option.bind_eq_bind,
        Option.bind_eq_some_iff] at read
      obtain ⟨⟨others, left⟩, tail, same⟩ := read
      cases same
      obtain ⟨used, split, scanned⟩ := induction tail
      refine ⟨unit :: used, by simp [split], fun depth => ?_⟩
      have stays : (Scan.text depth).step unit = .text depth := by
        simp [Scan.step, quote, backslash]
      rw [scan_cons, stays, scanned]

theorem dropWord_split {word text rest : JsString} (dropped : dropWord word text = some rest) :
    text = word ++ rest := by
  induction word generalizing text with
  | nil =>
      cases dropped
      rfl
  | cons unit word induction =>
      cases text with
      | nil => cases dropped
      | cons head text =>
          simp only [dropWord] at dropped
          split at dropped
          · rename_i same
            rw [same, List.cons_append, ← induction dropped]
          · cases dropped

/-- The code units of numbers, and of the words. -/
def isScalarUnit (unit : UInt16) : Bool :=
  unit ≠ 0x22 && !Scan.isOpening unit && !Scan.isClosing unit && !Scan.isForeign unit &&
    !isJsonSpace unit

def Scalar (text : JsString) : Prop := text ≠ [] ∧ ∀ unit ∈ text, isScalarUnit unit = true

theorem Scalar.of_all {text : JsString} (nonempty : text ≠ []) (all : text.all isScalarUnit = true) :
    Scalar text :=
  ⟨nonempty, List.all_eq_true.mp all⟩

theorem scan_scalar {text : JsString} (scalar : Scalar text) :
    (∀ depth, scan (.inside depth) text = .inside depth) ∧ scan .start text = .done := by
  have stays : ∀ unit, isScalarUnit unit = true →
      (∀ depth, (Scan.inside depth).step unit = .inside depth) ∧
        Scan.done.step unit = .done ∧ Scan.start.step unit = .done := by
    intro unit here
    simp only [isScalarUnit, Bool.and_eq_true, decide_eq_true_eq, Bool.not_eq_true'] at here
    obtain ⟨⟨⟨⟨quote, opening⟩, closing⟩, foreign⟩, space⟩ := here
    simp [Scan.step, quote, opening, closing, foreign, space]
  obtain ⟨nonempty, all⟩ := scalar
  have inside : ∀ depth, scan (.inside depth) text = .inside depth := by
    intro depth
    clear nonempty
    induction text with
    | nil => rfl
    | cons unit text induction =>
        obtain ⟨here, others⟩ := List.forall_mem_cons.mp all
        rw [scan_cons, (stays unit here).1, induction others]
  have done : ∀ after : JsString, (∀ unit ∈ after, isScalarUnit unit = true) →
      scan .done after = .done := by
    intro after all
    induction after with
    | nil => rfl
    | cons unit after induction =>
        obtain ⟨here, others⟩ := List.forall_mem_cons.mp all
        rw [scan_cons, (stays unit here).2.1, induction others]
  refine ⟨inside, ?_⟩
  cases text with
  | nil => exact absurd rfl nonempty
  | cons unit after =>
      obtain ⟨here, others⟩ := List.forall_mem_cons.mp all
      rw [scan_cons, (stays unit here).2.2, done after others]

theorem digitUnit_digitValue {unit : UInt16} (digit : isDigit unit = true) :
    digitUnit (digitValue unit) = unit ∧ digitValue unit < 10 := by
  simp only [isDigit, Bool.and_eq_true, decide_eq_true_eq, UInt16.le_iff_toNat_le] at digit
  obtain ⟨low, high⟩ := digit
  have low : 0x30 ≤ unit.toNat := low
  have high : unit.toNat ≤ 0x39 := high
  have value : 0x30 + (unit.toNat - 0x30) = unit.toNat := by omega
  refine ⟨?_, ?_⟩
  · rw [digitUnit, digitValue, value]
    exact UInt16.ofNat_toNat
  · rw [digitValue]
    omega

theorem takeDigits_split (text : JsString) :
    text = digitText (takeDigits text).1 ++ (takeDigits text).2 ∧ IsDigits (takeDigits text).1 := by
  induction text with
  | nil => exact ⟨rfl, by simp [takeDigits, IsDigits]⟩
  | cons unit text induction =>
      obtain ⟨split, small⟩ := induction
      by_cases digit : isDigit unit = true
      · obtain ⟨same, below⟩ := digitUnit_digitValue digit
        simp only [takeDigits, digit, if_true, digitText, List.map_cons, List.cons_append, same]
        exact ⟨congrArg (unit :: ·) split, List.forall_mem_cons.mpr ⟨below, small⟩⟩
      · simp [takeDigits, digit, digitText, IsDigits]

theorem isScalarUnit_digitUnit {digit : Nat} (small : digit < 10) :
    isScalarUnit (digitUnit digit) = true := by
  interval_cases digit <;> decide

theorem scalar_digitText {digits : List Nat} (small : IsDigits digits) :
    ∀ unit ∈ digitText digits, isScalarUnit unit = true := by
  intro unit member
  obtain ⟨digit, inside, rfl⟩ := List.mem_map.mp member
  exact isScalarUnit_digitUnit (small digit inside)

theorem parseWhole_split {text rest : JsString} {digits : List Nat}
    (read : parseWhole text = some (digits, rest)) :
    text = digitText digits ++ rest ∧ IsDigits digits ∧ digits ≠ [] := by
  obtain ⟨split, small⟩ := takeDigits_split text
  cases taken : takeDigits text with
  | mk taken' left =>
      rw [taken] at split small
      cases taken' with
      | nil => simp [parseWhole, taken] at read
      | cons first others =>
          cases first with
          | zero =>
              simp only [parseWhole, taken, Option.some.injEq, Prod.mk.injEq] at read
              obtain ⟨rfl, rfl⟩ := read
              exact ⟨split, by simp [IsDigits], List.cons_ne_nil _ _⟩
          | succ first =>
              simp only [parseWhole, taken, Option.some.injEq, Prod.mk.injEq] at read
              obtain ⟨rfl, rfl⟩ := read
              exact ⟨split, small, List.cons_ne_nil _ _⟩

theorem parseFraction_split {text rest : JsString} {digits : List Nat}
    (read : parseFraction text = some (digits, rest)) :
    ∃ used, text = used ++ rest ∧ ∀ unit ∈ used, isScalarUnit unit = true := by
  unfold parseFraction at read
  split at read
  · rename_i after
    obtain ⟨split, small⟩ := takeDigits_split after
    dsimp only at read
    split at read <;> cases read
    refine ⟨0x2E :: digitText (takeDigits after).1, congrArg (0x2E :: ·) split, ?_⟩
    exact List.forall_mem_cons.mpr ⟨by decide, scalar_digitText small⟩
  · cases read
    exact ⟨[], rfl, by simp⟩

theorem parseExponentDigits_split {negative : Bool} {text rest : JsString} {exponent : Int}
    (read : parseExponentDigits negative text = some (exponent, rest)) :
    ∃ used, text = used ++ rest ∧ ∀ unit ∈ used, isScalarUnit unit = true := by
  obtain ⟨split, small⟩ := takeDigits_split text
  unfold parseExponentDigits at read
  dsimp only at read
  split at read <;> cases read
  exact ⟨digitText (takeDigits text).1, split, scalar_digitText small⟩

theorem parseExponent_split {text rest : JsString} {exponent : Int}
    (read : parseExponent text = some (exponent, rest)) :
    ∃ used, text = used ++ rest ∧ ∀ unit ∈ used, isScalarUnit unit = true := by
  cases text with
  | nil =>
      cases read
      exact ⟨[], rfl, by simp⟩
  | cons unit after =>
      simp only [parseExponent] at read
      split at read
      · rename_i letter
        have scalar : isScalarUnit unit = true := by
          simp only [Bool.or_eq_true, decide_eq_true_eq] at letter
          rcases letter with rfl | rfl <;> decide
        split at read
        · obtain ⟨used, split, all⟩ := parseExponentDigits_split read
          refine ⟨unit :: 0x2B :: used, by simp [split], ?_⟩
          exact List.forall_mem_cons.mpr ⟨scalar, List.forall_mem_cons.mpr ⟨by decide, all⟩⟩
        · obtain ⟨used, split, all⟩ := parseExponentDigits_split read
          refine ⟨unit :: 0x2D :: used, by simp [split], ?_⟩
          exact List.forall_mem_cons.mpr ⟨scalar, List.forall_mem_cons.mpr ⟨by decide, all⟩⟩
        · obtain ⟨used, split, all⟩ := parseExponentDigits_split read
          exact ⟨unit :: used, by simp [split], List.forall_mem_cons.mpr ⟨scalar, all⟩⟩
      · cases read
        exact ⟨[], rfl, by simp⟩

theorem parseUnsigned_split {negative : Bool} {text rest : JsString} {number : JsNumber}
    (read : parseUnsigned negative text = some (number, rest)) :
    ∃ used, text = used ++ rest ∧ Scalar used := by
  simp only [parseUnsigned, Option.bind_eq_bind, Option.bind_eq_some_iff] at read
  obtain ⟨⟨digits, middle⟩, whole, ⟨places, last⟩, fraction, ⟨power, left⟩, exponent, same⟩ := read
  cases same
  obtain ⟨split, small, nonempty⟩ := parseWhole_split whole
  obtain ⟨point, split', scalar'⟩ := parseFraction_split fraction
  obtain ⟨letter, split'', scalar''⟩ := parseExponent_split exponent
  dsimp only at split' split''
  refine ⟨digitText digits ++ (point ++ letter), by simp [split, split', split''], ?_, ?_⟩
  · simp [digitText, nonempty]
  · simp only [List.forall_mem_append]
    exact ⟨scalar_digitText small, scalar', scalar''⟩

theorem parseNumber_split {text rest : JsString} {number : JsNumber}
    (read : parseNumber text = some (number, rest)) :
    ∃ used, text = used ++ rest ∧ Scalar used := by
  unfold parseNumber at read
  split at read
  · obtain ⟨used, split, nonempty, scalar⟩ := parseUnsigned_split read
    exact ⟨0x2D :: used, by simp [split], List.cons_ne_nil _ _,
      List.forall_mem_cons.mpr ⟨by decide, scalar⟩⟩
  · exact parseUnsigned_split read

/-! ## Values -/

/-- What is read of a value is scanned, at the top and inside brackets. -/
structure ScannedValue (used : JsString) : Prop where
  top : (scan .start used).complete = true
  nested : ∀ depth, scan (.inside (depth + 1)) used = .inside (depth + 1) ∨
    scan (.inside (depth + 1)) used = .closed (depth + 1)

/-- The rest of an array or object is scanned to its closing bracket. -/
def ScannedRest (used : JsString) : Prop :=
  ∀ depth, scan (.inside (depth + 1)) used = Scan.leave (depth + 1)

theorem ScannedValue.of_scalar {used : JsString} (scalar : Scalar used) : ScannedValue used :=
  ⟨by rw [(scan_scalar scalar).2]; rfl, fun depth => .inl ((scan_scalar scalar).1 _)⟩

theorem ScannedValue.of_string {used : JsString}
    (scanned : ∀ depth, scan (.text depth) used = .closed depth) : ScannedValue (0x22 :: used) := by
  have opened : ∀ depth, (Scan.inside depth).step 0x22 = .text depth := fun depth => rfl
  have top : Scan.start.step 0x22 = .text 0 := rfl
  refine ⟨?_, fun depth => .inr ?_⟩
  · rw [scan_cons, top, scanned]
    rfl
  · rw [scan_cons, opened, scanned]

theorem ScannedValue.of_brackets {opening : UInt16} {used : JsString}
    (opens : opening = 0x7B ∨ opening = 0x5B) (scanned : ScannedRest used) :
    ScannedValue (opening :: used) := by
  have opened : ∀ depth, (Scan.inside depth).step opening = .inside (depth + 1) := by
    rcases opens with rfl | rfl <;> exact fun depth => rfl
  have top : Scan.start.step opening = .inside 1 := by
    rcases opens with rfl | rfl <;> rfl
  refine ⟨?_, fun depth => .inl ?_⟩
  · rw [scan_cons, top, scanned 0]
    rfl
  · rw [scan_cons, opened, scanned (depth + 1)]
    rfl

theorem ScannedValue.after_spaces {spaces used : JsString} (all : Spaces spaces)
    (scanned : ScannedValue used) : ScannedValue (spaces ++ used) := by
  refine ⟨?_, fun depth => ?_⟩
  · rw [scan_append, scan_spaces all fun _ => start_step_space]
    exact scanned.top
  · rw [scan_append, scan_spaces all fun _ => inside_step_space _]
    exact scanned.nested depth

theorem ScannedRest.close {spaces : JsString} {closing : UInt16} (all : Spaces spaces)
    (closes : closing = 0x7D ∨ closing = 0x5D) : ScannedRest (spaces ++ [closing]) := by
  intro depth
  rw [scan_append, scan_spaces all fun _ => inside_step_space _]
  rcases closes with rfl | rfl <;> rfl

/-- Behind a value inside brackets, spaces and then a separator or a closing bracket. -/
theorem scan_behind {used spaces : JsString} (scanned : ScannedValue used) (all : Spaces spaces)
    (depth : Nat) {unit : UInt16} (after : Scan)
    (inside : (Scan.inside (depth + 1)).step unit = after)
    (closed : (Scan.closed (depth + 1)).step unit = after) (rest : JsString) :
    scan (.inside (depth + 1)) (used ++ (spaces ++ unit :: rest)) = scan after rest := by
  rw [scan_append]
  rcases scanned.nested depth with same | same <;> rw [same, scan_append]
  · rw [scan_spaces all fun _ => inside_step_space _, scan_cons, inside]
  · rw [scan_spaces all fun _ => closed_step_space _, scan_cons, closed]

theorem ScannedRest.last {used spaces : JsString} {closing : UInt16} (scanned : ScannedValue used)
    (all : Spaces spaces) (closes : closing = 0x7D ∨ closing = 0x5D) :
    ScannedRest (used ++ (spaces ++ [closing])) := by
  intro depth
  rcases closes with rfl | rfl <;> exact scan_behind scanned all depth _ rfl rfl []

theorem ScannedRest.more {used spaces rest : JsString} (scanned : ScannedValue used)
    (all : Spaces spaces) (others : ScannedRest rest) :
    ScannedRest (used ++ (spaces ++ 0x2C :: rest)) := by
  intro depth
  rw [scan_behind scanned all depth (.inside (depth + 1)) rfl rfl rest]
  exact others depth

theorem ScannedRest.member {spaces key before rest : JsString} (all : Spaces spaces)
    (scanned : ∀ depth, scan (.text depth) key = .closed depth) (allBefore : Spaces before)
    (others : ScannedRest rest) :
    ScannedRest (spaces ++ 0x22 :: (key ++ (before ++ 0x3A :: rest))) := by
  intro depth
  have opened : (Scan.inside (depth + 1)).step 0x22 = .text (depth + 1) := rfl
  have separated : (Scan.closed (depth + 1)).step 0x3A = .inside (depth + 1) := rfl
  rw [scan_append, scan_spaces all fun _ => inside_step_space _, scan_cons, opened, scan_append,
    scanned, scan_append, scan_spaces allBefore fun _ => closed_step_space _, scan_cons, separated]
  exact others depth

/-- What the parser takes from the front of a text. -/
structure Takes (fuel : Nat) : Prop where
  value : ∀ text value rest, parseValue fuel text = some (value, rest) →
    ∃ used, text = used ++ rest ∧ ScannedValue used
  items : ∀ items text value rest, parseItems fuel items text = some (value, rest) →
    ∃ used, text = used ++ rest ∧ ScannedRest used
  members : ∀ members text value rest, parseMembers fuel members text = some (value, rest) →
    ∃ used, text = used ++ rest ∧ ScannedRest used

/-- An array or object is scanned once the rest of it is. -/
theorem takes_brackets {opening : UInt16} {after rest : JsString} (used : JsString)
    (opens : opening = 0x7B ∨ opening = 0x5B) (split : skipSpace after = used ++ rest)
    (scanned : ∀ spaces, Spaces spaces → ScannedRest (spaces ++ used)) :
    ∃ used, opening :: after = used ++ rest ∧ ScannedValue used := by
  obtain ⟨spaces, all, whole⟩ := skipSpace_split after
  refine ⟨opening :: (spaces ++ used), ?_, .of_brackets opens (scanned spaces all)⟩
  rw [List.cons_append, List.append_assoc, ← split, ← whole]

theorem ScannedRest.after_spaces {spaces used : JsString} (all : Spaces spaces)
    (scanned : ScannedRest used) : ScannedRest (spaces ++ used) := by
  intro depth
  rw [scan_append, scan_spaces all fun _ => inside_step_space _]
  exact scanned depth

theorem takes_value {fuel : Nat} (takes : Takes fuel) {text rest : JsString} {value : JsValue}
    (read : parseValue (fuel + 1) text = some (value, rest)) :
    ∃ used, text = used ++ rest ∧ ScannedValue used := by
  obtain ⟨spaces, all, split⟩ := skipSpace_split text
  suffices front : ∃ used, skipSpace text = used ++ rest ∧ ScannedValue used by
    obtain ⟨used, front, scanned⟩ := front
    exact ⟨spaces ++ used, by rw [List.append_assoc, ← front, ← split], scanned.after_spaces all⟩
  simp only [parseValue] at read
  cases skipped : skipSpace text with
  | nil => simp [skipped] at read
  | cons unit after =>
      simp only [skipped] at read
      split_ifs at read with brace bracket quote t f n
      · subst unit
        split at read
        · rename_i left closed
          cases read
          exact takes_brackets [0x7D] (.inl rfl) closed
            fun spaces all => .close all (.inl rfl)
        · obtain ⟨used, split, scanned⟩ := takes.members _ _ _ _ read
          exact takes_brackets used (.inl rfl) split fun spaces all => scanned.after_spaces all
      · subst unit
        split at read
        · rename_i left closed
          cases read
          exact takes_brackets [0x5D] (.inr rfl) closed
            fun spaces all => .close all (.inr rfl)
        · obtain ⟨used, split, scanned⟩ := takes.items _ _ _ _ read
          exact takes_brackets used (.inr rfl) split fun spaces all => scanned.after_spaces all
      · subst unit
        obtain ⟨⟨units, left⟩, string, same⟩ := Option.map_eq_some_iff.mp read
        cases same
        obtain ⟨used, split, scanned⟩ := parseString_scan after string
        exact ⟨0x22 :: used, by rw [List.cons_append, ← split], .of_string scanned⟩
      · subst unit
        obtain ⟨left, dropped, same⟩ := Option.map_eq_some_iff.mp read
        cases same
        exact ⟨js "true", congrArg (0x74 :: ·) (dropWord_split dropped),
          .of_scalar (.of_all (by decide) (by decide))⟩
      · subst unit
        obtain ⟨left, dropped, same⟩ := Option.map_eq_some_iff.mp read
        cases same
        exact ⟨js "false", congrArg (0x66 :: ·) (dropWord_split dropped),
          .of_scalar (.of_all (by decide) (by decide))⟩
      · subst unit
        obtain ⟨left, dropped, same⟩ := Option.map_eq_some_iff.mp read
        cases same
        exact ⟨js "null", congrArg (0x6E :: ·) (dropWord_split dropped),
          .of_scalar (.of_all (by decide) (by decide))⟩
      · obtain ⟨⟨number, left⟩, parsed, same⟩ := Option.map_eq_some_iff.mp read
        cases same
        obtain ⟨used, split, scalar⟩ := parseNumber_split parsed
        exact ⟨used, split, .of_scalar scalar⟩

theorem takes_items {fuel : Nat} (takes : Takes fuel) {items : List JsValue} {text rest : JsString}
    {value : JsValue} (read : parseItems (fuel + 1) items text = some (value, rest)) :
    ∃ used, text = used ++ rest ∧ ScannedRest used := by
  simp only [parseItems] at read
  split at read
  · cases read
  · rename_i item left parsed
    obtain ⟨used, split', scanned⟩ := takes.value _ _ _ parsed
    obtain ⟨spaces, all, whole⟩ := skipSpace_split left
    split at read
    · rename_i after separated
      obtain ⟨others, split'', scannedRest⟩ := takes.items _ _ _ _ read
      refine ⟨used ++ (spaces ++ 0x2C :: others), ?_, .more scanned all scannedRest⟩
      rw [split', whole, separated, split'']
      simp
    · rename_i after closed
      cases read
      refine ⟨used ++ (spaces ++ [0x5D]), ?_, .last scanned all (.inr rfl)⟩
      rw [split', whole, closed]
      simp
    · cases read

theorem takes_members {fuel : Nat} (takes : Takes fuel) {members : List (JsString × JsValue)}
    {text rest : JsString} {value : JsValue}
    (read : parseMembers (fuel + 1) members text = some (value, rest)) :
    ∃ used, text = used ++ rest ∧ ScannedRest used := by
  obtain ⟨before, allBefore, split⟩ := skipSpace_split text
  simp only [parseMembers] at read
  split at read
  · rename_i after quoted
    split at read
    · cases read
    · rename_i key left string
      obtain ⟨keyUsed, keySplit, keyScanned⟩ := parseString_scan after string
      obtain ⟨between, allBetween, splitBetween⟩ := skipSpace_split left
      split at read
      · rename_i afterColon colon
        split at read
        · cases read
        · rename_i member left' parsed
          obtain ⟨used, splitValue, scanned⟩ := takes.value _ _ _ parsed
          obtain ⟨spaces, all, whole⟩ := skipSpace_split left'
          split at read
          · rename_i afterComma separated
            obtain ⟨others, splitOthers, scannedOthers⟩ := takes.members _ _ _ _ read
            refine ⟨before ++ 0x22 :: (keyUsed ++ (between ++ 0x3A :: (used ++ (spaces ++
              0x2C :: others)))), ?_, .member allBefore keyScanned allBetween
                (.more scanned all scannedOthers)⟩
            rw [split, quoted, keySplit, splitBetween, colon, splitValue, whole, separated,
              splitOthers]
            simp
          · rename_i afterBrace closed
            cases read
            refine ⟨before ++ 0x22 :: (keyUsed ++ (between ++ 0x3A :: (used ++ (spaces ++
              [0x7D])))), ?_, .member allBefore keyScanned allBetween
                (.last scanned all (.inl rfl))⟩
            rw [split, quoted, keySplit, splitBetween, colon, splitValue, whole, closed]
            simp
          · cases read
      · cases read
  · cases read

theorem takes_of_fuel (fuel : Nat) : Takes fuel := by
  induction fuel with
  | zero =>
      refine ⟨?_, ?_, ?_⟩
      · intro text value rest read
        cases read
      · intro items text value rest read
        cases read
      · intro members text value rest read
        cases read
  | succ fuel induction =>
      exact ⟨fun _ _ _ read => takes_value induction read,
        fun _ _ _ _ read => takes_items induction read,
        fun _ _ _ _ read => takes_members induction read⟩

theorem complete_spaces {state : Scan} {spaces : JsString} (all : Spaces spaces)
    (complete : state.complete = true) : (scan state spaces).complete = true := by
  cases state with
  | done => rw [scan_spaces all fun _ => done_step_space]; rfl
  | closed depth => rw [scan_spaces all fun _ => closed_step_space depth]; exact complete
  | _ => cases complete

/-- A text that parses is scanned to the end of one value. -/
theorem scan_of_parse {text : JsString} {value : JsValue} (read : parse text = some value) :
    (scan .start text).complete = true := by
  simp only [parse] at read
  split at read
  · rename_i value' rest parsed
    split at read
    · rename_i blank
      obtain ⟨used, split', scanned⟩ := (takes_of_fuel _).value _ _ _ parsed
      obtain ⟨spaces, all, whole⟩ := skipSpace_split rest
      rw [blank, List.append_nil] at whole
      rw [split', whole, scan_append]
      exact complete_spaces all scanned.top
    · cases read
  · cases read

/-! ## Texts run together, and cut ones -/

theorem step_eq_start {state : Scan} {unit : UInt16} (stays : state.step unit = .start) :
    state = .start ∧ isJsonSpace unit = true := by
  have left : ∀ depth, Scan.leave depth ≠ .start := by
    intro depth
    match depth with
    | 0 | 1 | _ + 2 => simp [Scan.leave]
  cases state with
  | escape depth => cases stays
  | bad => cases stays
  | _ =>
      simp only [Scan.step] at stays
      split_ifs at stays <;> first | exact absurd stays (left _) | simp_all

theorem spaces_of_scan_start {state : Scan} {text : JsString} (stays : scan state text = .start) :
    state = .start ∧ Spaces text := by
  induction text generalizing state with
  | nil => exact ⟨stays, by simp [Spaces]⟩
  | cons unit text induction =>
      obtain ⟨stepped, others⟩ := induction stays
      obtain ⟨same, space⟩ := step_eq_start stepped
      exact ⟨same, List.forall_mem_cons.mpr ⟨space, others⟩⟩

theorem step_ne_inside_zero {state : Scan} (unit : UInt16) (nested : state ≠ .inside 0) :
    state.step unit ≠ .inside 0 := by
  have left : ∀ depth, Scan.leave depth ≠ .inside 0 := by
    intro depth
    match depth with
    | 0 | 1 | _ + 2 => simp [Scan.leave]
  cases state with
  | escape depth => simp [Scan.step]
  | bad => simp [Scan.step]
  | _ =>
      simp only [Scan.step]
      split_ifs <;> first | exact left _ | simp_all

theorem scan_ne_inside_zero {state : Scan} (text : JsString) (nested : state ≠ .inside 0) :
    scan state text ≠ .inside 0 := by
  induction text generalizing state with
  | nil => exact nested
  | cons unit text induction => exact induction (step_ne_inside_zero unit nested)

/-- A text that starts like an object, its first key with a letter, does not parse
where it ends within the object, nor behind a text that is not blank. -/
theorem parse_behind {before after : JsString} {letter : UInt16}
    (refused : ∀ depth, (Scan.closed depth).step letter = .bad)
    (nested : ∀ depth, (scan (.inside (depth + 1)) (0x7B :: 0x22 :: letter :: after)).complete = false)
    (top : Spaces before → (scan .start (0x7B :: 0x22 :: letter :: after)).complete = false) :
    parse (before ++ 0x7B :: 0x22 :: letter :: after) = none := by
  cases read : parse (before ++ 0x7B :: 0x22 :: letter :: after) with
  | none => rfl
  | some value =>
      exfalso
      have complete := scan_of_parse read
      rw [scan_append] at complete
      cases state : scan .start before with
      | start =>
          have atTop := top (spaces_of_scan_start state).2
          rw [state, atTop] at complete
          cases complete
      | done =>
          have bad : Scan.done.step 0x7B = .bad := rfl
          rw [state, scan_cons, bad, scan_bad] at complete
          cases complete
      | inside depth =>
          cases depth with
          | zero => exact scan_ne_inside_zero before (by simp) state
          | succ depth =>
              rw [state, nested depth] at complete
              cases complete
      | text depth =>
          have inText : ((Scan.text depth).step 0x7B).step 0x22 = .closed depth := rfl
          rw [state, scan_cons, scan_cons, scan_cons, inText, refused, scan_bad] at complete
          cases complete
      | escape depth =>
          have inText : ((Scan.escape depth).step 0x7B).step 0x22 = .closed depth := rfl
          rw [state, scan_cons, scan_cons, scan_cons, inText, refused, scan_bad] at complete
          cases complete
      | closed depth =>
          have bad : (Scan.closed depth).step 0x7B = .bad := rfl
          rw [state, scan_cons, bad, scan_bad] at complete
          cases complete
      | bad =>
          rw [state, scan_bad] at complete
          cases complete

/-- Nothing is complete before a code unit that stands only within strings. -/
theorem not_complete_of_cut {state : Scan} {before after : JsString} {unit : UInt16}
    (foreign : Scan.isForeign unit = true) (whole : scan state (before ++ unit :: after) ≠ .bad) :
    (scan state before).complete = false := by
  rw [scan_append, scan_cons] at whole
  have others : isJsonSpace unit = false ∧ Scan.isClosing unit = false := by
    simp only [Scan.isForeign, Bool.or_eq_true, decide_eq_true_eq, or_assoc] at foreign
    rcases foreign with rfl | rfl | rfl <;> decide
  cases reached : scan state before with
  | done =>
      have bad : Scan.done.step unit = .bad := by simp [Scan.step, foreign]
      rw [reached, bad, scan_bad] at whole
      exact absurd rfl whole
  | closed depth =>
      cases depth with
      | zero =>
          have bad : (Scan.closed 0).step unit = .bad := by simp [Scan.step, others]
          rw [reached, bad, scan_bad] at whole
          exact absurd rfl whole
      | succ depth => rfl
  | _ => rfl

theorem ScannedValue.of_stringify (value : JsValue) : ScannedValue (stringify value) := by
  have follows : Follows [] := by simp [Follows]
  have read := parseValue_stringify value ((stringify value).length + 1) (by omega) follows
  obtain ⟨used, split, scanned⟩ := (takes_of_fuel _).value _ _ _ read
  rw [List.append_nil, List.append_nil] at split
  rwa [split]

theorem ScannedValue.nested_open {used : JsString} (scanned : ScannedValue used) (depth : Nat) :
    (scan (.inside (depth + 1)) used).complete = false := by
  rcases scanned.nested depth with same | same <;> rw [same] <;> rfl

theorem ScannedValue.cut {before after : JsString} {unit : UInt16}
    (scanned : ScannedValue (before ++ unit :: after)) (foreign : Scan.isForeign unit = true) :
    (∀ depth, (scan (.inside (depth + 1)) before).complete = false) ∧
      (scan .start before).complete = false := by
  have nested : ∀ depth, scan (.inside (depth + 1)) (before ++ unit :: after) ≠ .bad := by
    intro depth bad
    rcases scanned.nested depth with same | same <;> rw [same] at bad <;> cases bad
  have top : scan .start (before ++ unit :: after) ≠ .bad := by
    intro bad
    have complete := scanned.top
    rw [bad] at complete
    cases complete
  exact ⟨fun depth => not_complete_of_cut foreign (nested depth), not_complete_of_cut foreign top⟩

/-! ## What an object starts with -/

theorem array_of_parseItems {fuel : Nat} {items : List JsValue} {text rest : JsString}
    {value : JsValue} (read : parseItems fuel items text = some (value, rest)) :
    ∃ all, value = .array all := by
  induction fuel generalizing items text with
  | zero => cases read
  | succ fuel induction =>
      simp only [parseItems] at read
      split at read
      · cases read
      · split at read
        · exact induction read
        · cases read
          exact ⟨_, rfl⟩
        · cases read

theorem key_of_parseMembers {fuel : Nat} {members : List (JsString × JsValue)} {text : JsString}
    {result : JsValue × JsString} (read : parseMembers fuel members text = some result) :
    ∃ rest key left, skipSpace text = 0x22 :: rest ∧ parseString rest = some (key, left) ∧
      (skipSpace left).head? = some 0x3A := by
  cases fuel with
  | zero => cases read
  | succ fuel =>
      simp only [parseMembers] at read
      split at read
      · rename_i rest quoted
        split at read
        · cases read
        · rename_i key left string
          split at read
          · rename_i after colon
            exact ⟨rest, key, left, quoted, string, by rw [colon]; rfl⟩
          · cases read
      · cases read

/-- An object with members starts with a brace and a key. -/
theorem object_start {text : JsString} {members : List (JsString × JsValue)}
    (read : parse text = some (.object members)) (nonempty : members ≠ []) :
    ∃ spaces before rest key left, Spaces spaces ∧ Spaces before ∧
      text = spaces ++ 0x7B :: (before ++ 0x22 :: rest) ∧
      parseString rest = some (key, left) ∧ (skipSpace left).head? = some 0x3A := by
  obtain ⟨spaces, all, split⟩ := skipSpace_split text
  simp only [parse] at read
  split at read
  · rename_i value left parsed
    split at read <;> cases read
    simp only [parseValue] at parsed
    cases skipped : skipSpace text with
    | nil => simp [skipped] at parsed
    | cons unit after =>
        simp only [skipped] at parsed
        rw [skipped] at split
        split_ifs at parsed with brace bracket quote t f n
        · subst unit
          obtain ⟨before, allBefore, splitBefore⟩ := skipSpace_split after
          split at parsed
          · cases parsed
            exact absurd rfl nonempty
          · obtain ⟨rest, key, left, quoted, string, colon⟩ := key_of_parseMembers parsed
            obtain ⟨inner, allInner, splitInner⟩ := skipSpace_split (skipSpace after)
            rw [quoted] at splitInner
            refine ⟨spaces, before ++ inner, rest, key, left, all, ?_, ?_, string, colon⟩
            · intro unit member
              rcases List.mem_append.mp member with member | member
              · exact allBefore unit member
              · exact allInner unit member
            · rw [split, splitBefore, splitInner, List.append_assoc]
        · split at parsed
          · cases parsed
          · obtain ⟨items, same⟩ := array_of_parseItems parsed
            cases same
        · obtain ⟨read, -, same⟩ := Option.map_eq_some_iff.mp parsed
          cases same
        · obtain ⟨read, -, same⟩ := Option.map_eq_some_iff.mp parsed
          cases same
        · obtain ⟨read, -, same⟩ := Option.map_eq_some_iff.mp parsed
          cases same
        · obtain ⟨read, -, same⟩ := Option.map_eq_some_iff.mp parsed
          cases same
        · obtain ⟨read, -, same⟩ := Option.map_eq_some_iff.mp parsed
          cases same
  · cases read

end Tapes.Js
