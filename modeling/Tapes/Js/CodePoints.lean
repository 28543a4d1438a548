import Mathlib.Data.List.Chain
import Mathlib.Data.List.DropRight
import Tapes.Js.Utf8

namespace Tapes.Js

/-! The code points of a string, as a regular expression with the `u` flag sees them. -/

/-- A lone surrogate is a code point of its own. -/
def codePoints : JsString → List Nat
  | [] => []
  | [unit] => [unit.toNat]
  | unit :: next :: rest =>
      if isHighSurrogate unit && isLowSurrogate next then pairPoint unit next :: codePoints rest
      else unit.toNat :: codePoints (next :: rest)

def ofCodePoints (points : List Nat) : JsString := points.flatMap pointUnits

def IsHighPoint (point : Nat) : Prop := 0xD800 ≤ point ∧ point ≤ 0xDBFF

def IsLowPoint (point : Nat) : Prop := 0xDC00 ≤ point ∧ point ≤ 0xDFFF

/-- `\p{Cs}`. -/
def isSurrogatePoint (point : Nat) : Bool := decide (0xD800 ≤ point) && decide (point ≤ 0xDFFF)

/-- `\s`. -/
def isWhiteSpacePoint (point : Nat) : Bool :=
  decide (point < 0x10000) && isWhiteSpace point.toUInt16

/-- No two neighbours make a pair. -/
structure Apart (points : List Nat) : Prop where
  bounded : ∀ point ∈ points, point < 0x110000
  chain : points.IsChain fun point next => ¬ (IsHighPoint point ∧ IsLowPoint next)

variable {points before after : List Nat} {text left right : JsString} {point : Nat}

@[simp] theorem ofCodePoints_nil : ofCodePoints [] = [] := rfl

@[simp] theorem ofCodePoints_cons (point : Nat) (points : List Nat) :
    ofCodePoints (point :: points) = pointUnits point ++ ofCodePoints points := rfl

@[simp] theorem ofCodePoints_append (before after : List Nat) :
    ofCodePoints (before ++ after) = ofCodePoints before ++ ofCodePoints after :=
  List.flatMap_append

theorem codePoints_cons_pair {high low : UInt16} (isHigh : isHighSurrogate high = true)
    (isLow : isLowSurrogate low = true) (rest : JsString) :
    codePoints (high :: low :: rest) = pairPoint high low :: codePoints rest := by
  rw [codePoints, if_pos (by rw [isHigh, isLow]; rfl)]

theorem codePoints_cons_unit {unit : UInt16}
    (alone : isHighSurrogate unit = true → ∀ next ∈ text.head?, isLowSurrogate next = false) :
    codePoints (unit :: text) = unit.toNat :: codePoints text := by
  cases text with
  | nil => rfl
  | cons next rest =>
      have single : ¬ (isHighSurrogate unit && isLowSurrogate next) = true := by
        rw [Bool.and_eq_true]
        intro ⟨high, low⟩
        rw [alone high next rfl] at low
        cases low
      rw [codePoints, if_neg single]

@[simp] theorem ofCodePoints_codePoints (text : JsString) :
    ofCodePoints (codePoints text) = text := by
  induction text using codePoints.induct with
  | case1 => rfl
  | case2 unit => rw [codePoints, ofCodePoints_cons, pointUnits_unit]; rfl
  | case3 unit next rest pair induction =>
      obtain ⟨high, low⟩ := Bool.and_eq_true _ _ ▸ pair
      rw [codePoints_cons_pair high low, ofCodePoints_cons, pointUnits_pair high low, induction]
      rfl
  | case4 unit next rest pair induction =>
      rw [codePoints, if_neg pair, ofCodePoints_cons, pointUnits_unit, induction]
      rfl

theorem isHighPoint_toNat {unit : UInt16} :
    IsHighPoint unit.toNat ↔ isHighSurrogate unit = true := isHighSurrogate_iff.symm

theorem isLowPoint_toNat {unit : UInt16} :
    IsLowPoint unit.toNat ↔ isLowSurrogate unit = true := isLowSurrogate_iff.symm

/-- The first code point starts with the first unit. -/
theorem head_codePoints_isLow (text : JsString) (point : Nat) (first : point ∈ (codePoints text).head?)
    (low : IsLowPoint point) : ∃ unit ∈ text.head?, isLowSurrogate unit = true := by
  cases text using codePoints.induct with
  | case1 => cases first
  | case2 unit =>
      have same : unit.toNat = point := Option.some.inj first
      exact ⟨unit, rfl, isLowPoint_toNat.mp (same ▸ low)⟩
  | case3 unit next rest pair =>
      obtain ⟨high, isLow⟩ := Bool.and_eq_true _ _ ▸ pair
      rw [codePoints_cons_pair high isLow] at first
      have same : pairPoint unit next = point := Option.some.inj first
      have large := (pairPoint_parts high isLow).1
      unfold IsLowPoint at low
      omega
  | case4 unit next rest pair =>
      rw [codePoints, if_neg pair] at first
      have same : unit.toNat = point := Option.some.inj first
      exact ⟨unit, rfl, isLowPoint_toNat.mp (same ▸ low)⟩

theorem apart_nil : Apart [] := ⟨by simp, List.isChain_nil⟩

theorem apart_cons (bounded : point < 0x110000) (apart : Apart points)
    (alone : IsHighPoint point → ∀ next ∈ points.head?, ¬ IsLowPoint next) :
    Apart (point :: points) := by
  refine ⟨List.forall_mem_cons.mpr ⟨bounded, apart.bounded⟩, ?_⟩
  exact List.isChain_cons.mpr
    ⟨fun next first both => alone both.1 next first both.2, apart.chain⟩

theorem apart_codePoints (text : JsString) : Apart (codePoints text) := by
  induction text using codePoints.induct with
  | case1 => exact apart_nil
  | case2 unit =>
      have bound := unit.toNat_lt
      apply apart_cons (by omega) apart_nil
      intro _ next first
      cases first
  | case3 unit next rest pair induction =>
      obtain ⟨high, low⟩ := Bool.and_eq_true _ _ ▸ pair
      obtain ⟨large, bounded, -, -⟩ := pairPoint_parts high low
      rw [codePoints_cons_pair high low]
      apply apart_cons bounded induction
      intro isHigh
      unfold IsHighPoint at isHigh
      omega
  | case4 unit next rest pair induction =>
      have bound := unit.toNat_lt
      rw [codePoints, if_neg pair]
      apply apart_cons (by omega) induction
      intro isHigh point first isLow
      obtain ⟨other, same, low⟩ := head_codePoints_isLow _ _ first isLow
      cases same
      exact pair (Bool.and_eq_true _ _ ▸ ⟨isHighPoint_toNat.mp isHigh, low⟩)

theorem toNat_toUInt16 {value : Nat} (small : value < 0x10000) : value.toUInt16.toNat = value := by
  rw [Nat.toUInt16, UInt16.toNat_ofNat']
  omega

/-- The units of one code point are one unit, or a pair. -/
theorem pointUnits_cases (bounded : point < 0x110000) :
    (∃ unit : UInt16, unit.toNat = point ∧ pointUnits point = [unit]) ∨
      ∃ high low, isHighSurrogate high = true ∧ isLowSurrogate low = true ∧
        pairPoint high low = point ∧ pointUnits point = [high, low] := by
  by_cases small : point < 0x10000
  · exact .inl ⟨point.toUInt16, toNat_toUInt16 small, if_pos small⟩
  · have high : (0xD800 + (point - 0x10000) / 0x400).toUInt16.toNat =
        0xD800 + (point - 0x10000) / 0x400 := toNat_toUInt16 (by omega)
    have low : (0xDC00 + (point - 0x10000) % 0x400).toUInt16.toNat =
        0xDC00 + (point - 0x10000) % 0x400 := toNat_toUInt16 (by omega)
    right
    refine ⟨(0xD800 + (point - 0x10000) / 0x400).toUInt16,
      (0xDC00 + (point - 0x10000) % 0x400).toUInt16, ?_, ?_, ?_, if_neg small⟩
    · rw [isHighSurrogate_iff, high]
      omega
    · rw [isLowSurrogate_iff, low]
      omega
    · unfold pairPoint
      rw [high, low]
      omega

theorem pointUnits_ne_nil (point : Nat) : pointUnits point ≠ [] := by
  unfold pointUnits
  split <;> simp

/-- The first unit of a code point that is no low surrogate is none either. -/
theorem head_ofCodePoints_notLow (bounded : ∀ point ∈ points, point < 0x110000)
    (notLow : ∀ point ∈ points.head?, ¬ IsLowPoint point) :
    ∀ unit ∈ (ofCodePoints points ++ right).head?, points ≠ [] → isLowSurrogate unit = false := by
  intro unit first nonempty
  cases points with
  | nil => exact absurd rfl nonempty
  | cons point rest =>
      have other := notLow point rfl
      rcases pointUnits_cases (bounded point (by simp)) with ⟨only, same, units⟩ | pair
      · rw [ofCodePoints_cons, units] at first
        cases first
        rw [← Bool.not_eq_true, isLowSurrogate_iff, same]
        exact other
      · obtain ⟨high, low, isHigh, -, -, units⟩ := pair
        rw [ofCodePoints_cons, units] at first
        cases first
        have between := isHighSurrogate_iff.mp isHigh
        rw [← Bool.not_eq_true, isLowSurrogate_iff]
        omega

theorem codePoints_ofCodePoints (apart : Apart points) : codePoints (ofCodePoints points) = points := by
  induction points with
  | nil => rfl
  | cons point rest induction =>
      obtain ⟨first, chain⟩ := List.isChain_cons.mp apart.chain
      obtain ⟨bounded, others⟩ := List.forall_mem_cons.mp apart.bounded
      have later := induction ⟨others, chain⟩
      rcases pointUnits_cases bounded with ⟨only, same, units⟩ | pair
      · rw [ofCodePoints_cons, units, List.singleton_append, codePoints_cons_unit, later, same]
        intro high next member
        have isHigh : IsHighPoint point := same ▸ isHighSurrogate_iff.mp high
        have notLow : ∀ next ∈ rest.head?, ¬ IsLowPoint next :=
          fun next member low => first next member ⟨isHigh, low⟩
        have nonempty : rest ≠ [] := by
          intro none
          rw [none] at member
          cases member
        rw [← List.append_nil (ofCodePoints rest)] at member
        exact head_ofCodePoints_notLow others notLow next member nonempty
      · obtain ⟨high, low, isHigh, isLow, same, units⟩ := pair
        rw [ofCodePoints_cons, units, List.cons_append, List.singleton_append,
          codePoints_cons_pair isHigh isLow, later, same]

/-! ## Around one code point -/

theorem Apart.of_front (apart : Apart points) (first : before <+: points) : Apart before :=
  ⟨fun point member => apart.bounded point (first.mem member), apart.chain.prefix first⟩

theorem apart_around (scalar : IsScalarValue point) (apart : Apart before) (apart_after : Apart after) :
    Apart (before ++ point :: after) := by
  obtain ⟨bounded, notSurrogate⟩ := scalar
  have rest : Apart (point :: after) := by
    apply apart_cons bounded apart_after
    intro high
    unfold IsHighPoint at high
    omega
  refine ⟨?_, List.isChain_append.mpr ⟨apart.chain, rest.chain, ?_⟩⟩
  · intro other member
    exact (List.mem_append.mp member).elim (apart.bounded other) (rest.bounded other)
  · intro other _ next first both
    have same : point = next := Option.some.inj first
    have low := both.2
    unfold IsLowPoint at low
    omega

/-- A code point that is no surrogate is one wherever its units stand. -/
theorem codePoints_around (scalar : IsScalarValue point) (left right : JsString) :
    codePoints (left ++ pointUnits point ++ right) =
      codePoints left ++ point :: codePoints right := by
  have apart := apart_around scalar (apart_codePoints left) (apart_codePoints right)
  have back := codePoints_ofCodePoints apart
  rwa [ofCodePoints_append, ofCodePoints_cons, ofCodePoints_codePoints, ofCodePoints_codePoints,
    ← List.append_assoc] at back

/-- No point is replaced by a surrogate. -/
theorem Apart.map {change : Nat → Nat} (apart : Apart points)
    (changed : ∀ point, change point = point ∨ IsScalarValue (change point)) :
    Apart (points.map change) := by
  constructor
  · intro point member
    obtain ⟨old, inside, rfl⟩ := List.mem_map.mp member
    rcases changed old with same | scalar
    · rw [same]
      exact apart.bounded old inside
    · exact scalar.1
  · refine List.isChain_map_of_isChain change ?_ apart.chain
    intro old next alone ⟨high, low⟩
    unfold IsHighPoint at high
    unfold IsLowPoint at low
    rcases changed old with same | scalar
    · rcases changed next with same_next | scalar
      · rw [same] at high
        rw [same_next] at low
        exact alone ⟨high, low⟩
      · have other := scalar.2
        omega
    · have other := scalar.2
      omega

/-- A text is well formed where no code point of it is a surrogate. -/
theorem wellFormed_iff_scalar (text : JsString) :
    wellFormed text = true ↔ ∀ point ∈ codePoints text, isSurrogatePoint point = false := by
  have surrogate : ∀ unit : UInt16, isSurrogatePoint unit.toNat = false ↔
      isHighSurrogate unit = false ∧ isLowSurrogate unit = false := by
    intro unit
    rw [← Bool.not_eq_true, ← Bool.not_eq_true, ← Bool.not_eq_true, isHighSurrogate_iff,
      isLowSurrogate_iff, isSurrogatePoint, Bool.and_eq_true, decide_eq_true_eq, decide_eq_true_eq]
    omega
  induction text using wellFormed.induct with
  | case1 => simp [wellFormed, codePoints]
  | case2 unit =>
      rw [wellFormed, Bool.and_eq_true, Bool.not_eq_true', Bool.not_eq_true', ← surrogate]
      simp [codePoints]
  | case3 unit next rest high induction =>
      have later : wellFormed rest = true ↔
          ∀ point ∈ codePoints rest, isSurrogatePoint point = false := induction
      rw [wellFormed, if_pos high, Bool.and_eq_true, later]
      cases low : isLowSurrogate next with
      | true =>
          have scalar := (isScalarValue_pair high low).2
          have point : isSurrogatePoint (pairPoint unit next) = false := by
            rw [← Bool.not_eq_true, isSurrogatePoint, Bool.and_eq_true, decide_eq_true_eq,
              decide_eq_true_eq]
            exact scalar
          simp [codePoints_cons_pair high low, point]
      | false =>
          have single : ¬ (isHighSurrogate unit && isLowSurrogate next) = true := by simp [low]
          have own := (surrogate unit).not.mpr (by simp [high])
          rw [codePoints, if_neg single]
          simp [own]
  | case4 unit next rest high induction =>
      have notHigh : isHighSurrogate unit = false := Bool.not_eq_true _ ▸ high
      have later : wellFormed (next :: rest) = true ↔
          ∀ point ∈ codePoints (next :: rest), isSurrogatePoint point = false := induction
      have front : codePoints (unit :: next :: rest) = unit.toNat :: codePoints (next :: rest) :=
        codePoints_cons_unit (by simp [notHigh])
      rw [wellFormed, if_neg high, Bool.and_eq_true, later, Bool.not_eq_true', front,
        List.forall_mem_cons, surrogate]
      simp [notHigh]

theorem isWhiteSpacePoint_unit (unit : UInt16) :
    isWhiteSpacePoint unit.toNat = isWhiteSpace unit := by
  rw [isWhiteSpacePoint, toUInt16_toNat, decide_eq_true unit.toNat_lt, Bool.true_and]

theorem isWhiteSpace_surrogate {unit : UInt16} (surrogate : isSurrogatePoint unit.toNat = true) :
    isWhiteSpace unit = false := by
  rw [isSurrogatePoint, Bool.and_eq_true, decide_eq_true_eq, decide_eq_true_eq] at surrogate
  have other : ∀ white ∈ ([0x09, 0x0A, 0x0B, 0x0C, 0x0D, 0x20, 0xA0, 0x1680, 0x2028, 0x2029,
      0x202F, 0x205F, 0x3000, 0xFEFF] : List UInt16), isSurrogatePoint white.toNat = false := by
    decide
  rw [← Bool.not_eq_true, isWhiteSpace, Bool.or_eq_true, decide_eq_true_eq, Bool.and_eq_true,
    decide_eq_true_eq, decide_eq_true_eq]
  rintro (white | ⟨-, small⟩)
  · have not := other unit white
    rw [isSurrogatePoint, decide_eq_true surrogate.1, decide_eq_true surrogate.2] at not
    cases not
  · have bound : unit.toNat ≤ 0x200A := UInt16.le_iff_toNat_le.mp small
    omega

/-- A text's units are white where its code points are. -/
theorem not_white_pointUnits (bounded : point < 0x110000) (other : isWhiteSpacePoint point = false) :
    ∀ unit ∈ pointUnits point, isWhiteSpace unit = false := by
  intro unit member
  rcases pointUnits_cases bounded with ⟨only, same, units⟩ | pair
  · rw [units, List.mem_singleton] at member
    rwa [← same, isWhiteSpacePoint_unit, ← member] at other
  · obtain ⟨high, low, isHigh, isLow, -, units⟩ := pair
    have first := isHighSurrogate_iff.mp isHigh
    have second := isLowSurrogate_iff.mp isLow
    rw [units] at member
    apply isWhiteSpace_surrogate
    rw [isSurrogatePoint, Bool.and_eq_true, decide_eq_true_eq, decide_eq_true_eq]
    simp only [List.mem_cons, List.not_mem_nil, or_false] at member
    rcases member with rfl | rfl <;> omega

end Tapes.Js
