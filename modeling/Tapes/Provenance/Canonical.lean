import Mathlib.Data.List.GetD
import Tapes.Js.WellFormed
import Tapes.Provenance.Base64Url
import Tapes.Provenance.KeyOrder

namespace Tapes.Provenance

open Tapes.Js

/-! `canonicalJson` gives values that say the same one text, and that text reads back. -/

/-! ## Values as data -/

mutual

/-- JSON data: finite numbers, well-formed strings, dense arrays, each key once. The value
of an object's member may be undefined. -/
def IsData : JsValue → Prop
  | .undefined => False
  | .null => True
  | .boolean _ => True
  | .number (.finite _ _) => True
  | .number _ => False
  | .string text => wellFormed text = true
  | .array items => AreData items
  | .object members => (members.map Prod.fst).Nodup ∧ MembersData members

def AreData : List JsValue → Prop
  | [] => True
  | item :: rest => IsData item ∧ AreData rest

def MembersData : List (JsString × JsValue) → Prop
  | [] => True
  | (key, value) :: rest =>
      (value.isUndefined = true ∨ (wellFormed key = true ∧ IsData value)) ∧ MembersData rest

end

/-- Values that differ in the order of members, in undefined members and in the sign of
zero only. -/
inductive Same : JsValue → JsValue → Prop
  | undefined : Same .undefined .undefined
  | null : Same .null .null
  | boolean (value : Bool) : Same (.boolean value) (.boolean value)
  | number {left right : JsNumber} (equal : left.strictEquals right = true) :
      Same (.number left) (.number right)
  | string (text : JsString) : Same (.string text) (.string text)
  | array {left right : List JsValue} (length : left.length = right.length)
      (items : ∀ index, Same (left.getD index .undefined) (right.getD index .undefined)) :
      Same (.array left) (.array right)
  | object {left right : List (JsString × JsValue)}
      (members : ∀ key, Same (JsValue.lookup key left) (JsValue.lookup key right)) :
      Same (.object left) (.object right)

mutual

/-- The value with its members sorted, undefined members left out and one zero. -/
def normal : JsValue → JsValue
  | .undefined => .undefined
  | .null => .null
  | .boolean value => .boolean value
  | .number (.finite negative magnitude) => .number (.written negative magnitude)
  | .number other => .number other
  | .string text => .string text
  | .array items => .array (normalItems items)
  | .object members => .object (sortMembers (normalMembers members))

def normalItems : List JsValue → List JsValue
  | [] => []
  | item :: rest => normal item :: normalItems rest

def normalMembers : List (JsString × JsValue) → List (JsString × JsValue)
  | [] => []
  | (key, value) :: rest =>
      if value.isUndefined then normalMembers rest else (key, normal value) :: normalMembers rest

end

theorem isUndefined_normal (value : JsValue) : (normal value).isUndefined = value.isUndefined := by
  cases value with
  | number number => cases number <;> rfl
  | _ => rfl

theorem normalMembers_keys (members : List (JsString × JsValue)) :
    ((normalMembers members).map Prod.fst).Sublist (members.map Prod.fst) := by
  induction members with
  | nil => exact .refl _
  | cons member rest induction =>
      obtain ⟨key, value⟩ := member
      rw [normalMembers]
      split
      · exact induction.cons key
      · exact induction.cons_cons key

theorem defined_normalMembers {members : List (JsString × JsValue)}
    {member : JsString × JsValue} (inside : member ∈ normalMembers members) :
    member.2.isUndefined = false := by
  induction members with
  | nil => cases inside
  | cons first rest induction =>
      obtain ⟨key, value⟩ := first
      rw [normalMembers] at inside
      split at inside
      · exact induction inside
      · rename_i defined
        rcases List.mem_cons.mp inside with rfl | inside
        · rw [isUndefined_normal]
          exact Bool.not_eq_true _ ▸ defined
        · exact induction inside

/-! ## The text -/

theorem numberText_written (negative : Bool) (magnitude : Magnitude) :
    numberText (.written negative magnitude) = numberText (.finite negative magnitude) := by
  simp [numberText, JsNumber.written]

def memberText (member : JsString × JsValue) : JsString × JsString :=
  (member.1, quote member.1 ++ [0x3A] ++ stringify member.2)

theorem stringifyMembers_defined {members : List (JsString × JsValue)}
    (defined : ∀ member ∈ members, member.2.isUndefined = false) :
    stringifyMembers members = (members.map memberText).map Prod.snd := by
  induction members with
  | nil => rfl
  | cons member rest induction =>
      obtain ⟨key, value⟩ := member
      obtain ⟨here, others⟩ := List.forall_mem_cons.mp defined
      rw [stringifyMembers, if_neg (by simp [here]), induction others]
      rfl

/-- Members are sorted by key, before they are written or after. -/
theorem sortMembers_memberText (members : List (JsString × JsValue)) :
    (members.map memberText).insertionSort (keyOrder · ·) = (sortMembers members).map memberText := by
  refine (List.map_insertionSort _ _ memberText members ?_).symm
  intro left _ right _
  simp [KeysInOrder, keyOrder, memberText]

mutual

theorem canonicalJson_eq {value : JsValue} (data : IsData value) :
    canonicalJson value = some (stringify (normal value)) := by
  cases value with
  | undefined => exact absurd data id
  | null => rfl
  | boolean value => rfl
  | number number =>
      cases number with
      | finite negative magnitude =>
          exact congrArg some (numberText_written negative magnitude).symm
      | _ => exact absurd data id
  | string text => exact if_pos data
  | array items =>
      rw [canonicalJson, canonicalItems_eq data]
      rfl
  | object members =>
      have defined : ∀ member ∈ sortMembers (normalMembers members), member.2.isUndefined = false :=
        fun member inside => defined_normalMembers ((perm_sortMembers _).mem_iff.mp inside)
      rw [canonicalJson, canonicalMembers_eq data.2]
      simp only [Option.bind_eq_bind, Option.bind_some, Option.pure_def, sortMembers_memberText,
        normal, stringify, stringifyMembers_defined defined]

theorem canonicalItems_eq {items : List JsValue} (data : AreData items) :
    canonicalItems items = some (stringifyItems (normalItems items)) := by
  cases items with
  | nil => rfl
  | cons item rest =>
      rw [canonicalItems, canonicalJson_eq data.1, canonicalItems_eq data.2]
      rfl

theorem canonicalMembers_eq {members : List (JsString × JsValue)} (data : MembersData members) :
    canonicalMembers members = some ((normalMembers members).map memberText) := by
  cases members with
  | nil => rfl
  | cons member rest =>
      obtain ⟨key, value⟩ := member
      obtain ⟨here, others⟩ := data
      rw [canonicalMembers, normalMembers, canonicalMembers_eq others]
      by_cases missing : value.isUndefined = true
      · rw [if_pos missing, if_pos missing]
      · obtain ⟨named, inside⟩ := here.resolve_left missing
        rw [if_neg missing, if_neg missing, if_pos named, canonicalJson_eq inside]
        rfl

end

/-! ## Reading it back -/

theorem writtenMembers_self {members : List (JsString × JsValue)}
    (defined : ∀ member ∈ members, member.2.isUndefined = false)
    (stable : ∀ member ∈ members, reread member.2 = member.2) : writtenMembers members = members := by
  induction members with
  | nil => rfl
  | cons member rest induction =>
      obtain ⟨key, value⟩ := member
      obtain ⟨here, others⟩ := List.forall_mem_cons.mp defined
      obtain ⟨same, later⟩ := List.forall_mem_cons.mp stable
      rw [writtenMembers, if_neg (by simp [here]), induction others later]
      exact congrArg (fun value => (key, value) :: rest) same

theorem sortMembers_distinct {members : List (JsString × JsValue)}
    (distinct : (members.map Prod.fst).Nodup) : ((sortMembers members).map Prod.fst).Nodup :=
  ((perm_sortMembers members).map Prod.fst).nodup_iff.mpr distinct

mutual

/-- The normal form is what its own text reads as. -/
theorem reread_normal {value : JsValue} (data : IsData value) :
    reread (normal value) = normal value := by
  cases value with
  | undefined => exact absurd data id
  | null => rfl
  | boolean value => rfl
  | number number =>
      cases number with
      | finite negative magnitude => simp [normal, reread, JsNumber.written]
      | _ => exact absurd data id
  | string text => rfl
  | array items => exact congrArg JsValue.array (rereadItems_normal data)
  | object members =>
      have distinct := sortMembers_distinct (data.1.sublist (normalMembers_keys members))
      have sorted := fun member => (perm_sortMembers (normalMembers members)).mem_iff (a := member)
      rw [normal, reread, rereadMembers_distinct distinct (by simp), List.nil_append]
      congr 1
      refine writtenMembers_self ?_ ?_
      · exact fun member inside => defined_normalMembers ((sorted member).mp inside)
      · exact fun member inside => reread_normalMembers data.2 member ((sorted member).mp inside)

theorem rereadItems_normal {items : List JsValue} (data : AreData items) :
    rereadItems (normalItems items) = normalItems items := by
  cases items with
  | nil => rfl
  | cons item rest =>
      rw [normalItems, rereadItems, reread_normal data.1, rereadItems_normal data.2]

theorem reread_normalMembers {members : List (JsString × JsValue)} (data : MembersData members) :
    ∀ member ∈ normalMembers members, reread member.2 = member.2 := by
  cases members with
  | nil => simp [normalMembers]
  | cons first rest =>
      obtain ⟨key, value⟩ := first
      obtain ⟨here, others⟩ := data
      have later := reread_normalMembers others
      rw [normalMembers]
      split
      · exact later
      · rename_i defined
        have same := reread_normal (here.resolve_left defined).2
        exact List.forall_mem_cons.mpr ⟨same, later⟩

end

theorem parse_canonicalJson {value : JsValue} {text : JsString} (data : IsData value)
    (written : canonicalJson value = some text) : parse text = some (normal value) := by
  rw [canonicalJson_eq data, Option.some.injEq] at written
  rw [← written, parse_stringify, reread_normal data]

/-! ## The normal form says the same -/

theorem lookup_of_not_mem {key : JsString} {members : List (JsString × JsValue)}
    (absent : key ∉ members.map Prod.fst) : JsValue.lookup key members = .undefined := by
  induction members with
  | nil => rfl
  | cons member rest induction =>
      obtain ⟨name, value⟩ := member
      have different : name ≠ key := fun same => absent (by simp [same])
      rw [JsValue.lookup, if_neg different]
      exact induction fun inside => absent (List.mem_cons_of_mem name inside)

theorem lookup_of_mem {key : JsString} {value : JsValue} {members : List (JsString × JsValue)}
    (distinct : (members.map Prod.fst).Nodup) (member : (key, value) ∈ members) :
    JsValue.lookup key members = value := by
  induction members with
  | nil => cases member
  | cons first rest induction =>
      obtain ⟨name, held⟩ := first
      obtain ⟨single, others⟩ := List.nodup_cons.mp distinct
      rcases List.mem_cons.mp member with same | inside
      · cases same
        rw [JsValue.lookup, if_pos rfl]
      · have different : name ≠ key := by
          intro same
          rw [same] at single
          exact single (List.mem_map.mpr ⟨(key, value), inside, rfl⟩)
        rw [JsValue.lookup, if_neg different, induction others inside]

theorem mem_of_lookup {key : JsString} {members : List (JsString × JsValue)}
    (defined : (JsValue.lookup key members).isUndefined = false) :
    (key, JsValue.lookup key members) ∈ members := by
  induction members with
  | nil => cases defined
  | cons member rest induction =>
      obtain ⟨name, value⟩ := member
      rw [JsValue.lookup] at defined ⊢
      split
      · rename_i same
        rw [same]
        exact List.mem_cons_self
      · rename_i different
        rw [if_neg different] at defined
        exact List.mem_cons_of_mem _ (induction defined)

theorem lookup_perm {left right : List (JsString × JsValue)}
    (distinct : (left.map Prod.fst).Nodup) (same : left.Perm right) (key : JsString) :
    JsValue.lookup key left = JsValue.lookup key right := by
  have distinctRight := (same.map Prod.fst).nodup_iff.mp distinct
  by_cases present : key ∈ left.map Prod.fst
  · obtain ⟨⟨name, value⟩, inside, rfl⟩ := List.mem_map.mp present
    rw [lookup_of_mem distinct inside, lookup_of_mem distinctRight (same.mem_iff.mp inside)]
  · have absent := ((same.map Prod.fst).mem_iff).not.mp present
    rw [lookup_of_not_mem present, lookup_of_not_mem absent]

theorem strictEquals_finite {negative negative' : Bool} {magnitude magnitude' : Magnitude} :
    (JsNumber.finite negative magnitude).strictEquals (.finite negative' magnitude') = true ↔
      magnitude = magnitude' ∧ (negative = negative' ∨ magnitude.units = 0) := by
  rw [JsNumber.strictEquals, Bool.and_eq_true, Bool.or_eq_true, decide_eq_true_eq,
    decide_eq_true_eq, decide_eq_true_eq]

theorem strictEquals_written (negative : Bool) (magnitude : Magnitude) :
    (JsNumber.written negative magnitude).strictEquals (.finite negative magnitude) = true := by
  rw [JsNumber.written, strictEquals_finite]
  by_cases zero : magnitude.units = 0
  · exact ⟨rfl, .inr zero⟩
  · refine ⟨rfl, .inl ?_⟩
    rw [decide_eq_true zero, Bool.and_true]

/-- A member under a key another member has does not count. -/
theorem lookup_normalMembers_cons {key name : JsString} {value : JsValue}
    {rest : List (JsString × JsValue)} (distinct : (((name, value) :: rest).map Prod.fst).Nodup) :
    JsValue.lookup key (normalMembers ((name, value) :: rest)) =
      if name = key then normal value else JsValue.lookup key (normalMembers rest) := by
  have single := (List.nodup_cons.mp distinct).1
  rw [normalMembers]
  by_cases missing : value.isUndefined = true
  · rw [if_pos missing]
    split
    · rename_i same
      have absent : key ∉ (normalMembers rest).map Prod.fst :=
        fun inside => single (same ▸ (normalMembers_keys rest).subset inside)
      rw [lookup_of_not_mem absent]
      cases value <;> cases missing
      rfl
    · rfl
  · rw [if_neg missing, JsValue.lookup]

mutual

theorem same_normal {value : JsValue} (data : IsData value) : Same (normal value) value := by
  cases value with
  | undefined => exact absurd data id
  | null => exact .null
  | boolean value => exact .boolean value
  | number number =>
      cases number with
      | finite negative magnitude => exact .number (strictEquals_written negative magnitude)
      | _ => exact absurd data id
  | string text => exact .string text
  | array items =>
      obtain ⟨length, each⟩ := same_normalItems data
      exact .array length each
  | object members =>
      obtain ⟨distinct, inside⟩ := data
      refine .object fun key => ?_
      rw [lookup_perm (sortMembers_distinct (distinct.sublist (normalMembers_keys members)))
        (perm_sortMembers _)]
      exact same_normalMembers distinct inside key

theorem same_normalItems {items : List JsValue} (data : AreData items) :
    (normalItems items).length = items.length ∧
      ∀ index, Same ((normalItems items).getD index .undefined) (items.getD index .undefined) := by
  cases items with
  | nil => exact ⟨rfl, fun _ => .undefined⟩
  | cons item rest =>
      obtain ⟨length, each⟩ := same_normalItems data.2
      refine ⟨congrArg Nat.succ length, fun index => ?_⟩
      cases index with
      | zero => exact same_normal data.1
      | succ index => exact each index

theorem same_normalMembers {members : List (JsString × JsValue)}
    (distinct : (members.map Prod.fst).Nodup) (data : MembersData members) (key : JsString) :
    Same (JsValue.lookup key (normalMembers members)) (JsValue.lookup key members) := by
  cases members with
  | nil => exact .undefined
  | cons member rest =>
      obtain ⟨name, value⟩ := member
      obtain ⟨here, others⟩ := data
      have later := same_normalMembers (List.nodup_cons.mp distinct).2 others key
      rw [lookup_normalMembers_cons distinct, JsValue.lookup]
      split
      · rcases here with missing | ⟨-, inside⟩
        · cases value <;> cases missing
          exact .undefined
        · exact same_normal inside
      · exact later

end

/-! ## Values that say the same -/

theorem strictEquals_symm {left right : JsNumber} (equal : left.strictEquals right = true) :
    right.strictEquals left = true := by
  cases left with
  | nan => cases equal
  | infinite negative =>
      cases right with
      | infinite negative' => exact decide_eq_true (of_decide_eq_true equal).symm
      | _ => cases equal
  | finite negative magnitude =>
      cases right with
      | finite negative' magnitude' =>
          obtain ⟨rfl, sign⟩ := strictEquals_finite.mp equal
          exact strictEquals_finite.mpr ⟨rfl, sign.imp_left Eq.symm⟩
      | _ => cases equal

theorem Same.symm {left right : JsValue} (same : Same left right) : Same right left := by
  induction same with
  | undefined => exact .undefined
  | null => exact .null
  | boolean value => exact .boolean value
  | number equal => exact .number (strictEquals_symm equal)
  | string text => exact .string text
  | array length _ induction => exact .array length.symm induction
  | object _ induction => exact .object induction

theorem strictEquals_trans {first second third : JsNumber}
    (left : first.strictEquals second = true) (right : second.strictEquals third = true) :
    first.strictEquals third = true := by
  cases first with
  | nan => cases left
  | infinite negative =>
      cases second with
      | infinite negative' =>
          obtain rfl : negative = negative' := of_decide_eq_true left
          exact right
      | _ => cases left
  | finite negative magnitude =>
      cases second with
      | finite negative' magnitude' =>
          cases third with
          | finite negative'' magnitude'' =>
              obtain ⟨rfl, sign⟩ := strictEquals_finite.mp left
              obtain ⟨rfl, sign'⟩ := strictEquals_finite.mp right
              refine strictEquals_finite.mpr ⟨rfl, ?_⟩
              rcases sign with same | zero
              · rwa [same]
              · exact .inr zero
          | _ => cases right
      | _ => cases left

theorem Same.trans {first second third : JsValue} (left : Same first second)
    (right : Same second third) : Same first third := by
  induction left generalizing third with
  | undefined => exact right
  | null => exact right
  | boolean value => exact right
  | string text => exact right
  | number equal =>
      cases right with
      | number next => exact .number (strictEquals_trans equal next)
  | array length _ induction =>
      cases right with
      | array next items => exact .array (length.trans next) fun index => induction index (items index)
  | object _ induction =>
      cases right with
      | object members => exact .object fun key => induction key (members key)

theorem AreData.getD {items : List JsValue} (data : AreData items) (index : Nat) :
    (items.getD index .undefined).isUndefined = true ∨ IsData (items.getD index .undefined) := by
  induction items generalizing index with
  | nil => exact .inl rfl
  | cons item rest induction =>
      cases index with
      | zero => exact .inr data.1
      | succ index => exact induction data.2 index

theorem MembersData.lookup {members : List (JsString × JsValue)} (data : MembersData members)
    (key : JsString) : (JsValue.lookup key members).isUndefined = true ∨
      IsData (JsValue.lookup key members) := by
  induction members with
  | nil => exact .inl rfl
  | cons member rest induction =>
      obtain ⟨name, value⟩ := member
      obtain ⟨here, others⟩ := data
      rw [JsValue.lookup]
      split
      · exact here.imp_right And.right
      · exact induction others

theorem getD_normalItems (items : List JsValue) (index : Nat) :
    (normalItems items).getD index .undefined = normal (items.getD index .undefined) := by
  induction items generalizing index with
  | nil => rfl
  | cons item rest induction =>
      cases index with
      | zero => rfl
      | succ index => exact induction index

theorem length_normalItems (items : List JsValue) : (normalItems items).length = items.length := by
  induction items with
  | nil => rfl
  | cons item rest induction => exact congrArg Nat.succ induction

theorem lookup_normalMembers {members : List (JsString × JsValue)}
    (distinct : (members.map Prod.fst).Nodup) (key : JsString) :
    JsValue.lookup key (normalMembers members) = normal (JsValue.lookup key members) := by
  induction members with
  | nil => rfl
  | cons member rest induction =>
      rw [lookup_normalMembers_cons distinct, JsValue.lookup,
        induction (List.nodup_cons.mp distinct).2]
      split <;> rfl

/-- Members without undefined ones are known by what is read under each key. -/
theorem perm_of_lookup {left right : List (JsString × JsValue)}
    (distinctLeft : (left.map Prod.fst).Nodup) (distinctRight : (right.map Prod.fst).Nodup)
    (definedLeft : ∀ member ∈ left, member.2.isUndefined = false)
    (definedRight : ∀ member ∈ right, member.2.isUndefined = false)
    (same : ∀ key, JsValue.lookup key left = JsValue.lookup key right) : left.Perm right := by
  refine (List.perm_ext_iff_of_nodup distinctLeft.of_map distinctRight.of_map).mpr ?_
  intro member
  obtain ⟨key, value⟩ := member
  constructor
  · intro inside
    have defined := definedLeft _ inside
    rw [← lookup_of_mem distinctLeft inside, same] at defined ⊢
    exact mem_of_lookup defined
  · intro inside
    have defined := definedRight _ inside
    rw [← lookup_of_mem distinctRight inside, ← same] at defined ⊢
    exact mem_of_lookup defined

theorem normal_of_same {left right : JsValue} (same : Same left right)
    (dataLeft : left.isUndefined = true ∨ IsData left)
    (dataRight : right.isUndefined = true ∨ IsData right) : normal left = normal right := by
  induction same with
  | undefined => rfl
  | null => rfl
  | boolean value => rfl
  | string text => rfl
  | @number left right equal =>
      cases left with
      | finite negative magnitude =>
          cases right with
          | finite negative' magnitude' =>
              obtain ⟨rfl, sign⟩ := strictEquals_finite.mp equal
              rcases sign with rfl | zero
              · rfl
              · simp [normal, JsNumber.written, zero]
          | _ => cases equal
      | _ => exact absurd (dataLeft.resolve_left (by simp [JsValue.isUndefined])) id
  | @array left right length _ induction =>
      have itemsLeft : AreData left := dataLeft.resolve_left (by simp [JsValue.isUndefined])
      have itemsRight : AreData right := dataRight.resolve_left (by simp [JsValue.isUndefined])
      have lengths : (normalItems left).length = (normalItems right).length := by
        rw [length_normalItems, length_normalItems, length]
      refine congrArg JsValue.array (List.ext_getElem lengths fun index inLeft inRight => ?_)
      have each := induction index (itemsLeft.getD index) (itemsRight.getD index)
      rw [← getD_normalItems, ← getD_normalItems] at each
      rwa [List.getD_eq_getElem _ _ inLeft, List.getD_eq_getElem _ _ inRight] at each
  | @object left right _ induction =>
      obtain ⟨distinctLeft, membersLeft⟩ : IsData (.object left) :=
        dataLeft.resolve_left (by simp [JsValue.isUndefined])
      obtain ⟨distinctRight, membersRight⟩ : IsData (.object right) :=
        dataRight.resolve_left (by simp [JsValue.isUndefined])
      have distinct := distinctLeft.sublist (normalMembers_keys left)
      have lookups : ∀ key, JsValue.lookup key (normalMembers left) =
          JsValue.lookup key (normalMembers right) := by
        intro key
        rw [lookup_normalMembers distinctLeft, lookup_normalMembers distinctRight]
        exact induction key (membersLeft.lookup key) (membersRight.lookup key)
      have perm := perm_of_lookup distinct (distinctRight.sublist (normalMembers_keys right))
        (fun _ inside => defined_normalMembers inside) (fun _ inside => defined_normalMembers inside)
        lookups
      exact congrArg JsValue.object (sortMembers_eq_of_perm distinct perm)

/-- One text for values that say the same, and only for them. -/
theorem canonicalJson_eq_iff {left right : JsValue} (dataLeft : IsData left)
    (dataRight : IsData right) : canonicalJson left = canonicalJson right ↔ Same left right := by
  constructor
  · intro equal
    have written := canonicalJson_eq dataLeft
    have read := parse_canonicalJson dataLeft written
    rw [equal] at written
    have readRight := parse_canonicalJson dataRight written
    rw [read, Option.some.injEq] at readRight
    have middle := same_normal dataLeft
    rw [readRight] at middle
    exact middle.symm.trans (same_normal dataRight)
  · intro same
    rw [canonicalJson_eq dataLeft, canonicalJson_eq dataRight,
      normal_of_same same (.inr dataLeft) (.inr dataRight)]

/-! ## What is left out -/

mutual

/-- No undefined member, and no negative zero. -/
def Settled : JsValue → Prop
  | .undefined => False
  | .null => True
  | .boolean _ => True
  | .number number => number ≠ .finite true .zero
  | .string _ => True
  | .array items => AreSettled items
  | .object members => MembersSettled members

def AreSettled : List JsValue → Prop
  | [] => True
  | item :: rest => Settled item ∧ AreSettled rest

def MembersSettled : List (JsString × JsValue) → Prop
  | [] => True
  | (_, value) :: rest => Settled value ∧ MembersSettled rest

end

theorem membersSettled_iff {members : List (JsString × JsValue)} :
    MembersSettled members ↔ ∀ member ∈ members, Settled member.2 := by
  induction members with
  | nil => simp [MembersSettled]
  | cons member rest induction =>
      obtain ⟨key, value⟩ := member
      rw [MembersSettled, List.forall_mem_cons, induction]

theorem written_settled (negative : Bool) (magnitude : Magnitude) :
    JsNumber.written negative magnitude ≠ .finite true .zero := by
  intro same
  obtain ⟨sign, zero⟩ := JsNumber.finite.inj same
  rw [zero] at sign
  cases negative <;> cases sign

mutual

theorem settled_normal {value : JsValue} (data : IsData value) : Settled (normal value) := by
  cases value with
  | undefined => exact data
  | null => trivial
  | boolean value => trivial
  | number number =>
      cases number with
      | finite negative magnitude => exact written_settled negative magnitude
      | _ => exact absurd data id
  | string text => trivial
  | array items => exact settled_normalItems data
  | object members =>
      refine membersSettled_iff.mpr fun member inside => ?_
      have settled := membersSettled_iff.mp (settled_normalMembers data.2)
      exact settled member ((perm_sortMembers _).mem_iff.mp inside)

theorem settled_normalItems {items : List JsValue} (data : AreData items) :
    AreSettled (normalItems items) := by
  cases items with
  | nil => trivial
  | cons item rest => exact ⟨settled_normal data.1, settled_normalItems data.2⟩

theorem settled_normalMembers {members : List (JsString × JsValue)} (data : MembersData members) :
    MembersSettled (normalMembers members) := by
  cases members with
  | nil => trivial
  | cons member rest =>
      obtain ⟨key, value⟩ := member
      obtain ⟨here, others⟩ := data
      rw [normalMembers]
      split
      · exact settled_normalMembers others
      · rename_i defined
        exact ⟨settled_normal (here.resolve_left defined).2, settled_normalMembers others⟩

end

/-! ## The text is well formed -/

theorem wellFormed_joinComma {texts : List JsString}
    (all : ∀ text ∈ texts, wellFormed text = true) : wellFormed (joinComma texts) = true := by
  induction texts with
  | nil => rfl
  | cons text rest induction =>
      obtain ⟨here, others⟩ := List.forall_mem_cons.mp all
      cases rest with
      | nil => exact here
      | cons next rest =>
          exact wellFormed_append (wellFormed_append here rfl) (induction others)

mutual

theorem wellFormed_text {value : JsValue} (data : IsData value) :
    wellFormed (stringify (normal value)) = true := by
  cases value with
  | undefined => exact absurd data id
  | null => rfl
  | boolean value => cases value <;> rfl
  | number number =>
      cases number with
      | finite negative magnitude => exact (ascii_numberText _ magnitude).wellFormed
      | _ => exact absurd data id
  | string text => exact wellFormed_quote data
  | array items =>
      have inside := wellFormed_joinComma (wellFormed_items data)
      exact wellFormed_append (wellFormed_append rfl inside) rfl
  | object members =>
      have defined : ∀ member ∈ sortMembers (normalMembers members), member.2.isUndefined = false :=
        fun member inside => defined_normalMembers ((perm_sortMembers _).mem_iff.mp inside)
      rw [normal, stringify, stringifyMembers_defined defined, List.map_map]
      refine wellFormed_append (wellFormed_append rfl (wellFormed_joinComma ?_)) rfl
      refine List.forall_mem_map.mpr fun member inside => ?_
      exact wellFormed_members data.2 member ((perm_sortMembers _).mem_iff.mp inside)

theorem wellFormed_items {items : List JsValue} (data : AreData items) :
    ∀ text ∈ stringifyItems (normalItems items), wellFormed text = true := by
  cases items with
  | nil => simp [normalItems, stringifyItems]
  | cons item rest =>
      exact List.forall_mem_cons.mpr ⟨wellFormed_text data.1, wellFormed_items data.2⟩

theorem wellFormed_members {members : List (JsString × JsValue)} (data : MembersData members) :
    ∀ member ∈ normalMembers members, wellFormed (memberText member).2 = true := by
  cases members with
  | nil => simp [normalMembers]
  | cons first rest =>
      obtain ⟨key, value⟩ := first
      obtain ⟨here, others⟩ := data
      rw [normalMembers]
      split
      · exact wellFormed_members others
      · rename_i defined
        obtain ⟨named, inside⟩ := here.resolve_left defined
        have text := wellFormed_append (wellFormed_append (wellFormed_quote named) (rfl : wellFormed [0x3A] = true))
          (wellFormed_text inside)
        exact List.forall_mem_cons.mpr ⟨text, wellFormed_members others⟩

end

end Tapes.Provenance
