import Tapes.Provenance.Canonical

namespace Tapes.Provenance

open Tapes.Js

/-! Data that is written and read back says the same. -/

/-- A member as it is read back: an undefined one is not written. -/
def rereadField (value : JsValue) : JsValue :=
  if value.isUndefined then .undefined else reread value

theorem rereadField_defined {value : JsValue} (defined : value.isUndefined = false) :
    rereadField value = reread value := by
  simp [rereadField, defined]

@[simp] theorem rereadField_undefined : rereadField .undefined = .undefined := rfl

@[simp] theorem rereadField_string (text : JsString) :
    rereadField (.string text) = .string text := rfl

theorem rereadField_object (members : List (JsString × JsValue)) :
    rereadField (.object members) = reread (.object members) := rfl

theorem rereadField_array (items : List JsValue) :
    rereadField (.array items) = .array (rereadItems items) := rfl

theorem writtenMembers_keys (members : List (JsString × JsValue)) :
    ((writtenMembers members).map Prod.fst).Sublist (members.map Prod.fst) := by
  induction members with
  | nil => exact .refl _
  | cons member rest induction =>
      obtain ⟨key, value⟩ := member
      rw [writtenMembers]
      split
      · exact induction.cons key
      · exact induction.cons_cons key

theorem lookup_writtenMembers (key : JsString) {members : List (JsString × JsValue)}
    (distinct : (members.map Prod.fst).Nodup) :
    JsValue.lookup key (writtenMembers members) = rereadField (JsValue.lookup key members) := by
  induction members with
  | nil => rfl
  | cons member rest induction =>
      obtain ⟨name, value⟩ := member
      obtain ⟨single, others⟩ := List.nodup_cons.mp distinct
      rw [writtenMembers, JsValue.lookup]
      by_cases missing : value.isUndefined = true
      · rw [if_pos missing]
        split
        · rename_i same
          rw [lookup_absent (same ▸ single), rereadField, if_pos missing]
        · exact induction others
      · rw [if_neg missing, JsValue.lookup]
        split
        · rw [rereadField, if_neg missing]
        · exact induction others

theorem reread_object {members : List (JsString × JsValue)}
    (distinct : (members.map Prod.fst).Nodup) :
    reread (.object members) = .object (writtenMembers members) := by
  rw [reread, rereadMembers_distinct distinct (by simp), List.nil_append]

theorem get_reread_object (key : JsString) {members : List (JsString × JsValue)}
    (distinct : (members.map Prod.fst).Nodup) :
    (reread (.object members)).get key = rereadField (JsValue.lookup key members) := by
  rw [reread_object distinct]
  exact lookup_writtenMembers key distinct

mutual

theorem isData_reread {value : JsValue} (data : IsData value) : IsData (reread value) := by
  cases value with
  | undefined => exact absurd data id
  | null => trivial
  | boolean value => trivial
  | number number =>
      cases number with
      | finite negative magnitude => trivial
      | _ => exact absurd data id
  | string text => exact data
  | array items => exact areData_rereadItems data
  | object members =>
      obtain ⟨distinct, inside⟩ := data
      rw [reread_object distinct]
      exact ⟨distinct.sublist (writtenMembers_keys members), membersData_writtenMembers inside⟩

theorem areData_rereadItems {items : List JsValue} (data : AreData items) :
    AreData (rereadItems items) := by
  cases items with
  | nil => trivial
  | cons item rest => exact ⟨isData_reread data.1, areData_rereadItems data.2⟩

theorem membersData_writtenMembers {members : List (JsString × JsValue)}
    (data : MembersData members) : MembersData (writtenMembers members) := by
  cases members with
  | nil => trivial
  | cons member rest =>
      obtain ⟨key, value⟩ := member
      obtain ⟨here, others⟩ := data
      rw [writtenMembers]
      split
      · exact membersData_writtenMembers others
      · rename_i defined
        obtain ⟨named, inside⟩ := here.resolve_left defined
        exact ⟨.inr ⟨named, isData_reread inside⟩, membersData_writtenMembers others⟩

end

mutual

theorem same_reread {value : JsValue} (data : IsData value) : Same (reread value) value := by
  cases value with
  | undefined => exact absurd data id
  | null => exact .null
  | boolean value => exact .boolean value
  | number number =>
      cases number with
      | finite negative magnitude => exact .number (strictEquals_written negative magnitude)
      | _ => exact absurd data id
  | string text => exact .string text
  | array items =>
      obtain ⟨length, each⟩ := same_rereadItems data
      exact .array length each
  | object members =>
      obtain ⟨distinct, inside⟩ := data
      rw [reread_object distinct]
      refine .object fun key => ?_
      rw [lookup_writtenMembers key distinct]
      exact same_rereadField inside key

theorem same_rereadItems {items : List JsValue} (data : AreData items) :
    (rereadItems items).length = items.length ∧
      ∀ index, Same ((rereadItems items).getD index .undefined) (items.getD index .undefined) := by
  cases items with
  | nil => exact ⟨rfl, fun _ => .undefined⟩
  | cons item rest =>
      obtain ⟨length, each⟩ := same_rereadItems data.2
      refine ⟨congrArg Nat.succ length, fun index => ?_⟩
      cases index with
      | zero => exact same_reread data.1
      | succ index => exact each index

theorem same_rereadField {members : List (JsString × JsValue)} (data : MembersData members)
    (key : JsString) :
    Same (rereadField (JsValue.lookup key members)) (JsValue.lookup key members) := by
  cases members with
  | nil => exact .undefined
  | cons member rest =>
      obtain ⟨name, value⟩ := member
      obtain ⟨here, others⟩ := data
      rw [JsValue.lookup]
      split
      · by_cases missing : value.isUndefined = true
        · cases value <;> cases missing
          exact .undefined
        · rw [rereadField, if_neg missing]
          exact same_reread (here.resolve_left missing).2
      · exact same_rereadField others key

end

end Tapes.Provenance
