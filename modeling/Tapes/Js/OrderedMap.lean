import Mathlib.Data.List.Nodup

namespace Tapes.Js

/-! Insertion-ordered maps, as `Map` and a plain object's own members behave.

Setting a key that is there keeps its place and replaces its value; a new key
goes to the end.  Iteration follows that order.
-/

variable {κ : Type u} {ν : Type v} [DecidableEq κ]

def setEntry (entries : List (κ × ν)) (key : κ) (value : ν) : List (κ × ν) :=
  if entries.any (·.1 = key) then
    entries.map fun entry => if entry.1 = key then (key, value) else entry
  else entries ++ [(key, value)]

theorem any_key_iff {entries : List (κ × ν)} {key : κ} :
    entries.any (·.1 = key) = true ↔ key ∈ entries.map Prod.fst := by
  simp

theorem setEntry_keys (entries : List (κ × ν)) (key : κ) (value : ν) :
    (setEntry entries key value).map Prod.fst =
      if key ∈ entries.map Prod.fst then entries.map Prod.fst
      else entries.map Prod.fst ++ [key] := by
  unfold setEntry
  simp only [any_key_iff]
  split
  · rw [List.map_map]
    apply List.map_congr_left
    intro entry _
    simp only [Function.comp]
    split
    · next same => exact same.symm
    · rfl
  · simp

theorem setEntry_nodup {entries : List (κ × ν)} (key : κ) (value : ν)
    (distinct : (entries.map Prod.fst).Nodup) :
    ((setEntry entries key value).map Prod.fst).Nodup := by
  rw [setEntry_keys]
  split
  · exact distinct
  · next absent =>
      rw [List.nodup_append]
      refine ⟨distinct, by simp, ?_⟩
      intro left member right same
      rw [List.mem_singleton] at same
      subst same
      rintro rfl
      exact absent member

theorem mem_setEntry {entries : List (κ × ν)} {key : κ} {value : ν} {entry : κ × ν} :
    entry ∈ setEntry entries key value ↔
      entry = (key, value) ∨ (entry.1 ≠ key ∧ entry ∈ entries) := by
  unfold setEntry
  simp only [any_key_iff]
  split
  · next present =>
      rw [List.mem_map]
      constructor
      · rintro ⟨old, member, rfl⟩
        split
        · exact .inl rfl
        · next other => exact .inr ⟨other, member⟩
      · rintro (rfl | ⟨other, member⟩)
        · obtain ⟨old, member, same⟩ := List.mem_map.mp present
          exact ⟨old, member, by simp [same]⟩
        · exact ⟨entry, member, by simp [other]⟩
  · next absent =>
      rw [List.mem_append, List.mem_singleton]
      constructor
      · rintro (member | rfl)
        · refine .inr ⟨?_, member⟩
          rintro rfl
          exact absent (List.mem_map_of_mem member)
        · exact .inl rfl
      · rintro (rfl | ⟨_, member⟩)
        · exact .inr rfl
        · exact .inl member

structure OrderedMap (κ : Type u) (ν : Type v) where
  entries : List (κ × ν)
  distinct : (entries.map Prod.fst).Nodup

namespace OrderedMap

def empty : OrderedMap κ ν := ⟨[], List.nodup_nil⟩

def get? (map : OrderedMap κ ν) (key : κ) : Option ν :=
  (map.entries.find? (·.1 = key)).map Prod.snd

def has (map : OrderedMap κ ν) (key : κ) : Bool := map.entries.any (·.1 = key)

def set (map : OrderedMap κ ν) (key : κ) (value : ν) : OrderedMap κ ν :=
  ⟨setEntry map.entries key value, setEntry_nodup key value map.distinct⟩

/-- `delete record[key]`. -/
def delete (map : OrderedMap κ ν) (key : κ) : OrderedMap κ ν :=
  ⟨map.entries.filter (·.1 ≠ key), map.distinct.sublist (List.filter_sublist.map Prod.fst)⟩

def mapValues (map : OrderedMap κ ν) (change : ν → ν) : OrderedMap κ ν :=
  ⟨map.entries.map fun entry => (entry.1, change entry.2), by
    simpa only [List.map_map, Function.comp_def] using map.distinct⟩

def keys (map : OrderedMap κ ν) : List κ := map.entries.map Prod.fst

def values (map : OrderedMap κ ν) : List ν := map.entries.map Prod.snd

/-- `new Map(entries)`: later entries for one key win. -/
def ofList (entries : List (κ × ν)) : OrderedMap κ ν :=
  entries.foldl (fun map entry => map.set entry.1 entry.2) empty

variable {map : OrderedMap κ ν} {key other : κ} {value : ν}

theorem get?_eq_some_iff : map.get? key = some value ↔ (key, value) ∈ map.entries := by
  obtain ⟨entries, distinct⟩ := map
  simp only [get?]
  induction entries with
  | nil => simp
  | cons entry rest ih =>
      obtain ⟨name, held⟩ := entry
      simp only [List.map_cons, List.nodup_cons] at distinct
      by_cases same : name = key
      · subst same
        have absent : (name, value) ∉ rest := fun member =>
          distinct.1 (List.mem_map_of_mem (f := Prod.fst) member)
        simp [absent, eq_comm]
      · simpa [same, Ne.symm same] using ih distinct.2

theorem has_iff : map.has key = true ↔ ∃ value, map.get? key = some value := by
  simp only [has, any_key_iff, get?_eq_some_iff, List.mem_map, Prod.exists, exists_and_right,
    exists_eq_right]

theorem has_iff_mem_keys : map.has key = true ↔ key ∈ map.keys := any_key_iff

theorem mem_entries_set {entry : κ × ν} :
    entry ∈ (map.set key value).entries ↔
      entry = (key, value) ∨ (entry.1 ≠ key ∧ entry ∈ map.entries) :=
  mem_setEntry

theorem mem_entries_delete {entry : κ × ν} :
    entry ∈ (map.delete key).entries ↔ entry.1 ≠ key ∧ entry ∈ map.entries := by
  simp [delete, and_comm]

@[simp] theorem get?_set_self : (map.set key value).get? key = some value :=
  get?_eq_some_iff.mpr (mem_entries_set.mpr (.inl rfl))

theorem get?_set_other (different : other ≠ key) :
    (map.set key value).get? other = map.get? other := by
  apply Option.ext
  intro held
  rw [get?_eq_some_iff, get?_eq_some_iff, mem_entries_set]
  simp [different]

theorem get?_eq_none_iff : map.get? key = none ↔ map.has key = false := by
  rw [← Option.not_isSome_iff_eq_none, Option.isSome_iff_exists, ← has_iff, Bool.not_eq_true]

@[simp] theorem get?_delete_self : (map.delete key).get? key = none := by
  cases found : (map.delete key).get? key with
  | none => rfl
  | some held => exact absurd rfl (mem_entries_delete.mp (get?_eq_some_iff.mp found)).1

theorem get?_delete_other (different : other ≠ key) :
    (map.delete key).get? other = map.get? other := by
  apply Option.ext
  intro held
  rw [get?_eq_some_iff, get?_eq_some_iff, mem_entries_delete]
  simp [different]

@[simp] theorem get?_empty : (empty : OrderedMap κ ν).get? key = none := rfl

omit [DecidableEq κ] in
@[simp] theorem entries_empty : (empty : OrderedMap κ ν).entries = [] := rfl

theorem mem_keys : key ∈ map.keys ↔ ∃ value, map.get? key = some value := by
  rw [← has_iff_mem_keys, has_iff]

theorem keys_set : (map.set key value).keys =
    if key ∈ map.keys then map.keys else map.keys ++ [key] :=
  setEntry_keys _ _ _

private theorem mem_foldl_set {entry : κ × ν} (entries : List (κ × ν)) (map : OrderedMap κ ν)
    (member : entry ∈ (entries.foldl (fun map entry => map.set entry.1 entry.2) map).entries) :
    entry ∈ map.entries ∨ entry ∈ entries := by
  induction entries generalizing map with
  | nil => exact .inl member
  | cons head rest ih =>
      rcases ih _ member with held | listed
      · rcases mem_entries_set.mp held with rfl | ⟨_, older⟩
        · exact .inr (by simp)
        · exact .inl older
      · exact .inr (by simp [listed])

theorem mem_of_mem_ofList {entry : κ × ν} {entries : List (κ × ν)}
    (member : entry ∈ (ofList entries).entries) : entry ∈ entries := by
  simpa using mem_foldl_set entries empty member

private theorem mem_keys_foldl_set (key : κ) (entries : List (κ × ν)) (map : OrderedMap κ ν) :
    key ∈ (entries.foldl (fun map entry => map.set entry.1 entry.2) map).keys ↔
      key ∈ map.keys ∨ key ∈ entries.map Prod.fst := by
  induction entries generalizing map with
  | nil => simp
  | cons head rest ih =>
      rw [List.foldl_cons, ih, keys_set]
      split
      · next present =>
          constructor
          · rintro (held | listed)
            · exact .inl held
            · exact .inr (List.mem_cons_of_mem _ listed)
          · rintro (held | listed)
            · exact .inl held
            · rcases List.mem_cons.mp listed with rfl | listed
              · exact .inl present
              · exact .inr listed
      · simp [or_assoc]

/-- Entries with different keys are listed as they are. -/
theorem entries_foldl_set {entries : List (κ × ν)} {map : OrderedMap κ ν}
    (distinct : ((map.entries ++ entries).map Prod.fst).Nodup) :
    (entries.foldl (fun map entry => map.set entry.1 entry.2) map).entries = map.entries ++ entries := by
  induction entries generalizing map with
  | nil => rw [List.append_nil, List.foldl_nil]
  | cons head rest induction =>
      have absent : map.entries.any (·.1 = head.1) = false := by
        rw [← Bool.not_eq_true, any_key_iff]
        rw [List.map_append, List.map_cons] at distinct
        exact fun held => (List.nodup_append.mp distinct).2.2 _ held _ List.mem_cons_self rfl
      have added : (map.set head.1 head.2).entries = map.entries ++ [head] := by
        simp [set, setEntry, absent]
      have later := @induction (map.set head.1 head.2) (by
        rw [added, List.append_assoc]
        exact distinct)
      rw [List.foldl_cons, later, added, List.append_assoc]
      rfl

theorem get?_ofList {entries : List (κ × ν)} (distinct : (entries.map Prod.fst).Nodup) :
    (ofList entries).get? key = some value ↔ (key, value) ∈ entries := by
  have whole : (ofList entries).entries = entries := @entries_foldl_set _ _ _ entries empty distinct
  rw [get?_eq_some_iff, whole]

end OrderedMap

/-! ## Sets

An insertion-ordered set is the list of its items. -/

/-- `Set.prototype.add`. -/
def addTo (items : List κ) (item : κ) : List κ :=
  if item ∈ items then items else items ++ [item]

theorem mem_addTo {items : List κ} {item other : κ} :
    other ∈ addTo items item ↔ other = item ∨ other ∈ items := by
  unfold addTo
  split
  · rename_i present
    constructor
    · exact .inr
    · intro member
      rcases member with rfl | member
      · exact present
      · exact member
  · rw [List.mem_append, List.mem_singleton, or_comm]

theorem nodup_addTo {items : List κ} (distinct : items.Nodup) (item : κ) : (addTo items item).Nodup := by
  unfold addTo
  split
  · exact distinct
  · rename_i absent
    exact List.nodup_append.mpr ⟨distinct, List.nodup_singleton _, fun other member _ single =>
      fun same => absent (List.mem_singleton.mp single ▸ same ▸ member)⟩

theorem nodup_foldl_addTo {items : List κ} (distinct : items.Nodup) (added : List κ) :
    (added.foldl addTo items).Nodup := by
  induction added generalizing items with
  | nil => exact distinct
  | cons first rest induction => exact induction (nodup_addTo distinct first)

theorem mem_foldl_addTo {items added : List κ} {item : κ} :
    item ∈ added.foldl addTo items ↔ item ∈ items ∨ item ∈ added := by
  induction added generalizing items with
  | nil => simp
  | cons first rest induction =>
      rw [List.foldl_cons, induction, mem_addTo, List.mem_cons]
      constructor
      · intro member
        rcases member with (same | held) | later
        · exact .inr (.inl same)
        · exact .inl held
        · exact .inr (.inr later)
      · intro member
        rcases member with held | same | later
        · exact .inl (.inr held)
        · exact .inl (.inl same)
        · exact .inr later

end Tapes.Js
