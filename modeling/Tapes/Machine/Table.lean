import Mathlib.Logic.Function.Basic

namespace Tapes.Machine

/-! Tables of what is going on, by name: a call in flight, an open file, a session. -/

variable {κ : Type u} {ν : Type v}

abbrev Table (κ : Type u) (ν : Type v) := κ → Option ν

namespace Table

def empty : Table κ ν := fun _ => none

/-- Every value in the table has the property. -/
def All (table : Table κ ν) (holds : κ → ν → Prop) : Prop :=
  ∀ key value, table key = some value → holds key value

variable {table : Table κ ν} {holds weaker : κ → ν → Prop}

theorem all_empty : (empty : Table κ ν).All holds := by
  intro key value found
  cases found

theorem All.weaken (all : table.All holds)
    (weakens : ∀ key value, table key = some value → holds key value → weaker key value) :
    table.All weaker :=
  fun key value found => weakens key value found (all key value found)

section

variable [DecidableEq κ]

def put (table : Table κ ν) (key : κ) (value : ν) : Table κ ν :=
  Function.update table key (some value)

def remove (table : Table κ ν) (key : κ) : Table κ ν := Function.update table key none

def modify (table : Table κ ν) (key : κ) (change : ν → ν) : Table κ ν :=
  Function.update table key ((table key).map change)

variable {key other : κ} {value : ν}

@[simp] theorem put_self : table.put key value key = some value := Function.update_self ..

theorem put_other (different : other ≠ key) : table.put key value other = table other :=
  Function.update_of_ne different ..

theorem put_cases {found : ν} (there : table.put key value other = some found) :
    other = key ∧ value = found ∨ other ≠ key ∧ table other = some found := by
  by_cases same : other = key
  · subst same
    rw [put_self, Option.some.injEq] at there
    exact .inl ⟨rfl, there⟩
  · rw [put_other same] at there
    exact .inr ⟨same, there⟩

@[simp] theorem remove_self : table.remove key key = none := Function.update_self ..

theorem remove_other (different : other ≠ key) : table.remove key other = table other :=
  Function.update_of_ne different ..

theorem modify_eq_put (there : table key = some value) (change : ν → ν) :
    table.modify key change = table.put key (change value) := by
  rw [modify, put, there, Option.map_some]

theorem All.put (all : table.All holds) (new : holds key value) :
    (table.put key value).All holds := by
  intro other held found
  by_cases same : other = key
  · subst other
    rw [put_self, Option.some.injEq] at found
    rwa [← found]
  · rw [put_other same] at found
    exact all other held found

theorem All.remove (all : table.All holds) : (table.remove key).All holds := by
  intro other held found
  by_cases same : other = key
  · subst other
    rw [remove_self] at found
    cases found
  · rw [remove_other same] at found
    exact all other held found

theorem All.modify {change : ν → ν} (all : table.All holds)
    (changed : ∀ value, table key = some value → holds key (change value)) :
    (table.modify key change).All holds := by
  intro other held found
  by_cases same : other = key
  · subst other
    rw [Table.modify, Function.update_self, Option.map_eq_some_iff] at found
    obtain ⟨value, held, rfl⟩ := found
    exact changed value held
  · rw [Table.modify, Function.update_of_ne same] at found
    exact all other held found

end

end Table

end Tapes.Machine
