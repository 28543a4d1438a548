import Mathlib.Logic.Relation

namespace Tapes.Machine

/-! A machine is a step function: in a state an action is either not enabled, or has
one outcome. Whatever a machine cannot decide itself is part of the action. -/

variable {σ α : Type*} {step : σ → α → Option σ} {guard narrower : σ → α → Prop}
  {start state middle final : σ}

def run (step : σ → α → Option σ) : σ → List α → Option σ
  | state, [] => some state
  | state, action :: rest =>
      match step state action with
      | some next => run step next rest
      | none => none

/-- Every step of the run is taken in a state that meets the guard for its action. -/
def MeetsAlong (step : σ → α → Option σ) (guard : σ → α → Prop) : σ → List α → Prop
  | _, [] => True
  | state, action :: rest =>
      guard state action ∧ ∀ next, step state action = some next →
        MeetsAlong step guard next rest

/-- Every state of the run is such, the first and the last included. -/
def HoldsAlong (step : σ → α → Option σ) (holds : σ → Prop) : σ → List α → Prop
  | state, [] => holds state
  | state, action :: rest =>
      holds state ∧ ∀ next, step state action = some next → HoldsAlong step holds next rest

def anyAction (_ : σ) (_ : α) : Prop := True

/-- The states reached from `start` by steps that all meet the guard. -/
inductive Reaches (step : σ → α → Option σ) (guard : σ → α → Prop) (start : σ) : σ → Prop
  | refl : Reaches step guard start start
  | tail {state next : σ} {action : α} (before : Reaches step guard start state)
      (met : guard state action) (taken : step state action = some next) :
      Reaches step guard start next

/-- The induction every safety proof of this development goes through. -/
theorem Reaches.invariant (reached : Reaches step guard start state) (holds : σ → Prop)
    (initially : holds start)
    (preserved : ∀ {state next action}, Reaches step guard start state → holds state →
      guard state action → step state action = some next → holds next) :
    holds state := by
  induction reached with
  | refl => exact initially
  | tail before met taken induction => exact preserved before induction met taken

theorem Reaches.trans (first : Reaches step guard start middle)
    (second : Reaches step guard middle final) : Reaches step guard start final := by
  induction second with
  | refl => exact first
  | tail _ met taken induction => exact induction.tail met taken

theorem Reaches.weaken (reached : Reaches step narrower start state)
    (weaker : ∀ state action, narrower state action → guard state action) :
    Reaches step guard start state := by
  induction reached with
  | refl => exact .refl
  | tail _ met taken induction => exact induction.tail (weaker _ _ met) taken

theorem Reaches.of_run {actions : List α} (ran : run step start actions = some final)
    (met : MeetsAlong step guard start actions) : Reaches step guard start final := by
  induction actions generalizing start with
  | nil =>
      cases ran
      exact .refl
  | cons action rest induction =>
      simp only [run] at ran
      cases taken : step start action with
      | none => simp [taken] at ran
      | some next =>
          simp only [taken] at ran
          have first : Reaches step guard start next := Reaches.refl.tail met.1 taken
          exact first.trans (induction ran (met.2 next taken))

/-- The machine in which an action that fails the guard is not enabled. -/
def guarded (guard : σ → α → Prop) [∀ state action, Decidable (guard state action)]
    (step : σ → α → Option σ) (state : σ) (action : α) : Option σ :=
  if guard state action then step state action else none

theorem Reaches.of_guarded_run [∀ state action, Decidable (guard state action)]
    {actions : List α} (ran : run (guarded guard step) start actions = some final) :
    Reaches step guard start final := by
  induction actions generalizing start with
  | nil =>
      cases ran
      exact .refl
  | cons action rest induction =>
      simp only [run] at ran
      split at ran
      · rename_i next taken
        obtain ⟨met, taken⟩ := Option.ite_none_right_eq_some.mp taken
        exact (Reaches.refl.tail met taken).trans (induction ran)
      · cases ran

/-- A run whose steps pass a check that gives the guard, in the states so reached. -/
theorem Reaches.of_checked_run {check : σ → α → Bool} {actions : List α}
    (ran : run (guarded (check · ·) step) start actions = some final)
    (checks : ∀ state action, Reaches step (check · ·) start state →
      Reaches step guard start state → check state action = true → guard state action) :
    Reaches step guard start final := by
  have reached : Reaches step (check · ·) start final := .of_guarded_run ran
  clear ran
  induction reached with
  | refl => exact .refl
  | tail checked met taken before => exact before.tail (checks _ _ checked before met) taken

theorem MeetsAlong.cons {action : α} {rest : List α} (met : guard state action)
    (taken : step state action = some middle) (later : MeetsAlong step guard middle rest) :
    MeetsAlong step guard state (action :: rest) := by
  refine ⟨met, fun next also => ?_⟩
  rw [taken, Option.some.injEq] at also
  exact also ▸ later

/-- A guard that asks nothing of the state. -/
theorem meetsAlong_of_forall {actions : List α}
    (all : ∀ action ∈ actions, ∀ state, guard state action) (state : σ) :
    MeetsAlong step guard state actions := by
  induction actions generalizing state with
  | nil => trivial
  | cons action rest induction =>
      have later := induction fun other member => all other (List.mem_cons_of_mem action member)
      exact ⟨all action List.mem_cons_self state, fun next _ => later next⟩

theorem meetsAlong_anyAction (actions : List α) (state : σ) :
    MeetsAlong step anyAction state actions := by
  induction actions generalizing state with
  | nil => trivial
  | cons action rest induction => exact ⟨trivial, fun next _ => induction next⟩

/-- Where the guard of a step says exactly whether the state behind it is such, the guards say it of
a whole run. -/
theorem holdsAlong_iff {kept holds : σ → Prop} {actions : List α}
    (keeps : ∀ {state next action}, kept state → step state action = some next → kept next)
    (agrees : ∀ {state next action}, kept state → holds state → step state action = some next →
      (holds next ↔ guard state action))
    (sound : kept start) (initially : holds start) (ran : run step start actions = some final) :
    HoldsAlong step holds start actions ↔ MeetsAlong step guard start actions := by
  induction actions generalizing start with
  | nil => exact ⟨fun _ => trivial, fun _ => initially⟩
  | cons action rest induction =>
      simp only [run] at ran
      cases taken : step start action with
      | none => simp [taken] at ran
      | some next =>
          simp only [taken] at ran
          have same := agrees sound initially taken
          have only (other : σ) (also : step start action = some other) : other = next := by
            rw [taken, Option.some.injEq] at also
            exact also.symm
          constructor
          · intro along
            have later := along.2 next taken
            have holdsNext : holds next := by
              cases rest with
              | nil => exact later
              | cons => exact later.1
            refine ⟨same.mp holdsNext, fun other also => ?_⟩
            rw [only other also]
            exact (induction (keeps sound taken) holdsNext ran).mp later
          · intro meets
            refine ⟨initially, fun other also => ?_⟩
            rw [only other also]
            exact (induction (keeps sound taken) (same.mpr meets.1) ran).mpr (meets.2 next taken)

end Tapes.Machine
