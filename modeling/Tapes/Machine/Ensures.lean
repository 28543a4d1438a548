import Mathlib.Logic.Basic

namespace Tapes.Machine

/-! Programs that change a state and may throw, and what they ensure. What a program has done to the
state before it throws stays done. -/

variable {σ ε α β : Type}

/-- One postcondition for a value that is returned, one for an error that is thrown. -/
def Meets (returned : α → σ → Prop) (thrown : ε → σ → Prop) : EStateM.Result ε σ α → Prop
  | .ok value after => returned value after
  | .error error after => thrown error after

def Ensures (before : σ → Prop) (program : EStateM ε σ α) (returned : α → σ → Prop)
    (thrown : ε → σ → Prop) : Prop :=
  ∀ state, before state → Meets returned thrown (program.run state)

/-- The postcondition of what does not happen. -/
def never (_ : α) (_ : σ) : Prop := False

variable {before : σ → Prop} {returned weaker : α → σ → Prop} {thrown laxer : ε → σ → Prop}
  {program : EStateM ε σ α}

theorem Meets.weaken {result : EStateM.Result ε σ α} (meets : Meets returned thrown result)
    (values : ∀ value after, returned value after → weaker value after)
    (errors : ∀ error after, thrown error after → laxer error after) : Meets weaker laxer result := by
  cases result with
  | ok value after => exact values value after meets
  | error error after => exact errors error after meets

theorem Ensures.weaken (ensures : Ensures before program returned thrown)
    (values : ∀ value after, returned value after → weaker value after)
    (errors : ∀ error after, thrown error after → laxer error after) :
    Ensures before program weaker laxer :=
  fun state holds => (ensures state holds).weaken values errors

theorem Ensures.pure {value : α} (holds : ∀ state, before state → returned value state) :
    Ensures before (pure value : EStateM ε σ α) returned thrown := holds

theorem Ensures.throw {error : ε} (holds : ∀ state, before state → thrown error state) :
    Ensures before (throw error : EStateM ε σ α) returned thrown := holds

theorem Ensures.modify {change : σ → σ} {returned : Unit → σ → Prop}
    (holds : ∀ state, before state → returned () (change state)) :
    Ensures before (modify change : EStateM ε σ Unit) returned thrown := holds

theorem Ensures.get {returned : σ → σ → Prop} (holds : ∀ state, before state → returned state state) :
    Ensures before (get : EStateM ε σ σ) returned thrown := holds

theorem Ensures.bind {next : α → EStateM ε σ β} {final : β → σ → Prop}
    (first : Ensures before program returned thrown)
    (rest : ∀ value, Ensures (returned value) (next value) final thrown) :
    Ensures before (program >>= next) final thrown := by
  intro state holds
  have middle := first state holds
  rw [EStateM.run_bind]
  cases ran : program.run state with
  | ok value after =>
      rw [ran] at middle
      exact rest value after middle
  | error error after =>
      rw [ran] at middle
      exact middle

theorem run_tryCatch (program : EStateM ε σ α) (handler : ε → EStateM ε σ α) (state : σ) :
    (tryCatch program handler).run state = match program.run state with
      | .ok value after => .ok value after
      | .error error after => (handler error).run after := by
  change EStateM.tryCatch program handler state = _
  unfold EStateM.tryCatch EStateM.run
  cases program state with
  | ok => rfl
  | error => rfl

theorem Ensures.tryCatch {handler : ε → EStateM ε σ α} {caught : ε → σ → Prop}
    (first : Ensures before program returned caught)
    (rest : ∀ error, Ensures (caught error) (handler error) returned thrown) :
    Ensures before (tryCatch program handler) returned thrown := by
  intro state holds
  have middle := first state holds
  rw [run_tryCatch]
  cases ran : program.run state with
  | ok value after =>
      rw [ran] at middle
      exact middle
  | error error after =>
      rw [ran] at middle
      exact rest error after middle

end Tapes.Machine
