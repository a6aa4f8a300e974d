import Hyf.Common.LoggedSteps
import Mathlib.Order.Defs.Unbundled

/-!
# Calls that move the state along a relation

A reflexive and transitive relation on states says what a family of calls may do: what they leave
alone, and in which direction they change the rest. `Moves` says it of one call, whether it succeeds
or fails, and its rules follow the program.
-/

variable {ε σ α β : Type}

/-- From every state the call ends in a related state, whether it succeeds or fails. -/
structure Moves (R : σ → σ → Prop) (call : EStateM ε σ α) : Prop where
  state_related : ∀ state, R state (call state).state

namespace Moves

variable {R : σ → σ → Prop}

theorem of_modify {f : σ → σ} (h : ∀ state, R state (f state)) :
    Moves R (modify f : EStateM ε σ PUnit) := ⟨h⟩

theorem ite {condition : Prop} [Decidable condition] {call call' : EStateM ε σ α} (h : Moves R call)
    (h' : Moves R call') : Moves R (if condition then call else call') := by
  split_ifs
  · exact h
  · exact h'

/-- A program that is observed ends in the same state. -/
theorem observed {call : EStateM ε σ α} (h : Moves R call) :
    Moves R (observing call : EStateM ε σ (Except ε α)) := by
  constructor
  intro state
  have hrun := EStateM.run_observing call state
  rw [EStateM.run] at hrun
  rw [hrun]
  exact h.state_related state

variable [IsPreorder σ R]

theorem pure (a : α) : Moves R (Pure.pure a : EStateM ε σ α) := ⟨fun state => refl_of R state⟩

theorem throw (error : ε) : Moves R (MonadExcept.throw error : EStateM ε σ α) :=
  ⟨fun state => refl_of R state⟩

theorem get : Moves R (MonadState.get : EStateM ε σ σ) := ⟨fun state => refl_of R state⟩

theorem bind {call : EStateM ε σ α} {next : α → EStateM ε σ β} (h : Moves R call)
    (hnext : ∀ a, Moves R (next a)) : Moves R (call >>= next) := by
  constructor
  intro state
  have hcall := h.state_related state
  show R state (EStateM.bind call next state).state
  rw [EStateM.bind]
  cases hrun : call state with
  | ok a state' =>
    rw [hrun] at hcall
    exact trans_of R hcall ((hnext a).state_related state')
  | error error state' =>
    rw [hrun] at hcall
    exact hcall

end Moves
