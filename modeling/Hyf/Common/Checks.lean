import Mathlib.Logic.Basic

/-!
# Checks in sequence

A validation is a sequence of checks, each of which stops with an error of its own. For every shape that a
check takes, a lemma says that the sequence passes exactly if the check does and what stands behind it does.
-/

namespace Checks

variable {ε : Type} {condition : Prop} [Decidable condition] {error : ε}

/-- A check that stops with an error, and the checks behind it. -/
theorem throwIf_then_eq_ok_iff {next : Unit → Except ε Unit} {rest : Except ε Unit} :
    (if condition then throw error >>= next else rest) = .ok () ↔ ¬condition ∧ rest = .ok () := by
  by_cases h : condition
  · rw [if_pos h]
    exact iff_of_false (fun hthrow => by cases hthrow) fun hrest => hrest.1 h
  · rw [if_neg h]
    exact (and_iff_right h).symm

theorem throwIf_eq_ok_iff :
    (if condition then throw error else pure () : Except ε Unit) = .ok () ↔ ¬condition := by
  by_cases h : condition
  · rw [if_pos h]
    exact iff_of_false (fun hthrow => by cases hthrow) fun hrest => hrest h
  · rw [if_neg h]
    exact iff_of_true rfl h

theorem acceptIf_eq_ok_iff :
    (if condition then .ok () else .error error : Except ε Unit) = .ok () ↔ condition := by
  by_cases h : condition
  · rw [if_pos h]
    exact iff_of_true rfl h
  · rw [if_neg h]
    exact iff_of_false (fun herror => by cases herror) h

/-- A validation made of validations. -/
theorem bind_eq_ok_iff {check : Except ε Unit} {rest : Unit → Except ε Unit} :
    (check >>= rest) = .ok () ↔ check = .ok () ∧ rest () = .ok () := by
  cases check with
  | error error => exact iff_of_false (fun h => by cases h) fun h => by cases h.1
  | ok value => exact (and_iff_right rfl).symm

end Checks
