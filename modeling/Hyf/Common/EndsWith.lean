import Hyf.Common.CursorM
import Hyf.Common.LoggedSteps

/-!
# How a program ends

A call that changes a state may succeed, report an error or panic. `EndsWith` gives it two
postconditions, one for its value and one for its errors, and excludes the panic. Its rules follow the
program; an invariant that holds on both ways is kept by whole calls, whatever they were doing when they
failed.
-/

namespace ByteCodec

variable {ε σ α β : Type}

/-- From `state` the program does not panic: it returns with `Q`, or reports an error with `E`. -/
def EndsWith (program : EStateM (Fault ε) σ α) (state : σ) (Q : α → σ → Prop) (E : ε → σ → Prop) :
    Prop :=
  match program state with
  | .ok a state' => Q a state'
  | .error (.error error) state' => E error state'
  | .error .panic _ => False

namespace EndsWith

variable {state : σ} {Q : α → σ → Prop} {E : ε → σ → Prop}

theorem of_ok {program : EStateM (Fault ε) σ α} {a : α} {state' : σ} (h : program state = .ok a state')
    (hQ : Q a state') : EndsWith program state Q E := by
  rw [EndsWith, h]
  exact hQ

theorem of_error {program : EStateM (Fault ε) σ α} {error : ε} {state' : σ}
    (h : program state = .error (.error error) state') (hE : E error state') :
    EndsWith program state Q E := by
  rw [EndsWith, h]
  exact hE

theorem mono {program : EStateM (Fault ε) σ α} {P : α → σ → Prop} {D : ε → σ → Prop}
    (h : EndsWith program state P D) (hQ : ∀ a state', P a state' → Q a state')
    (hE : ∀ error state', D error state' → E error state') : EndsWith program state Q E := by
  unfold EndsWith at h ⊢
  split at h
  · exact hQ _ _ h
  · exact hE _ _ h
  · exact h

/-- The second program goes on where the first has returned. -/
theorem bind {program : EStateM (Fault ε) σ α} {next : α → EStateM (Fault ε) σ β}
    {P : α → σ → Prop} {R : β → σ → Prop} (h : EndsWith program state P E)
    (hnext : ∀ a state', P a state' → EndsWith (next a) state' R E) :
    EndsWith (program >>= next) state R E := by
  unfold EndsWith at h
  show EndsWith (EStateM.bind program next) state R E
  rw [EndsWith, EStateM.bind]
  cases hrun : program state with
  | ok a state' =>
    rw [hrun] at h
    exact hnext a state' h
  | error fault state' =>
    rw [hrun] at h
    cases fault with
    | error error => exact h
    | panic => exact h.elim

theorem get_bind {next : σ → EStateM (Fault ε) σ α} (h : EndsWith (next state) state Q E) :
    EndsWith (get >>= next) state Q E := h

/-- A computation on the side. -/
theorem lift_bind {outcome : Outcome ε α} {P : α → Prop} (h : Ends outcome P)
    {next : α → EStateM (Fault ε) σ β} {R : β → σ → Prop} (hE : ∀ error, E error state)
    (hnext : ∀ a, P a → EndsWith (next a) state R E) :
    EndsWith (outcome.lift >>= next) state R E := by
  match outcome, h with
  | .ok a, h => exact hnext a h
  | .error (.error error), _ => exact hE error

theorem pure {a : α} (h : Q a state) : EndsWith (Pure.pure a) state Q E := h

theorem throw {error : ε} (h : E error state) :
    EndsWith (MonadExcept.throw (Fault.error error) : EStateM (Fault ε) σ α) state Q E := h

/-- A program that keeps an invariant, whichever way it ends. -/
theorem state_mem {program : EStateM (Fault ε) σ α} {I : σ → Prop}
    (h : EndsWith program state (fun _ => I) fun _ => I) : I (program state).state := by
  unfold EndsWith at h
  split at h
  · rename_i hrun
    rwa [hrun]
  · rename_i hrun
    rwa [hrun]
  · exact h.elim

/-- A program that returns a value returns it with its postcondition. -/
theorem of_run' {program : EStateM (Fault ε) σ α} (h : EndsWith program state Q E) {a : α}
    (hrun : program.run' state = some a) : ∃ state', program state = .ok a state' ∧ Q a state' := by
  unfold EndsWith at h
  unfold EStateM.run' EStateM.run at hrun
  cases hprogram : program state with
  | ok b state' =>
    rw [hprogram] at h hrun
    obtain rfl := Option.some.inj hrun
    exact ⟨state', rfl, h⟩
  | error fault state' =>
    rw [hprogram] at hrun
    cases hrun

theorem ne_panic {program : EStateM (Fault ε) σ α} (h : EndsWith program state Q E) (state' : σ) :
    program state ≠ .error .panic state' := by
  intro hrun
  rw [EndsWith, hrun] at h
  exact h

end EndsWith

end ByteCodec
