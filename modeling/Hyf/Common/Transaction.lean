import Hyf.Common.CursorM

/-!
# Programs that write only when they succeed

A call with several ways to fail is a transaction when it checks and computes first and writes last:
an error then leaves everything as it was. `AllOrNothing` says this of a program in a state, and its
rules follow the program: computations on the side that may fail, and at the end the writes, which
may not. Arrays are lists whose accesses panic out of range.
-/

namespace ByteCodec

variable {ε α β σ : Type}

/-- `values[index] = value`. -/
def setAt (values : List α) (index : ℕ) (value : α) : Outcome ε (List α) :=
  if index < values.length then .ok (values.set index value) else .error .panic

/-- `&values[..len]`. -/
def sliceTo (values : List α) (len : ℕ) : Outcome ε (List α) :=
  if len ≤ values.length then .ok (values.take len) else .error .panic

theorem sliceTo_eq_ok {values : List α} {len : ℕ} (h : len ≤ values.length) :
    (sliceTo values len : Outcome ε (List α)) = .ok (values.take len) := if_pos h

/-- A loop that fills an array from the front writes behind what it has `done`. -/
theorem setAt_append {done rest : List α} {index : ℕ} (hindex : index = done.length)
    (hrest : rest ≠ []) (value : α) :
    (setAt (done ++ rest) index value : Outcome ε (List α)) =
      .ok ((done ++ [value]) ++ rest.tail) := by
  obtain ⟨old, rest, rfl⟩ := List.exists_cons_of_ne_nil hrest
  subst hindex
  rw [setAt, if_pos (by simp)]
  simp

/-! ## Filling an array from the front -/

/-- `out[index] = value` on an array in the state. -/
def storeAt (index : ℕ) (value : α) : EStateM (Fault ε) (List α) Unit := do
  let values ← (setAt (← get) index value : Outcome ε (List α)).lift
  set values

/-- Behind the `offset` entries that are done, the program stores `values` and returns `b`. -/
def Stores (program : EStateM (Fault ε) (List α) β) (offset : ℕ) (values : List α) (b : β) : Prop :=
  ∀ done rest : List α, done.length = offset → values.length ≤ rest.length →
    program (done ++ rest) = .ok b (done ++ values ++ rest.drop values.length)

namespace Stores

variable {γ : Type} {offset : ℕ} {first second : List α} {b : β} {c : γ}

theorem pure (b : β) : Stores (Pure.pure b : EStateM (Fault ε) (List α) β) offset [] b := by
  intro done rest _ _
  rw [List.append_nil]
  rfl

theorem storeAt (value : α) :
    Stores (storeAt offset value : EStateM (Fault ε) (List α) Unit) offset [value] () := by
  intro done rest hdone hrest
  have hne : rest ≠ [] := List.ne_nil_of_length_pos hrest
  show ((setAt (done ++ rest) offset value : Outcome ε _).lift >>= set) (done ++ rest) = _
  rw [Outcome.lift_bind (setAt_append hdone.symm hne value), List.length_singleton, List.drop_one]
  rfl

/-- Storing on from where the first program stopped. -/
theorem bind {program : EStateM (Fault ε) (List α) β} {next : β → EStateM (Fault ε) (List α) γ}
    {offset' : ℕ} (hfirst : Stores program offset first b) (hoffset : offset + first.length = offset')
    (hnext : Stores (next b) offset' second c) :
    Stores (program >>= next) offset (first ++ second) c := by
  intro done rest hdone hrest
  rw [List.length_append] at hrest ⊢
  have hsecond := hnext (done ++ first) (rest.drop first.length)
    (by rw [List.length_append, hdone, hoffset]) (by rw [List.length_drop]; omega)
  rw [run_bind_of_ok (hfirst done rest hdone (by omega))]
  rw [hsecond, List.drop_drop, List.append_assoc done]

/-- A program that fills the array from its start. -/
theorem run {program : EStateM (Fault ε) (List α) β} (h : Stores program 0 first b)
    {out : List α} (hout : first.length ≤ out.length) :
    program out = .ok b (first ++ out.drop first.length) :=
  h [] out rfl hout

end Stores

/-! ## Checks first, writes last -/

/-- In `state` the program returns with `Q`, or reports an error and leaves the state as it was; it
does not panic. -/
def AllOrNothing (program : EStateM (Fault ε) σ α) (state : σ) (Q : α → σ → Prop) : Prop :=
  match program state with
  | .ok a state' => Q a state'
  | .error (.error _) state' => state' = state
  | .error .panic _ => False

namespace AllOrNothing

variable {state state' : σ} {Q : β → σ → Prop}

theorem of_run {program : EStateM (Fault ε) σ β} {b : β} (h : program state = .ok b state')
    (hQ : Q b state') : AllOrNothing program state Q := by
  rw [AllOrNothing, h]
  exact hQ

theorem mono {program : EStateM (Fault ε) σ β} {P : β → σ → Prop} (h : AllOrNothing program state P)
    (hQ : ∀ b state', P b state' → Q b state') : AllOrNothing program state Q := by
  unfold AllOrNothing at h ⊢
  split at h
  · exact hQ _ _ h
  · exact h
  · exact h

/-- A computation on the side may fail: nothing was written yet. -/
theorem lift_bind {outcome : Outcome ε α} {P : α → Prop} (h : Ends outcome P)
    {next : α → EStateM (Fault ε) σ β} (hnext : ∀ a, P a → AllOrNothing (next a) state Q) :
    AllOrNothing (outcome.lift >>= next) state Q := by
  match outcome, h with
  | .ok a, h => exact hnext a h
  | .error (.error _), _ => exact rfl

/-- A computation on the side that is known to succeed. -/
theorem lift_bind_ok {outcome : Outcome ε α} {a : α} (h : outcome = .ok a)
    {next : α → EStateM (Fault ε) σ β} (hnext : AllOrNothing (next a) state Q) :
    AllOrNothing (outcome.lift >>= next) state Q := by
  subst h
  exact hnext

theorem get_bind {next : σ → EStateM (Fault ε) σ β} (h : AllOrNothing (next state) state Q) :
    AllOrNothing (get >>= next) state Q := h

theorem cases {program : EStateM (Fault ε) σ β} (h : AllOrNothing program state Q) :
    (∃ error, program state = .error (.error error) state) ∨
      ∃ b state', program state = .ok b state' ∧ Q b state' := by
  unfold AllOrNothing at h
  split at h
  · rename_i b state' hrun
    exact .inr ⟨b, state', hrun, h⟩
  · rename_i error state' hrun
    exact .inl ⟨error, h ▸ hrun⟩
  · exact h.elim

end AllOrNothing

end ByteCodec
