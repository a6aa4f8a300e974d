import Mathlib.Data.List.Basic

/-!
# Steps that log events

A stateful call is described by the steps it takes: each step changes the state and appends events
to a log. `Steps` closes a step relation under composition and concatenates the logs. A property of
history and state that one step keeps is kept by every call that consists of such steps, whatever
its control flow is; `Steps.invariant` is that rule.

The calls themselves are `EStateM` computations, which end in a state whether they succeed or fail.
-/

/-- The state a computation ends in, on success and on failure. -/
def EStateM.Result.state {ε σ α : Type} : EStateM.Result ε σ α → σ
  | .ok _ s => s
  | .error _ s => s

/-- What a computation returns. -/
def EStateM.Result.outcome {ε σ α : Type} : EStateM.Result ε σ α → Except ε α
  | .ok a _ => .ok a
  | .error e _ => .error e

@[simp] theorem EStateM.Result.state_ok {ε σ α : Type} (a : α) (s : σ) :
    (EStateM.Result.ok a s : EStateM.Result ε σ α).state = s := rfl

@[simp] theorem EStateM.Result.state_error {ε σ α : Type} (e : ε) (s : σ) :
    (EStateM.Result.error e s : EStateM.Result ε σ α).state = s := rfl

@[simp] theorem EStateM.Result.outcome_ok {ε σ α : Type} (a : α) (s : σ) :
    (EStateM.Result.ok a s : EStateM.Result ε σ α).outcome = .ok a := rfl

@[simp] theorem EStateM.Result.outcome_error {ε σ α : Type} (e : ε) (s : σ) :
    (EStateM.Result.error e s : EStateM.Result ε σ α).outcome = .error e := rfl

/-- Observing a computation keeps its state and returns its outcome. -/
@[simp] theorem EStateM.run_observing {ε σ α : Type} (x : EStateM ε σ α) (s : σ) :
    EStateM.run (observing x) s = .ok (x.run s).outcome (x.run s).state := by
  have hbind : EStateM.run (observing x) s = match EStateM.run x s with
      | .ok a s' => .ok (.ok a) s'
      | .error e s' => .ok (.error e) s' := by
    change EStateM.tryCatch _ _ s = _
    simp only [EStateM.tryCatch, EStateM.run, EStateM.Backtrackable.restore,
      EStateM.Backtrackable.save, Bind.bind, EStateM.bind]
    cases x s <;> rfl
  rw [hbind]
  cases x.run s <;> rfl

namespace LoggedSteps

variable {σ ε : Type*}

/-- Finitely many steps, and the events of all of them in order. -/
inductive Steps (step : σ → List ε → σ → Prop) : σ → List ε → σ → Prop
  | refl (s : σ) : Steps step s [] s
  | tail {s s' s'' : σ} {log events : List ε} (before : Steps step s log s')
      (last : step s' events s'') : Steps step s (log ++ events) s''

variable {step : σ → List ε → σ → Prop}

theorem Steps.single {s s' : σ} {events : List ε} (h : step s events s') :
    Steps step s events s' := by
  have hone : Steps step s ([] ++ events) s' := (Steps.refl s).tail h
  rwa [List.nil_append] at hone

theorem Steps.trans {s s' s'' : σ} {log log' : List ε} (h : Steps step s log s')
    (h' : Steps step s' log' s'') : Steps step s (log ++ log') s'' := by
  induction h' with
  | refl => rwa [List.append_nil]
  | tail _ last ih =>
    rw [← List.append_assoc]
    exact ih.tail last

/-- **The invariant rule.** What every step keeps of history and state, every sequence of steps
keeps. -/
theorem Steps.invariant {I : List ε → σ → Prop}
    (hstep : ∀ history s events s', I history s → step s events s' → I (history ++ events) s')
    {s s' : σ} {log history : List ε} (h : Steps step s log s') (hinit : I history s) :
    I (history ++ log) s' := by
  induction h with
  | refl => rwa [List.append_nil]
  | tail _ last ih =>
    rw [← List.append_assoc]
    exact hstep _ _ _ _ ih last

/-- What holds of all events of a log may be asked of every step. -/
theorem Steps.restrict {P : ε → Prop} {s s' : σ} {log : List ε} (h : Steps step s log s')
    (hP : ∀ e ∈ log, P e) :
    Steps (fun s events s' => step s events s' ∧ ∀ e ∈ events, P e) s log s' := by
  induction h with
  | refl => exact .refl _
  | tail _ last ih =>
    exact (ih fun e he => hP e (List.mem_append_left _ he)).tail
      ⟨last, fun e he => hP e (List.mem_append_right _ he)⟩

/-- An event of a log that was extended is one of the old events or one of the new ones. -/
theorem append_eq_append_cons {l new before after : List ε} {e : ε}
    (h : l ++ new = before ++ e :: after) :
    (∃ rest, l = before ++ e :: rest ∧ after = rest ++ new) ∨
      ∃ start, before = l ++ start ∧ new = start ++ e :: after := by
  rcases List.append_eq_append_iff.mp h with ⟨start, hbefore, hnew⟩ | ⟨rest, hl, hrest⟩
  · exact .inr ⟨start, hbefore, hnew⟩
  · cases rest with
    | nil =>
      rw [List.nil_append] at hrest
      exact .inr ⟨[], by rw [hl, List.append_nil, List.append_nil], hrest.symm⟩
    | cons head rest =>
      rw [List.cons_append, List.cons.injEq] at hrest
      obtain ⟨rfl, rfl⟩ := hrest
      exact .inl ⟨rest, hl, rfl⟩

/-- An event of a log with one new event is an old event or the new one. -/
theorem concat_eq_append_cons {l before after : List ε} {new e : ε}
    (h : l ++ [new] = before ++ e :: after) :
    (∃ rest, l = before ++ e :: rest ∧ after = rest ++ [new]) ∨
      before = l ∧ e = new ∧ after = [] := by
  rcases append_eq_append_cons h with hold | ⟨start, hbefore, hnew⟩
  · exact .inl hold
  · cases start with
    | nil =>
      rw [List.nil_append, List.cons.injEq] at hnew
      exact .inr ⟨by rw [hbefore, List.append_nil], hnew.1.symm, hnew.2.symm⟩
    | cons head start =>
      have hlen := congrArg List.length hnew
      simp at hlen

/-- The two positions in a log of two events. -/
theorem pair_eq_append_cons {a b e : ε} {before after : List ε}
    (h : [a, b] = before ++ e :: after) :
    (before = [] ∧ e = a ∧ after = [b]) ∨ (before = [a] ∧ e = b ∧ after = []) := by
  rcases before with _ | ⟨first, _ | ⟨second, rest⟩⟩
  · cases h
    exact .inl ⟨rfl, rfl, rfl⟩
  · cases h
    exact .inr ⟨rfl, rfl, rfl⟩
  · have hlen := congrArg List.length h
    simp at hlen

/-- The invariant rule for properties of the state alone. -/
theorem Steps.invariant_state {I : σ → Prop}
    (hstep : ∀ s events s', I s → step s events s' → I s') {s s' : σ} {log : List ε}
    (h : Steps step s log s') (hinit : I s) : I s' := by
  induction h with
  | refl => exact hinit
  | tail _ last ih => exact hstep _ _ _ ih last

end LoggedSteps
