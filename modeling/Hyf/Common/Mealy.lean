import Mathlib.Data.List.Basic

/-!
# Stream machines with output

A stream decoder consumes one symbol at a time and now and then has something to report. `Mealy` is
the step of such a machine; `final` and `outputs` are the state after a stream and what was reported
along it. Both follow the concatenation of streams, so that a property of a stream is put together
from properties of its pieces, however the stream is cut.
-/

/-- One step of a stream machine: the next state, and a report or none. -/
abbrev Mealy (σ α β : Type*) := σ → α → σ × Option β

namespace Mealy

variable {σ α β : Type*} (machine : Mealy σ α β)

/-- The state after a stream. -/
def final (state : σ) (stream : List α) : σ :=
  stream.foldl (fun state symbol => (machine state symbol).1) state

/-- What is reported along a stream. -/
def outputs (state : σ) : List α → List β
  | [] => []
  | symbol :: stream =>
    (machine state symbol).2.toList ++ outputs (machine state symbol).1 stream

@[simp] theorem final_nil (state : σ) : machine.final state [] = state := rfl

@[simp] theorem outputs_nil (state : σ) : machine.outputs state [] = [] := rfl

@[simp] theorem final_cons (state : σ) (symbol : α) (stream : List α) :
    machine.final state (symbol :: stream) = machine.final (machine state symbol).1 stream := rfl

@[simp] theorem outputs_cons (state : σ) (symbol : α) (stream : List α) :
    machine.outputs state (symbol :: stream) =
      (machine state symbol).2.toList ++ machine.outputs (machine state symbol).1 stream := rfl

theorem final_append (state : σ) (first second : List α) :
    machine.final state (first ++ second) = machine.final (machine.final state first) second :=
  List.foldl_append

theorem outputs_append (state : σ) (first second : List α) :
    machine.outputs state (first ++ second) =
      machine.outputs state first ++ machine.outputs (machine.final state first) second := by
  induction first generalizing state with
  | nil => rfl
  | cons symbol first ih => rw [List.cons_append, outputs_cons, ih, outputs_cons, List.append_assoc,
      final_cons]

/-- A report is the report of one symbol. -/
theorem mem_outputs {state : σ} {stream : List α} {report : β} :
    report ∈ machine.outputs state stream ↔ ∃ before symbol after,
      stream = before ++ symbol :: after ∧ (machine (machine.final state before) symbol).2 = some report := by
  induction stream generalizing state with
  | nil => simp
  | cons symbol stream ih =>
    rw [outputs_cons, List.mem_append, ih, Option.mem_toList]
    constructor
    · rintro (hfirst | ⟨before, symbol', after, rfl, hreport⟩)
      · exact ⟨[], symbol, stream, rfl, hfirst⟩
      · exact ⟨symbol :: before, symbol', after, rfl, hreport⟩
    · rintro ⟨before, symbol', after, hstream, hreport⟩
      cases before with
      | nil =>
        cases hstream
        exact .inl hreport
      | cons head before =>
        cases hstream
        exact .inr ⟨before, symbol', after, rfl, hreport⟩

/-- What every step keeps, every stream keeps. -/
theorem final_invariant {machine : Mealy σ α β} {I : σ → Prop}
    (hstep : ∀ state symbol, I state → I (machine state symbol).1) {state : σ} (hinit : I state)
    (stream : List α) : I (machine.final state stream) := by
  induction stream generalizing state with
  | nil => exact hinit
  | cons symbol stream ih => exact ih (hstep state symbol hinit)

/-- The machine goes from `state` to `state'` along a stream and reports `reports`. -/
structure Runs (state : σ) (stream : List α) (reports : List β) (state' : σ) : Prop where
  final_eq : machine.final state stream = state'
  outputs_eq : machine.outputs state stream = reports

namespace Runs

variable {machine} {state state' state'' : σ} {first second : List α} {reports reports' : List β}

theorem nil (state : σ) : machine.Runs state [] [] state := ⟨rfl, rfl⟩

theorem single {symbol : α} {report : Option β} (h : machine state symbol = (state', report)) :
    machine.Runs state [symbol] report.toList state' where
  final_eq := by rw [final_cons, h, final_nil]
  outputs_eq := by rw [outputs_cons, h, outputs_nil, List.append_nil]

theorem append (h : machine.Runs state first reports state')
    (h' : machine.Runs state' second reports' state'') :
    machine.Runs state (first ++ second) (reports ++ reports') state'' where
  final_eq := by rw [final_append, h.final_eq, h'.final_eq]
  outputs_eq := by rw [outputs_append, h.outputs_eq, h.final_eq, h'.outputs_eq]

/-- A symbol that reports nothing in front of a stream. -/
theorem quiet {symbol : α} (h : machine state symbol = (state', none))
    (h' : machine.Runs state' second reports state'') :
    machine.Runs state (symbol :: second) reports state'' :=
  (single h).append h'

end Runs

end Mealy
