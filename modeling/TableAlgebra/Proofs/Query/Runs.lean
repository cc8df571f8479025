import TableAlgebra.Proofs.Outcome
import TableAlgebra.Query.Builder

/-!
Runs of pipelines, taken apart. A run over some operators and then others is a
run over the first and one over the others on what that leaves; so a run that
fails has one operator at which it fails, behind a run that does not.
-/
namespace TableAlgebra

theorem Operator.run_at_error_iff {operator : Operator} {index : Nat} {table : Table}
    {e : StageError} :
    operator.runAt index table = .error e ↔
      operator.eval table = .error e.cause ∧ e.index = index ∧ e.operation = operator.name := by
  obtain ⟨position, operation, cause⟩ := e
  unfold runAt
  cases operator.eval table with
  | error found =>
    simp only [Except.mapError, Except.error.injEq, StageError.mk.injEq]
    constructor
    · rintro ⟨rfl, rfl, rfl⟩
      exact ⟨rfl, rfl, rfl⟩
    · rintro ⟨rfl, rfl, rfl⟩
      exact ⟨rfl, rfl, rfl⟩
  | ok next => simp [Except.mapError]

theorem Operator.run_at_view {γ : Type} {operator : Operator} {index : Nat} {a b : Table}
    {view : Table → γ} (same : (operator.eval a).map view = (operator.eval b).map view) :
    (operator.runAt index a).map view = (operator.runAt index b).map view := by
  unfold runAt
  rcases same_view_cases same with ⟨cause, failed, failed'⟩ | ⟨next, next', done, done', alike⟩
  · rw [failed, failed']
  · rw [done, done']
    exact congrArg Except.ok alike

def StageError.behind (n : Nat) (e : StageError) : StageError := { e with index := e.index + n }

namespace OpenPipeline

variable {operators : List Operator} {table : Table} {e : StageError}

theorem run_from_cons (index : Nat) (operator : Operator) (rest : List Operator) (table : Table) :
    runFrom index (operator :: rest) table =
      operator.runAt index table >>= runFrom (index + 1) rest := by
  rw [runFrom, List.zipIdx_cons, List.foldlM_cons]
  rfl

theorem run_from_append (index : Nat) (before after : List Operator) (table : Table) :
    runFrom index (before ++ after) table =
      runFrom index before table >>= runFrom (index + before.length) after := by
  rw [runFrom, List.zipIdx_append, List.foldlM_append]
  rfl

theorem run_from_cause (index : Nat) (operators : List Operator) (table : Table) :
    (runFrom index operators table).mapError StageError.cause =
      operators.foldlM (fun running operator => operator.eval running) table := by
  induction operators generalizing index table with
  | nil => rfl
  | cons operator rest ih =>
    rw [run_from_cons, Operator.runAt, List.foldlM_cons]
    cases operator.eval table with
    | error cause => rfl
    | ok next => exact ih (index + 1) next

theorem run_from_behind (n index : Nat) (operators : List Operator) (table : Table) :
    runFrom (index + n) operators table =
      (runFrom index operators table).mapError (StageError.behind n) := by
  induction operators generalizing index table with
  | nil => rfl
  | cons operator rest ih =>
    rw [run_from_cons, run_from_cons, Operator.runAt, Operator.runAt]
    cases operator.eval table with
    | error cause => rfl
    | ok next =>
      rw [Nat.add_right_comm]
      exact ih (index + 1) next

/-- A run fails where the operators before give a table and the next one fails on it. -/
theorem run_from_error_iff {index : Nat} :
    runFrom index operators table = .error e ↔
      ∃ i operator running, operators[i]? = some operator ∧
        runFrom index (operators.take i) table = .ok running ∧
        operator.runAt (index + i) running = .error e := by
  induction operators generalizing index table with
  | nil => simp [runFrom, pure, Except.pure]
  | cons first rest ih =>
    rw [run_from_cons, bind_eq_error_iff]
    constructor
    · rintro (failed | ⟨next, done, failed⟩)
      · exact ⟨0, first, table, rfl, rfl, failed⟩
      · obtain ⟨i, operator, running, place, ran, stuck⟩ := ih.mp failed
        refine ⟨i + 1, operator, running, place, ?_, ?_⟩
        · rw [List.take_succ_cons, run_from_cons, bind_eq_ok_iff]
          exact ⟨next, done, ran⟩
        · rw [Nat.add_right_comm] at stuck
          exact stuck
    · rintro ⟨_ | i, operator, running, place, ran, stuck⟩
      · cases place
        cases ran
        exact .inl stuck
      · rw [List.take_succ_cons, run_from_cons, bind_eq_ok_iff] at ran
        obtain ⟨next, done, ran⟩ := ran
        rw [← Nat.add_assoc, Nat.add_right_comm] at stuck
        exact .inr ⟨next, done, ih.mpr ⟨i, operator, running, place, ran, stuck⟩⟩

theorem run_from_last {index : Nat} {operator : Operator} {out : Table}
    (ran : runFrom index (operators ++ [operator]) table = .ok out) :
    ∃ running, runFrom index operators table = .ok running ∧ operator.eval running = .ok out := by
  rw [run_from_append, bind_eq_ok_iff] at ran
  obtain ⟨running, before, last⟩ := ran
  refine ⟨running, before, ?_⟩
  rw [run_from_cons, Operator.runAt] at last
  cases applied : operator.eval running with
  | error cause =>
    rw [applied] at last
    cases last
  | ok next =>
    rw [applied] at last
    cases last
    rfl

end OpenPipeline

namespace Pipeline

def first (pipeline : Pipeline) (n : Nat) : Pipeline :=
  { pipeline with stages := pipeline.stages.take n }

variable {pipeline : Pipeline} {table : Table} {e : StageError}

theorem run_error_iff :
    pipeline.run table = .error e ↔
      ∃ stage running, pipeline.stages[e.index]? = some stage ∧
        (pipeline.first e.index).run table = .ok running ∧
        stage.apply running = .error e.cause ∧ e.operation = stage.operation := by
  rw [run, OpenPipeline.run, OpenPipeline.run_from_error_iff]
  simp only [opened, List.getElem?_map, Option.map_eq_some_iff, ← List.map_take, Nat.zero_add,
    Operator.run_at_error_iff]
  constructor
  · rintro ⟨i, _, running, ⟨stage, place, rfl⟩, before, failed, rfl, operation⟩
    exact ⟨stage, running, place, before, failed, operation⟩
  · rintro ⟨stage, running, place, before, failed, operation⟩
    exact ⟨e.index, .own stage, running, ⟨stage, place, rfl⟩, before, failed, rfl, operation⟩

end Pipeline
end TableAlgebra
