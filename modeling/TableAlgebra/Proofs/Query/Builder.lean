import Mathlib.Data.List.Induction
import TableAlgebra.Proofs.Query.Runs

namespace TableAlgebra

/-- What a call stands for when tables are handed from function to function: outer
joins pad and sorts by columns place nulls as the settings say. -/
def BuilderCall.threaded (settings : Settings) (table : Table) :
    BuilderCall → Except QueryError Table
  | andThen operator => operator.eval table
  | join .cross right _ => .ok (table.crossJoin right)
  | join .inner right matching => .ok (table.innerJoin right matching)
  | join .left right matching => table.leftJoin right matching settings.padding
  | join .right right matching => table.rightJoin right matching settings.padding
  | join .full right matching => table.fullJoin right matching settings.padding
  | crossJoin right => .ok (table.crossJoin right)
  | filter holds => .ok (table.filter holds)
  | having holds => .ok (table.having holds)
  | groupBy columns => .ok (table.groupBy columns)
  | distinct columns => .ok (table.distinct columns)
  | aggregate f column => table.aggregate f column
  | select columns aliases => .ok (table.select columns aliases)
  | sortBy compare => .ok (table.sortBy compare)
  | orderBy keys => .ok (table.sortBy (SortKey.compareRows settings.nulls keys))
  | offset n => .ok (table.offset n)
  | limit n => .ok (table.limit n)

theorem BuilderCall.operator_eval (settings : Settings) (call : BuilderCall) (table : Table) :
    (call.operator settings).eval table = call.threaded settings table := by
  cases call with
  | join kind right matching => cases kind <;> rfl
  | _ => rfl

namespace OpenPipeline

variable {settings : Settings} {calls : List BuilderCall} {table : Table} {e : StageError}

theorem build_eq (settings : Settings) (calls : List BuilderCall) :
    build settings calls = ⟨settings, calls.map (BuilderCall.operator settings)⟩ := by
  induction calls using List.reverseRecOn with
  | nil => rfl
  | append_singleton calls call ih =>
    have step : build settings (calls ++ [call]) = (build settings calls).add call :=
      List.foldl_append
    rw [step, ih, List.map_append, List.map_singleton]
    rfl

theorem run_cause (settings : Settings) (calls : List BuilderCall) (table : Table) :
    ((build settings calls).run table).mapError StageError.cause =
      calls.foldlM (BuilderCall.threaded settings) table := by
  rw [build_eq, run, run_from_cause, List.foldlM_map]
  simp only [BuilderCall.operator_eval]

theorem run_ok_iff {out : Table} :
    (build settings calls).run table = .ok out ↔
      calls.foldlM (BuilderCall.threaded settings) table = .ok out := by
  rw [← run_cause]
  cases (build settings calls).run table with
  | error e => simp [Except.mapError]
  | ok result => simp [Except.mapError]

theorem listed_at {call : BuilderCall} {i : Nat} (place : calls[i]? = some call) :
    (build settings calls).explain[i]? = some (i, (call.operator settings).name) := by
  simp [explain, build_eq, place]

theorem build_error_iff :
    (build settings calls).run table = .error e ↔
      ∃ call running, calls[e.index]? = some call ∧
        (calls.take e.index).foldlM (BuilderCall.threaded settings) table = .ok running ∧
        call.threaded settings running = .error e.cause ∧
        (build settings calls).explain[e.index]? = some (e.index, e.operation) := by
  have first (i : Nat) : runFrom 0 ((calls.map (BuilderCall.operator settings)).take i) table =
      (build settings (calls.take i)).run table := by
    rw [build_eq, run, List.map_take]
  have whole : (build settings calls).run table =
      runFrom 0 (calls.map (BuilderCall.operator settings)) table := by
    rw [build_eq, run]
  rw [whole, run_from_error_iff]
  simp only [first, run_ok_iff, List.getElem?_map, Option.map_eq_some_iff, Nat.zero_add,
    Operator.run_at_error_iff]
  constructor
  · rintro ⟨i, _, running, ⟨call, place, rfl⟩, ran, failed, rfl, name⟩
    rw [BuilderCall.operator_eval] at failed
    rw [listed_at place, name]
    exact ⟨call, running, place, ran, failed, rfl⟩
  · rintro ⟨call, running, place, ran, failed, listed⟩
    rw [listed_at place, Option.some.injEq, Prod.mk.injEq] at listed
    rw [← BuilderCall.operator_eval] at failed
    exact ⟨e.index, _, running, ⟨call, place, rfl⟩, ran, failed, rfl, listed.2.symm⟩

theorem build_append (settings : Settings) (first second : List BuilderCall) (table : Table) :
    (build settings (first ++ second)).run table =
      (build settings first).run table >>= fun running =>
        ((build settings second).run running).mapError (StageError.behind first.length) := by
  rw [build_eq, build_eq, build_eq, run, List.map_append, run_from_append, List.length_map]
  refine congrArg _ (funext fun running => ?_)
  exact run_from_behind first.length 0 _ running

end OpenPipeline

namespace Pipeline

structure MatchesOpened (pipeline : Pipeline) : Prop where
  andThen : ∀ stage,
    (pipeline.andThen stage).opened = pipeline.opened.add (.andThen (.own stage))
  join : ∀ kind right matching,
    (pipeline.join kind right matching).opened = pipeline.opened.add (.join kind right matching)
  crossJoin : ∀ right, (pipeline.crossJoin right).opened = pipeline.opened.add (.crossJoin right)
  orderBy : ∀ keys, (pipeline.orderBy keys).opened = pipeline.opened.add (.orderBy keys)
  explain : pipeline.opened.explain = pipeline.explain
  run : ∀ table, pipeline.opened.run table = pipeline.run table

theorem opened_and_then (pipeline : Pipeline) (stage : Stage) :
    (pipeline.andThen stage).opened =
      { pipeline.opened with operators := pipeline.opened.operators ++ [.own stage] } := by
  rw [andThen, opened, List.map_append, List.map_singleton]
  rfl

theorem matches_opened (pipeline : Pipeline) : pipeline.MatchesOpened where
  andThen := opened_and_then pipeline
  join := fun _ _ _ => opened_and_then pipeline _
  crossJoin := fun _ => opened_and_then pipeline _
  orderBy := fun _ => opened_and_then pipeline _
  explain := rfl
  run := fun _ => rfl

end Pipeline

namespace OpenPipeline

/-- Running a pipeline is applying the functions of its calls from left to right.
It gives the same table, or fails for the same reason: at the first call whose
function fails, under the name that is listed at its place. A pipeline in two
parts is the second part run on the result of the first. All this goes for any
operators, and a pipeline of the program's own stages is one of them. -/
theorem pipeline_threads_calls (settings : Settings) :
    (∀ calls table, ((build settings calls).run table).mapError StageError.cause =
      calls.foldlM (BuilderCall.threaded settings) table) ∧
    (∀ calls table e, (build settings calls).run table = .error e ↔
      ∃ call running, calls[e.index]? = some call ∧
        (calls.take e.index).foldlM (BuilderCall.threaded settings) table = .ok running ∧
        call.threaded settings running = .error e.cause ∧
        (build settings calls).explain[e.index]? = some (e.index, e.operation)) ∧
    (∀ first second table, (build settings (first ++ second)).run table =
      (build settings first).run table >>= fun running =>
        ((build settings second).run running).mapError (StageError.behind first.length)) ∧
    (Pipeline.new settings).opened = build settings [] ∧
    ∀ pipeline : Pipeline, pipeline.MatchesOpened := by
  refine ⟨run_cause settings, ?_, build_append settings, rfl, Pipeline.matches_opened⟩
  intro calls table e
  exact build_error_iff

/-- The sum is the second stage of its own pipeline and the third of the whole. -/
example :
    (build .default ([.offset 0] ++ [.limit 1, .aggregate .sum "x"])).run ⟨"t", [.empty]⟩ =
      .error ⟨2, "SUM", .notGrouped .sum "x" 0⟩ := rfl

end OpenPipeline
end TableAlgebra
