import TableAlgebra.Query.Aggregate
import TableAlgebra.Query.Group
import TableAlgebra.Query.Join
import TableAlgebra.Query.Select
import TableAlgebra.Query.Sort

/-!
Pipelines: stages that run one after the other, each on the table the last one
made. A stage takes what it needs from the settings when it is added. Any operator
can stand as a stage, and the program's own stages run as such operators.
-/
namespace TableAlgebra

inductive Stage where
  /-- the running table is the left one; without a predicate every pair matches -/
  | join (kind : JoinKind) (right : Table) (matching : Option Predicate)
      (policy : PaddingPolicy)
  | filter (holds : Predicate)
  | having (holds : Predicate)
  | groupBy (columns : List String)
  | distinct (columns : List String)
  | aggregate (f : Aggregate) (column : String)
  | select (columns : List String) (aliases : Entries String)
  | sortBy (compare : Comparison)
  | offset (n : Nat)
  | limit (n : Nat)

namespace Stage

def operation : Stage → String
  | join kind _ _ _ => kind.operation
  | filter _ => "filter"
  | having _ => "having"
  | groupBy _ => "group_by"
  | distinct _ => "distinct"
  | aggregate f _ => f.name
  | select _ _ => "select"
  | sortBy _ => "sort_by"
  | offset _ => "offset"
  | limit _ => "limit"

def apply (stage : Stage) (table : Table) : Except QueryError Table :=
  match stage with
  | join kind right matching policy =>
    table.join kind right (matching.getD fun _ => true) policy
  | filter holds => .ok (table.filter holds)
  | having holds => .ok (table.having holds)
  | groupBy columns => .ok (table.groupBy columns)
  | distinct columns => .ok (table.distinct columns)
  | aggregate f column => table.aggregate f column
  | select columns aliases => .ok (table.select columns aliases)
  | sortBy compare => .ok (table.sortBy compare)
  | offset n => .ok (table.offset n)
  | limit n => .ok (table.limit n)

end Stage

structure StageError where
  index : Nat
  operation : String
  cause : QueryError
deriving DecidableEq, Repr

def StageError.message (e : StageError) : String :=
  "stage " ++ toString e.index ++ " (" ++ e.operation ++ ") failed: " ++ e.cause.message

structure Operator where
  name : String
  eval : Table → Except QueryError Table

namespace Operator

def own (stage : Stage) : Operator := ⟨stage.operation, stage.apply⟩

def runAt (operator : Operator) (index : Nat) (table : Table) : Except StageError Table :=
  (operator.eval table).mapError fun cause => ⟨index, operator.name, cause⟩

end Operator

structure OpenPipeline where
  settings : Settings
  operators : List Operator

namespace OpenPipeline

def explain (pipeline : OpenPipeline) : List (Nat × String) :=
  pipeline.operators.zipIdx.map fun entry => (entry.2, entry.1.name)

def runFrom (index : Nat) (operators : List Operator) (table : Table) : Except StageError Table :=
  (operators.zipIdx index).foldlM (fun running entry => entry.1.runAt entry.2 running) table

def run (pipeline : OpenPipeline) (table : Table) : Except StageError Table :=
  runFrom 0 pipeline.operators table

end OpenPipeline

structure Pipeline where
  settings : Settings
  stages : List Stage

namespace Pipeline

def new (settings : Settings) : Pipeline := ⟨settings, []⟩

def size (pipeline : Pipeline) : Nat := pipeline.stages.length

def isEmpty (pipeline : Pipeline) : Bool := pipeline.stages.isEmpty

def andThen (pipeline : Pipeline) (stage : Stage) : Pipeline :=
  { pipeline with stages := pipeline.stages ++ [stage] }

def join (pipeline : Pipeline) (kind : JoinKind) (right : Table) (matching : Predicate) :
    Pipeline :=
  pipeline.andThen (.join kind right (some matching) pipeline.settings.padding)

def crossJoin (pipeline : Pipeline) (right : Table) : Pipeline :=
  pipeline.andThen (.join .cross right none pipeline.settings.padding)

def orderBy (pipeline : Pipeline) (keys : List SortKey) : Pipeline :=
  pipeline.andThen (.sortBy (SortKey.compareRows pipeline.settings.nulls keys))

/-- The same pipeline among those of any operators, which is the one that runs. -/
def opened (pipeline : Pipeline) : OpenPipeline :=
  ⟨pipeline.settings, pipeline.stages.map Operator.own⟩

def explain (pipeline : Pipeline) : List (Nat × String) := pipeline.opened.explain

def explainJson (pipeline : Pipeline) : Json :=
  .array (pipeline.explain.map fun (i, operation) =>
    .object [("index", .number (.integer i)), ("op", .string operation)])

def run (pipeline : Pipeline) (table : Table) : Except StageError Table :=
  pipeline.opened.run table

end Pipeline
end TableAlgebra
