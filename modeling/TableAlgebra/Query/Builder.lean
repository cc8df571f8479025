import TableAlgebra.Query.Pipeline

/-!
Building a pipeline call by call, out of any operators. Each call adds one stage
at the end, and a stage that needs the settings takes them as they are then.
-/
namespace TableAlgebra

inductive BuilderCall where
  | andThen (operator : Operator)
  | join (kind : JoinKind) (right : Table) (matching : Predicate)
  | crossJoin (right : Table)
  | filter (holds : Predicate)
  | having (holds : Predicate)
  | groupBy (columns : List String)
  | distinct (columns : List String)
  | aggregate (f : Aggregate) (column : String)
  | select (columns : List String) (aliases : Entries String)
  | sortBy (compare : Comparison)
  | orderBy (keys : List SortKey)
  | offset (n : Nat)
  | limit (n : Nat)

def BuilderCall.operator (settings : Settings) : BuilderCall → Operator
  | andThen operator => operator
  | join kind right matching => .own (.join kind right (some matching) settings.padding)
  | crossJoin right => .own (.join .cross right none settings.padding)
  | filter holds => .own (.filter holds)
  | having holds => .own (.having holds)
  | groupBy columns => .own (.groupBy columns)
  | distinct columns => .own (.distinct columns)
  | aggregate f column => .own (.aggregate f column)
  | select columns aliases => .own (.select columns aliases)
  | sortBy compare => .own (.sortBy compare)
  | orderBy keys => .own (.sortBy (SortKey.compareRows settings.nulls keys))
  | offset n => .own (.offset n)
  | limit n => .own (.limit n)

namespace OpenPipeline

def new (settings : Settings) : OpenPipeline := ⟨settings, []⟩

def add (pipeline : OpenPipeline) (call : BuilderCall) : OpenPipeline :=
  { pipeline with operators := pipeline.operators ++ [call.operator pipeline.settings] }

def build (settings : Settings) (calls : List BuilderCall) : OpenPipeline :=
  calls.foldl add (.new settings)

end OpenPipeline
end TableAlgebra
