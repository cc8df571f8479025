import TableAlgebra.Value.Json

namespace TableAlgebra

inductive Aggregate where
  | arrayAgg
  | avg
  | max
  | min
  | count
  | sum
deriving DecidableEq, Repr

namespace Aggregate

def name : Aggregate → String
  | arrayAgg => "ARRAY_AGG"
  | avg => "AVG"
  | max => "MAX"
  | min => "MIN"
  | count => "COUNT"
  | sum => "SUM"

def outputColumn (f : Aggregate) (column : String) : String := f.name ++ "(" ++ column ++ ")"

end Aggregate

inductive QueryError where
  /-- an aggregate over values of which none may be left out finds none -/
  | emptyGroup (f : Aggregate) (column : String)
  | notGrouped (f : Aggregate) (column : String) (row : Nat)
  | nonNumeric (f : Aggregate) (column : String) (kind : Kind) (display : String)
  | incomparable (f : Aggregate) (column : String) (left right : Kind)
  /-- an outer join has a row to pad and no columns to pad it with -/
  | emptyPadding (table : String)
deriving DecidableEq, Repr

namespace QueryError

def message : QueryError → String
  | emptyGroup f column => f.outputColumn column ++ " over a group with no values"
  | notGrouped f column row =>
    f.outputColumn column ++ " needs grouped rows, but row " ++ toString row ++
      " has no group members"
  | nonNumeric f column kind display =>
    f.outputColumn column ++ " expects numbers, found " ++ kind.name ++ " " ++ display
  | incomparable f column left right =>
    f.outputColumn column ++ " cannot compare a " ++ left.name ++ " with a " ++ right.name
  | emptyPadding table =>
    "outer join cannot pad an unmatched row: table '" ++ table ++
      "' has no rows to take columns from"

end QueryError
end TableAlgebra
