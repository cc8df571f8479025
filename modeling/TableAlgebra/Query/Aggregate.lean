import TableAlgebra.InPlace
import TableAlgebra.Query.Error
import TableAlgebra.Table
import TableAlgebra.Value.Order

/-!
Aggregates over grouped tables. Each adds one column to every group row and
leaves the members alone, so aggregates can follow one another. AVG, MIN, MAX
and SUM pass over nulls; COUNT and ARRAY_AGG take every member.
-/
namespace TableAlgebra
namespace Aggregate

def ofDocument? (d : Document) : Option Aggregate :=
  match d.choice? with
  | some "ArrayAgg" => some arrayAgg
  | some "Avg" => some avg
  | some "Max" => some max
  | some "Min" => some min
  | some "Count" => some count
  | some "Sum" => some sum
  | _ => none

def choice : Aggregate → String
  | arrayAgg => "ArrayAgg"
  | avg => "Avg"
  | max => "Max"
  | min => "Min"
  | count => "Count"
  | sum => "Sum"

def present (values : List Value) : List Value := values.filter (!·.isNull)

def numbers (f : Aggregate) (column : String) (values : List Value) :
    Except QueryError (List Value) :=
  match (present values).find? (!·.isNumber) with
  | some v => .error (.nonNumeric f column v.kind v.display)
  | none =>
    if (present values).isEmpty then .error (.emptyGroup f column) else .ok (present values)

def realSum (values : List Value) : Binary64 :=
  (values.filterMap Value.toReal?).foldl (· + ·) Binary64.negativeZero

def intSum? : Int64 → List Value → Option Int64
  | total, [] => some total
  | total, .int i :: rest =>
    match int64? (total.toInt + i.toInt) with
    | some next => intSum? next rest
    | none => none
  | _, _ :: _ => none

/-- The exact sum while there are only integers and it fits, else the binary64
sum of all values. -/
def sumOf (values : List Value) : Value :=
  match intSum? 0 values with
  | some total => .int total
  | none => .float (realSum values)

/-- Keeps the first value that nothing after it beats in the wanted direction. -/
def extremeFrom (f : Aggregate) (column : String) (wanted : Ordering) (best : Value) :
    List Value → Except QueryError Value
  | [] => .ok best
  | v :: rest =>
    match v.compare? best with
    | none => .error (.incomparable f column best.kind v.kind)
    | some found => extremeFrom f column wanted (if found = wanted then v else best) rest

def extreme (f : Aggregate) (column : String) (wanted : Ordering) (values : List Value) :
    Except QueryError Value :=
  match present values with
  | [] => .error (.emptyGroup f column)
  | v :: rest => extremeFrom f column wanted v rest

def compute (f : Aggregate) (column : String) (values : List Value) :
    Except QueryError Value :=
  match f with
  | arrayAgg => .ok (.str (Json.array (values.map Value.toJson)).text)
  | count => .ok (.ofInteger values.length)
  | avg => do
    let found ← numbers avg column values
    return .float (realSum found / Binary64.ofNat found.length)
  | sum => do return sumOf (← numbers sum column values)
  | max => extreme max column .gt values
  | min => extreme min column .lt values

def ofRow (f : Aggregate) (column : String) (i : Nat) (row : Row) : Except QueryError Value :=
  match row.members with
  | none => .error (.notGrouped f column i)
  | some members => f.compute column (members.map (·.value column))

end Aggregate

namespace Table

def aggregate (table : Table) (f : Aggregate) (column : String) : Except QueryError Table := do
  let results ← table.rows.zipIdx.mapM fun (row, i) => f.ofRow column i row
  return { table with
    rows := table.rows.zipWith (fun row v => row.insert (f.outputColumn column) v) results }

end Table

namespace InPlace

def setCell (column : String) (i : Nat) (value : Value) :
    InPlace Table QueryError Unit :=
  modify fun table => { table with rows := table.rows.modify i (·.insert column value) }

/-- Writes the aggregate of a column to one row after the other, once all results
are there. -/
def annotate (f : Aggregate) (column : String) : InPlace Table QueryError Unit := do
  let table ← get
  let results ← MonadExcept.ofExcept (table.rows.zipIdx.mapM fun (row, i) => f.ofRow column i row)
  results.zipIdx.forM fun (value, i) => setCell (f.outputColumn column) i value

end InPlace
end TableAlgebra
