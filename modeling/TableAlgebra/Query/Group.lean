import TableAlgebra.Table

/-!
Grouping. Rows with the same key on some columns are brought together, in the
order in which the keys first occur. A key is the digest of the bytes that
identify the values, so rows have one key exactly when these values are equal.
-/
namespace TableAlgebra

variable {κ α : Type} [DecidableEq κ]

def appendTo (key : κ) (value : α) : List (κ × List α) → List (κ × List α)
  | [] => [(key, [value])]
  | (other, values) :: rest =>
    if other = key then (other, values ++ [value]) :: rest
    else (other, values) :: appendTo key value rest

def gather (key : α → κ) (values : List α) : List (κ × List α) :=
  values.foldl (fun groups value => appendTo (key value) value groups) []

def lastOfEach (key : α → κ) (values : List α) : List (κ × α) :=
  values.foldl (fun kept value => putEntry (key value) value kept) []

namespace Table

def sameNames (columns : List String) : List (String × String) := columns.map fun c => (c, c)

def groupRow (columns : List String) (members : List Row) : Row :=
  { (members.headD .empty).project (sameNames columns) with members := some members }

def groupBy (table : Table) (columns : List String) : Table :=
  { table with
    rows := (gather (·.key columns) table.rows).map fun group => groupRow columns group.2 }

/-- One row for each key, with the listed columns alone: the place of the first
row of that key and the values of the last. -/
def distinct (table : Table) (columns : List String) : Table :=
  { table with
    rows := (lastOfEach (·.key columns) table.rows).map fun kept =>
      kept.2.project (sameNames columns) }

end Table
end TableAlgebra
