import TableAlgebra.Settings
import TableAlgebra.Table
import TableAlgebra.Value.Order

/-!
Sorting by a comparison of rows. The sort is stable. A comparison by columns
takes the keys in turn; the direction of a key does not move its nulls.
-/
namespace TableAlgebra

abbrev Comparison := Row → Row → Ordering

structure SortKey where
  column : String
  descending : Bool
deriving DecidableEq, Repr

namespace SortKey

def compareValues (key : SortKey) (nulls : NullOrder) (a b : Value) : Ordering :=
  let nullFirst : Ordering := match nulls with
    | .first => .lt
    | .last => .gt
  match a.isNull, b.isNull with
  | true, true => .eq
  | true, false => nullFirst
  | false, true => nullFirst.swap
  | false, false => if key.descending then (a.order b).swap else a.order b

def compareRows (nulls : NullOrder) : List SortKey → Comparison
  | [], _, _ => .eq
  | key :: rest, a, b =>
    (key.compareValues nulls (a.value key.column) (b.value key.column)).then
      (compareRows nulls rest a b)

end SortKey

namespace Table

def sortBy (table : Table) (compare : Comparison) : Table :=
  { table with rows := table.rows.mergeSort fun a b => (compare a b).isLE }

end Table
end TableAlgebra
