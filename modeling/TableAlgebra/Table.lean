import TableAlgebra.Row

/-!
Tables: a name and a sequence of rows. The name qualifies the columns of the
table in a join, and an unnamed table leaves them bare.
-/
namespace TableAlgebra

structure Table where
  name : String
  rows : List Row
deriving Inhabited

namespace Table

def size (table : Table) : Nat := table.rows.length

def isEmpty (table : Table) : Bool := table.rows.isEmpty

def push (table : Table) (row : Row) : Table := { table with rows := table.rows ++ [row] }

def qualify (table : Table) (column : String) : String :=
  if table.name = "" then column else table.name ++ "." ++ column

def aliased (table : Table) (name : String) : Table := { table with name }

def firstRowColumns? (table : Table) : Option (List String) := table.rows.head?.map Row.columns

def columnValues (table : Table) (column : String) : List Value :=
  table.rows.map (·.value column)

def equal (a b : Table) : Bool := a.name == b.name && Row.equalRows a.rows b.rows

def toJson (table : Table) : Json :=
  .object [("name", .string table.name), ("rows", .array (table.rows.map Row.toJson))]

def write (table : Table) : List Char :=
  "\x7b\"name\":".toList ++ quoted table.name ++ ",\"rows\":[".toList ++
    commaSeparated (table.rows.map Row.write) ++ [']', '}']

def text (table : Table) : String := String.ofList table.write

def ofJson (name : String) : Json → Except SchemaError Table
  | .array items => do
    let rows ← items.mapM Row.ofJson
    return ⟨name, rows⟩
  | _ => .error .rowsNotArray

def rowsOfDocument? : Nat → Document → Option (List Row)
  | depth + 1, .array items => items.mapM (Row.ofDocument? depth)
  | _, _ => none

/-- The table of a document nested at most `depth` deep: an object with one
member `name` and one member `rows`, whatever else it has, or an array of a
name and the rows. -/
def ofDocument? : Nat → Document → Option Table
  | depth + 1, .object members => do
    let members ← Document.namedMembers? members
    let name ← (← Document.onlyMember? members "name").text?
    let rows ← rowsOfDocument? depth (← Document.onlyMember? members "rows")
    some ⟨name, rows⟩
  | depth + 1, .array [name, rows] => do
    let name ← name.text?
    let rows ← rowsOfDocument? depth rows
    some ⟨name, rows⟩
  | _, _ => none

end Table
end TableAlgebra
