import TableAlgebra.Table

namespace TableAlgebra

abbrev Predicate := Row → Bool

namespace Table

def filter (table : Table) (holds : Predicate) : Table :=
  { table with rows := table.rows.filter holds }

def having (table : Table) (holds : Predicate) : Table := table.filter holds

/-- A column's output name: its alias, unless that is missing or empty. -/
def outputName (aliases : Entries String) (column : String) : String :=
  match aliases.get? column with
  | none => column
  | some name => if name = "" then column else name

def select (table : Table) (columns : List String) (aliases : Entries String) : Table :=
  { table with
    rows := table.rows.map (·.project (columns.map fun c => (c, outputName aliases c))) }

def offset (table : Table) (n : Nat) : Table := { table with rows := table.rows.drop n }

def limit (table : Table) (n : Nat) : Table := { table with rows := table.rows.take n }

end Table
end TableAlgebra
