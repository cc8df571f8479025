import TableAlgebra.JsonLines
import TableAlgebra.Text.Grid

namespace TableAlgebra

inductive OutputFormat where
  | table
  | json
  | jsonl
deriving DecidableEq, Repr, Inhabited

namespace OutputFormat

def ofName? : String → Option OutputFormat
  | "table" => some table
  | "json" => some json
  | "jsonl" => some jsonl
  | _ => none

end OutputFormat

namespace Table

def allColumns (table : Table) : List String :=
  (Entries.ofList (table.rows.flatMap fun row => row.columns.map fun c => (c, ()))).names

/-- A value as its display text; a missing one leaves the cell blank. -/
def gridCell (row : Row) (column : String) : Grid.Cell :=
  Grid.linesOf (((row.get? column).map Value.display).getD "").toList

def gridText (table : Table) : String :=
  let columns := table.allColumns
  let lines := Grid.render (columns.map fun c => Grid.linesOf c.toList)
    (table.rows.map fun row => columns.map (gridCell row))
  String.ofList (Grid.separated '\n' lines)

def render (table : Table) : OutputFormat → String
  | .table => table.gridText
  | .json => (Json.array (table.rows.map Row.toJson)).indentedText
  | .jsonl => (LineWriter.empty.writeTable table).contents

end Table
end TableAlgebra
