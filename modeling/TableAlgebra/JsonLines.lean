import TableAlgebra.Table
import TableAlgebra.Value.Pieces
import TableAlgebra.Outlet

/-!
JSON lines: the cells of each row as compact JSON on a line of its own. A writer
counts its rows. One keeps the text; another one sends it to a sink that may be
full before the end.
-/
namespace TableAlgebra

def Row.line (row : Row) : List Char := row.write ++ ['\n']

def Table.lines (table : Table) : List Char := table.rows.flatMap Row.line

structure LineWriter where
  rowsWritten : Nat
  text : List Char

namespace LineWriter

def empty : LineWriter := ⟨0, []⟩

def writeRow (writer : LineWriter) (row : Row) : LineWriter :=
  ⟨writer.rowsWritten + 1, writer.text ++ row.line⟩

def writeTable (writer : LineWriter) (table : Table) : LineWriter :=
  table.rows.foldl writeRow writer

def contents (writer : LineWriter) : String := String.ofList writer.text

end LineWriter

def Row.pieces (row : Row) : List (List Char) := (Value.record row.cells.toList).pieces

theorem Row.flatten_pieces (row : Row) : row.pieces.flatten = row.write := by
  rw [Row.pieces, Value.flatten_pieces]
  rfl

def byteCount (text : List Char) : Nat := (String.ofList text).utf8ByteSize

inductive SinkFault where
  | insideRow
  | betweenRows
deriving DecidableEq, Repr

/-- A writer to a sink of limited room. A row counts when its line feed is taken. -/
structure SinkWriter where
  rowsWritten : Nat
  outlet : Outlet
deriving DecidableEq, Repr

namespace SinkWriter

def new (room : Nat) : SinkWriter := ⟨0, .new room⟩

def writeRow (writer : SinkWriter) (row : Row) : SinkWriter × Option SinkFault :=
  match writer.outlet.putAll (row.pieces.map byteCount) with
  | (outlet, false) => ({ writer with outlet }, some .insideRow)
  | (outlet, true) =>
    match outlet.put (byteCount ['\n']) with
    | (outlet, false) => ({ writer with outlet }, some .betweenRows)
    | (outlet, true) => (⟨writer.rowsWritten + 1, outlet⟩, none)

def writeRows (writer : SinkWriter) : List Row → SinkWriter × Option SinkFault
  | [] =>
    let (outlet, flushed) := writer.outlet.flush
    ({ writer with outlet }, if flushed then none else some .betweenRows)
  | row :: rest =>
    match writer.writeRow row with
    | (writer, none) => writer.writeRows rest
    | failed => failed

def writeTable (writer : SinkWriter) (table : Table) : SinkWriter × Option SinkFault :=
  writer.writeRows table.rows

def close? (writer : SinkWriter) : Option Nat := writer.outlet.close?

end SinkWriter
end TableAlgebra
