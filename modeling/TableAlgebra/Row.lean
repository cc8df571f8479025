import TableAlgebra.Value.Equality
import TableAlgebra.Value.Json
import TableAlgebra.Value.Encoding
import TableAlgebra.Digest.Blake3

/-!
Rows: named cells in column order, and beside them two things that no output
shows. A joined row carries the positions of the rows it was made from, and a
group row carries its member rows.
-/
namespace TableAlgebra

structure Provenance where
  left : Option Nat
  right : Option Nat
deriving DecidableEq, Repr

namespace Provenance

def pair (left right : Nat) : Provenance := ⟨some left, some right⟩
def leftOnly (left : Nat) : Provenance := ⟨some left, none⟩
def rightOnly (right : Nat) : Provenance := ⟨none, some right⟩

end Provenance

structure Row where
  cells : Entries Value
  provenance : Option Provenance
  members : Option (List Row)

inductive SchemaError where
  | rowNotObject (found : Json)
  | rowsNotArray

def SchemaError.message : SchemaError → String
  | rowNotObject found => "Schema error: a row must be a JSON object, got " ++ found.text
  | rowsNotArray => "Schema error: table rows must be a JSON array"

namespace Row

def ofCells (cells : Entries Value) : Row := ⟨cells, none, none⟩

def empty : Row := ofCells .empty

instance : Inhabited Row := ⟨empty⟩

def get? (row : Row) (column : String) : Option Value := row.cells.get? column

def value (row : Row) (column : String) : Value := (row.get? column).getD .null

def contains (row : Row) (column : String) : Bool := row.cells.contains column

def size (row : Row) : Nat := row.cells.size

def columns (row : Row) : List String := row.cells.names

def insert (row : Row) (column : String) (value : Value) : Row :=
  { row with cells := row.cells.insert column value }

def remove (row : Row) (column : String) : Row :=
  { row with cells := row.cells.erase column }

def visible (row : Row) : Row := ofCells row.cells

/-- The listed columns that the row has, in the listed order, each under its
output name. -/
def project (row : Row) (columns : List (String × String)) : Row :=
  ofCells (Entries.ofList (columns.filterMap fun (column, output) =>
    (row.get? column).map (output, ·)))

mutual

def equal : Row → Row → Bool
  | ⟨cells, provenance, members⟩, ⟨cells', provenance', members'⟩ =>
    (Value.record cells.toList).equal (.record cells'.toList) &&
      provenance == provenance' && equalMembers members members'

def equalMembers : Option (List Row) → Option (List Row) → Bool
  | none, none => true
  | some a, some b => equalRows a b
  | _, _ => false

def equalRows : List Row → List Row → Bool
  | [], [] => true
  | a :: as, b :: bs => a.equal b && equalRows as bs
  | _, _ => false

end

def toJson (row : Row) : Json := .object (Value.entriesJson row.cells.toList)

def write (row : Row) : List Char :=
  '{' :: commaSeparated (Value.writeEntries row.cells.toList) ++ ['}']

def text (row : Row) : String := String.ofList row.write

def ofJson : Json → Except SchemaError Row
  | .object members => .ok (ofCells (Entries.ofList (Value.entriesOfJson members)))
  | found => .error (.rowNotObject found)

def ofDocument? : Nat → Document → Option Row
  | depth + 1, .object members =>
    (Value.entriesOfDocuments? depth members).map fun entries => ofCells (Entries.ofList entries)
  | _, _ => none

def parse? (text : String) : Option Row :=
  (Document.parse? text).bind (ofDocument? Document.maxDepth)

/-- The bytes that identify the values of some columns: their number, then each
value in turn. -/
def keyBytes (row : Row) (columns : List String) : List UInt8 :=
  wordBytes columns.length ++ columns.flatMap fun column => (row.value column).encode

def key (row : Row) (columns : List String) : Digest := Blake3.digest (row.keyBytes columns)

end Row
end TableAlgebra
