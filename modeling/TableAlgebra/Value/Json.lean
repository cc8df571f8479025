import TableAlgebra.Json.Writer
import TableAlgebra.Value.Basic

/-!
Values and JSON: the document of a value, its text written directly, its
display text, and the two ways in which a document becomes a value. One way
converts its tree; the other tries the kinds of value in turn on the document
itself.
-/
namespace TableAlgebra
namespace Value

def realJson (x : Binary64) : Json := if x.isFinite then .number (.real x) else .null

mutual

def toJson : Value → Json
  | null => .null
  | bool b => .bool b
  | int i => .number (.integer i.toInt)
  | float x => realJson x
  | str s => .string s
  | list items => .array (itemsJson items)
  | record entries => .object (entriesJson entries)

def itemsJson : List Value → List Json
  | [] => []
  | item :: rest => item.toJson :: itemsJson rest

def entriesJson : List (String × Value) → List (String × Json)
  | [] => []
  | (name, value) :: rest => (name, value.toJson) :: entriesJson rest

end

mutual

def write : Value → List Char
  | null => "null".toList
  | bool b => writeBool b
  | int i => writeInt i.toInt
  | float x => writeReal x
  | str s => quoted s
  | list items => '[' :: commaSeparated (writeItems items) ++ [']']
  | record entries => '{' :: commaSeparated (writeEntries entries) ++ ['}']

def writeItems : List Value → List (List Char)
  | [] => []
  | item :: rest => item.write :: writeItems rest

def writeEntries : List (String × Value) → List (List Char)
  | [] => []
  | (name, value) :: rest => (quoted name ++ ':' :: value.write) :: writeEntries rest

end

def text (v : Value) : String := String.ofList v.write

def displayFormat : NumberFormat where
  tie := .up
  pointZero := false
  positional := none
  nan := "NaN"
  infinity := "inf"

def display : Value → String
  | null => "null"
  | bool b => if b then "true" else "false"
  | int i => toString i.toInt
  | float x => String.ofList (displayFormat.write x)
  | str s => s
  | v => v.toJson.text

def ofJsonNumber : JsonNumber → Value
  | .integer i => ofInteger i
  | .real x => float x

mutual

def ofJson : Json → Value
  | .null => null
  | .bool b => bool b
  | .number n => ofJsonNumber n
  | .string s => str s
  | .array items => list (itemsOfJson items)
  | .object members => record (entriesOfJson members)

def itemsOfJson : List Json → List Value
  | [] => []
  | item :: rest => ofJson item :: itemsOfJson rest

def entriesOfJson : List (String × Json) → List (String × Value)
  | [] => []
  | (name, value) :: rest => (name, ofJson value) :: entriesOfJson rest

end

def null? : Document → Option Value
  | .null => some null
  | _ => none

def bool? : Document → Option Value
  | .bool b => some (bool b)
  | _ => none

def int? : Document → Option Value
  | .numeral n =>
    match n.value? with
    | some (.integer i) => (int64? i).map int
    | _ => none
  | _ => none

def float? : Document → Option Value
  | .numeral n =>
    n.value?.map fun
      | .integer i => float (Binary64.ofInt i)
      | .real x => float x
  | _ => none

def str? : Document → Option Value
  | .string pieces => (Piece.join? pieces).map str
  | _ => none

mutual

/-- The first kind of value that takes the document: null, truth value, integer,
binary64 number, string, list, record. -/
def ofDocument? : Nat → Document → Option Value
  | depth + 1, .array items => (itemsOfDocuments? depth items).map list
  | depth + 1, .object members =>
    (entriesOfDocuments? depth members).map fun entries =>
      record (Entries.ofList entries).toList
  | _, d => null? d <|> bool? d <|> int? d <|> float? d <|> str? d

def itemsOfDocuments? : Nat → List Document → Option (List Value)
  | _, [] => some []
  | depth, item :: rest => do
    let first ← ofDocument? depth item
    let others ← itemsOfDocuments? depth rest
    some (first :: others)

def entriesOfDocuments? : Nat → List (List Piece × Document) → Option (List (String × Value))
  | _, [] => some []
  | depth, (name, value) :: rest => do
    let name ← Piece.join? name
    let first ← ofDocument? depth value
    let others ← entriesOfDocuments? depth rest
    some ((name, first) :: others)

end

end Value
end TableAlgebra
