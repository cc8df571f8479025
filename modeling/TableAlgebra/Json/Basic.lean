import TableAlgebra.Entries
import TableAlgebra.Json.Document

/-!
JSON trees: what a document stands for. The members of an object are merged by
name, each at its first place and with its last value.
-/
namespace TableAlgebra

inductive Json where
  | null
  | bool (b : Bool)
  | number (n : JsonNumber)
  | string (s : String)
  | array (items : List Json)
  | object (members : List (String × Json))
deriving Repr, Inhabited

namespace Json

mutual

/-- The tree of a document nested at most `depth` deep. There is none where a
number is out of range or a string has a lone surrogate. -/
def ofDocument? : Nat → Document → Option Json
  | _, .null => some null
  | _, .bool b => some (bool b)
  | _, .numeral n => n.value?.map number
  | _, .string pieces => (Piece.join? pieces).map string
  | 0, .array _ => none
  | depth + 1, .array items => (itemsOfDocuments? depth items).map array
  | 0, .object _ => none
  | depth + 1, .object members =>
    (membersOfDocuments? depth members).map fun members =>
      object (Entries.ofList members).toList

def itemsOfDocuments? : Nat → List Document → Option (List Json)
  | _, [] => some []
  | depth, item :: rest => do
    let first ← ofDocument? depth item
    let others ← itemsOfDocuments? depth rest
    some (first :: others)

def membersOfDocuments? : Nat → List (List Piece × Document) → Option (List (String × Json))
  | _, [] => some []
  | depth, (name, value) :: rest => do
    let name ← Piece.join? name
    let first ← ofDocument? depth value
    let others ← membersOfDocuments? depth rest
    some ((name, first) :: others)

end

def parseWithin? (depth : Nat) (text : String) : Option Json :=
  (Document.parse? text).bind (ofDocument? depth)

def parse? (text : String) : Option Json := parseWithin? Document.maxDepth text

end Json
end TableAlgebra
