import TableAlgebra.Json.Basic
import TableAlgebra.Number.Notation

namespace TableAlgebra

/-- JSON numbers are positional while the leading digit's exponent is between
-5 and 15, and an integral one then ends in `.0`. -/
def jsonNumberFormat : NumberFormat where
  tie := .even
  pointZero := true
  positional := some (-5, 15)
  nan := "null"
  infinity := "null"

def hexDigit (n : Nat) : Char := Nat.digitChar (n % 16)

def escapeChar (c : Char) : List Char :=
  match c with
  | '"' => ['\\', '"']
  | '\\' => ['\\', '\\']
  | '\x08' => ['\\', 'b']
  | '\t' => ['\\', 't']
  | '\n' => ['\\', 'n']
  | '\x0c' => ['\\', 'f']
  | '\r' => ['\\', 'r']
  | c =>
    if c.toNat < 32 then ['\\', 'u', '0', '0', hexDigit (c.toNat / 16), hexDigit c.toNat]
    else [c]

def quoted (s : String) : List Char := '"' :: s.toList.flatMap escapeChar ++ ['"']

def writeReal (x : Binary64) : List Char :=
  if x.isFinite then jsonNumberFormat.write x else "null".toList

def writeInt (i : Int) : List Char := (toString i).toList

def commaSeparated : List (List Char) → List Char
  | [] => []
  | [part] => part
  | part :: rest => part ++ ',' :: commaSeparated rest

def writeBool (b : Bool) : List Char := if b then "true".toList else "false".toList

def JsonNumber.write : JsonNumber → List Char
  | .integer i => writeInt i
  | .real x => writeReal x

namespace Json

mutual

def write : Json → List Char
  | null => "null".toList
  | bool b => writeBool b
  | number n => n.write
  | string s => quoted s
  | array items => '[' :: commaSeparated (writeItems items) ++ [']']
  | object members => '{' :: commaSeparated (writeMembers members) ++ ['}']

def writeItems : List Json → List (List Char)
  | [] => []
  | item :: rest => item.write :: writeItems rest

def writeMembers : List (String × Json) → List (List Char)
  | [] => []
  | (name, value) :: rest => (quoted name ++ ':' :: value.write) :: writeMembers rest

end

def lineBreak (level : Nat) : List Char := '\n' :: List.replicate (2 * level) ' '

/-- A bracketed list with each part on a line; an empty one stays closed up. -/
def block (opening closing : Char) (level : Nat) (parts : List (List Char)) : List Char :=
  if parts.isEmpty then [opening, closing]
  else opening :: commaSeparated (parts.map (lineBreak (level + 1) ++ ·)) ++
    lineBreak level ++ [closing]

mutual

def writeIndented (level : Nat) : Json → List Char
  | null => "null".toList
  | bool b => writeBool b
  | number n => n.write
  | string s => quoted s
  | array items => block '[' ']' level (indentedItems (level + 1) items)
  | object members => block '{' '}' level (indentedMembers (level + 1) members)

def indentedItems (level : Nat) : List Json → List (List Char)
  | [] => []
  | item :: rest => item.writeIndented level :: indentedItems level rest

def indentedMembers (level : Nat) : List (String × Json) → List (List Char)
  | [] => []
  | (name, value) :: rest =>
    (quoted name ++ ':' :: ' ' :: value.writeIndented level) :: indentedMembers level rest

end

def text (j : Json) : String := String.ofList j.write

def indentedText (j : Json) : String := String.ofList (j.writeIndented 0)

end Json
end TableAlgebra
