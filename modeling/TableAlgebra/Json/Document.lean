import TableAlgebra.Json.Numeral

/-!
JSON documents as they are written, and the reader of the grammar. A document
keeps numbers by their digits, strings by their pieces and every member of an
object. What a number or an escape stands for, and how deep a document may be
nested, is decided only where the document is used.
-/
namespace TableAlgebra

variable {α : Type}

inductive Piece where
  | char (c : Char)
  | unit (n : Nat)
deriving DecidableEq, Repr

inductive Document where
  | null
  | bool (b : Bool)
  | numeral (n : Numeral)
  | string (pieces : List Piece)
  | array (items : List Document)
  | object (members : List (List Piece × Document))
deriving Repr, Inhabited

namespace Piece

def isFirstSurrogate (n : Nat) : Bool := 0xD800 ≤ n && n < 0xDC00

def isSecondSurrogate (n : Nat) : Bool := 0xDC00 ≤ n && n < 0xE000

/-- The text of some pieces behind the characters `read`, the last one first.
A first surrogate needs a second one right behind it, and no other unit may be
a surrogate. -/
def joinTo (read : List Char) : List Piece → Option String
  | [] => some (String.ofList read.reverse)
  | char c :: rest => joinTo (c :: read) rest
  | unit first :: unit second :: rest =>
    if isFirstSurrogate first then
      if isSecondSurrogate second then
        joinTo (Char.ofNat (0x10000 + (first - 0xD800) * 0x400 + (second - 0xDC00)) :: read) rest
      else none
    else if isSecondSurrogate first then none
    else joinTo (Char.ofNat first :: read) (unit second :: rest)
  | unit n :: rest =>
    if isFirstSurrogate n || isSecondSurrogate n then none
    else joinTo (Char.ofNat n :: read) rest

def join? (pieces : List Piece) : Option String := joinTo [] pieces

end Piece

namespace Document

def isBlank (c : Char) : Bool := c = ' ' || c = '\t' || c = '\n' || c = '\r'

def skipBlanks (cs : List Char) : List Char := cs.dropWhile isBlank

def readDigits (cs : List Char) : List Nat × List Char :=
  ((cs.takeWhile Char.isDigit).map fun c => c.toNat - '0'.toNat, cs.dropWhile Char.isDigit)

def readWhole : List Char → Option (List Nat × List Char)
  | '0' :: rest => if rest.head?.any Char.isDigit then none else some ([0], rest)
  | cs =>
    match readDigits cs with
    | ([], _) => none
    | found => some found

def readFraction : List Char → Option (Option (List Nat) × List Char)
  | '.' :: rest =>
    match readDigits rest with
    | ([], _) => none
    | (digits, rest) => some (some digits, rest)
  | cs => some (none, cs)

def readSign : List Char → Bool × List Char
  | '+' :: rest => (false, rest)
  | '-' :: rest => (true, rest)
  | cs => (false, cs)

def readExponent : List Char → Option (Option Int × List Char)
  | [] => some (none, [])
  | c :: rest =>
    if c = 'e' || c = 'E' then
      let (negative, rest) := readSign rest
      match readDigits rest with
      | ([], _) => none
      | (digits, rest) =>
        let size : Int := Numeral.ofDigits digits
        some (some (if negative then -size else size), rest)
    else some (none, c :: rest)

def readNumeral (cs : List Char) : Option (Numeral × List Char) := do
  let (negative, cs) := match cs with
    | '-' :: rest => (true, rest)
    | cs => (false, cs)
  let (whole, cs) ← readWhole cs
  let (fraction, cs) ← readFraction cs
  let (exponent, cs) ← readExponent cs
  some ({ negative, whole, fraction, exponent }, cs)

def hexValue? (c : Char) : Option Nat :=
  if c.isDigit then some (c.toNat - '0'.toNat)
  else if 'a' ≤ c && c ≤ 'f' then some (c.toNat - 'a'.toNat + 10)
  else if 'A' ≤ c && c ≤ 'F' then some (c.toNat - 'A'.toNat + 10)
  else none

def escaped? : Char → Option Char
  | '"' => some '"'
  | '\\' => some '\\'
  | '/' => some '/'
  | 'b' => some '\x08'
  | 'f' => some '\x0c'
  | 'n' => some '\n'
  | 'r' => some '\r'
  | 't' => some '\t'
  | _ => none

/-- Where the reader stands inside a string: outside an escape, behind a
backslash, or inside a unit with some digits still to come. -/
inductive Place where
  | outside
  | escape
  | unit (left : Nat) (value : Nat)

def readPieces : Place → List Piece → List Char → Option (List Piece × List Char)
  | _, _, [] => none
  | .outside, read, c :: rest =>
    if c = '"' then some (read.reverse, rest)
    else if c = '\\' then readPieces .escape read rest
    else if c.toNat < 32 then none
    else readPieces .outside (.char c :: read) rest
  | .escape, read, c :: rest =>
    if c = 'u' then readPieces (.unit 3 0) read rest
    else
      match escaped? c with
      | some c => readPieces .outside (.char c :: read) rest
      | none => none
  | .unit left value, read, c :: rest =>
    match hexValue? c, left with
    | none, _ => none
    | some digit, 0 => readPieces .outside (.unit (value * 16 + digit) :: read) rest
    | some digit, left + 1 => readPieces (.unit left (value * 16 + digit)) read rest

def readString : List Char → Option (List Piece × List Char)
  | '"' :: rest => readPieces .outside [] rest
  | _ => none

def readScalar : List Char → Option (Document × List Char)
  | 'n' :: 'u' :: 'l' :: 'l' :: rest => some (null, rest)
  | 't' :: 'r' :: 'u' :: 'e' :: rest => some (bool true, rest)
  | 'f' :: 'a' :: 'l' :: 's' :: 'e' :: rest => some (bool false, rest)
  | '"' :: rest => (readPieces .outside [] rest).map fun (pieces, rest) => (string pieces, rest)
  | cs => (readNumeral cs).map fun (n, rest) => (numeral n, rest)

/-- One or more items with commas between them, up to the closing bracket. Each
item takes at least one character, so their number bounds `fuel`. -/
def readItems (item : List Char → Option (α × List Char)) (closing : Char) :
    Nat → List Char → Option (List α × List Char)
  | 0, _ => none
  | fuel + 1, cs => do
    let (x, rest) ← item (skipBlanks cs)
    match skipBlanks rest with
    | [] => none
    | c :: rest =>
      if c = ',' then
        let (xs, rest) ← readItems item closing fuel rest
        some (x :: xs, rest)
      else if c = closing then some ([x], rest)
      else none

def readMember (value : List Char → Option (α × List Char)) (cs : List Char) :
    Option ((List Piece × α) × List Char) := do
  let (name, rest) ← readString cs
  match skipBlanks rest with
  | ':' :: rest =>
    let (v, rest) ← value (skipBlanks rest)
    some ((name, v), rest)
  | _ => none

/-- A document at the front of the text. Every level of nesting takes a
character, so the length of the text bounds `depth` and `fuel`. -/
def readValue (fuel : Nat) : Nat → List Char → Option (Document × List Char)
  | 0, cs => readScalar cs
  | depth + 1, cs =>
    match cs with
    | '[' :: rest =>
      match skipBlanks rest with
      | ']' :: rest => some (array [], rest)
      | rest =>
        (readItems (readValue fuel depth) ']' fuel rest).map fun (items, rest) =>
          (array items, rest)
    | '{' :: rest =>
      match skipBlanks rest with
      | '}' :: rest => some (object [], rest)
      | rest =>
        (readItems (readMember (readValue fuel depth)) '}' fuel rest).map fun (members, rest) =>
          (object members, rest)
    | cs => readScalar cs

def parse? (text : String) : Option Document := do
  let cs := text.toList
  let (document, rest) ← readValue cs.length cs.length (skipBlanks cs)
  if (skipBlanks rest).isEmpty then some document else none

/-- The name of a choice without content: a string, or an object whose only
member has this name and the value null. -/
def choice? : Document → Option String
  | string pieces => Piece.join? pieces
  | object [(name, null)] => Piece.join? name
  | _ => none

def namedMembers? (members : List (List Piece × Document)) : Option (List (String × Document)) :=
  members.mapM fun (name, value) => (Piece.join? name).map (·, value)

def onlyMember? (members : List (String × Document)) (name : String) : Option Document :=
  match members.filter (·.1 == name) with
  | [(_, value)] => some value
  | _ => none

def optionalMember? (members : List (String × Document)) (name : String) (otherwise : α)
    (read : Document → Option α) : Option α :=
  match members.filter (·.1 == name) with
  | [] => some otherwise
  | [(_, value)] => read value
  | _ => none

def text? : Document → Option String
  | string pieces => Piece.join? pieces
  | _ => none

def maxDepth : Nat := 127

end Document
end TableAlgebra
