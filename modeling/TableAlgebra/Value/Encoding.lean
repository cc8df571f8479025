import TableAlgebra.Value.Basic

/-!
The bytes that identify a value. Each kind has a tag, and every text, list and
record carries its length, so no value's bytes begin another's. Numbers that
are equal have the same bytes, all NaNs count as one, and the entries of a
record stand in the order of their names.
-/
namespace TableAlgebra

def littleEndian : Nat → Nat → List UInt8
  | 0, _ => []
  | count + 1, n => UInt8.ofNat n :: littleEndian count (n / 256)

def wordBytes (n : Nat) : List UInt8 := littleEndian 8 n

def utf8Bytes (s : String) : List UInt8 := s.toUTF8.data.toList

namespace Value

def textBytes (s : String) : List UInt8 := wordBytes (utf8Bytes s).length ++ utf8Bytes s

def intBytes (i : Int64) : List UInt8 := 2 :: wordBytes i.toUInt64.toNat

/-- An integral number is encoded as the integer that it equals. -/
def floatBytes (x : Binary64) : List UInt8 :=
  match x.exactInt? with
  | some i => intBytes i
  | none => 3 :: wordBytes (if x.isNaN then Binary64.nan else x).bits.toNat

def sortEntries {α : Type} (entries : List (String × α)) : List (String × α) :=
  entries.mergeSort fun a b => (compare a.1 b.1).isLE

mutual

def encode : Value → List UInt8
  | null => [0]
  | bool b => [1, if b then 1 else 0]
  | int i => intBytes i
  | float x => floatBytes x
  | str s => 4 :: textBytes s
  | list items => 5 :: wordBytes items.length ++ encodeItems items
  | record entries =>
    6 :: wordBytes entries.length ++
      (sortEntries (encodeEntries entries)).flatMap fun entry => textBytes entry.1 ++ entry.2

def encodeItems : List Value → List UInt8
  | [] => []
  | item :: rest => item.encode ++ encodeItems rest

def encodeEntries : List (String × Value) → List (String × List UInt8)
  | [] => []
  | (name, value) :: rest => (name, value.encode) :: encodeEntries rest

end

end Value
end TableAlgebra
