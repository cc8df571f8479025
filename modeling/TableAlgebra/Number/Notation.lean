import TableAlgebra.Number.Shortest

namespace TableAlgebra

structure NumberFormat where
  tie : Tie
  /-- whether an integral number in positional form ends in `.0` -/
  pointZero : Bool
  /-- the exponents of the leading digit that are written positionally; all, if none -/
  positional : Option (Int × Int)
  nan : String
  infinity : String

namespace NumberFormat

def zeros (n : Nat) : List Char := List.replicate n '0'

def positionalDigits (format : NumberFormat) (digits : List Char) (before : Int) : List Char :=
  if before ≤ 0 then '0' :: '.' :: zeros (-before).toNat ++ digits
  else if digits.length ≤ before.toNat then
    digits ++ zeros (before.toNat - digits.length) ++ if format.pointZero then ['.', '0'] else []
  else digits.take before.toNat ++ '.' :: digits.drop before.toNat

def exponentDigits (digits : List Char) (exponent : Int) : List Char :=
  let fraction := digits.drop 1
  digits.take 1 ++ (if fraction.isEmpty then [] else '.' :: fraction) ++
    'e' :: (if exponent < 0 then '-' else '+') :: Nat.toDigits 10 exponent.natAbs

def decimal (format : NumberFormat) (d : Decimal) : List Char :=
  let digits := Nat.toDigits 10 d.digits
  let before := digits.length + d.exponent
  let positional := match format.positional with
    | none => true
    | some (least, greatest) => least ≤ before - 1 && before - 1 ≤ greatest
  if positional then format.positionalDigits digits before
  else exponentDigits digits (before - 1)

def write (format : NumberFormat) (x : Binary64) : List Char :=
  if x.isNaN then format.nan.toList
  else
    (if x.isNegative then ['-'] else []) ++
      if x.isInfinite then format.infinity.toList
      else format.decimal (Decimal.shortest format.tie x.magnitude)

end NumberFormat
end TableAlgebra
