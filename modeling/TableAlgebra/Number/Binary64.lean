import TableAlgebra.Number.Word

/-!
Binary64 numbers as their 64 bits. Every finite one is a whole number of units
of 2^-1074, the least positive magnitude, so sums, products and quotients are
first formed exactly in integers and then rounded once, to the nearest
magnitude with ties to the even one. An infinity stands one step above the
greatest finite magnitude, at 2^1024.
-/
namespace TableAlgebra

structure Binary64 where
  bits : UInt64
deriving DecidableEq, Repr, Inhabited

namespace Binary64

def signBit : Nat := 0x8000000000000000

def fractionCount : Nat := 0x10000000000000

def magnitude (x : Binary64) : Nat := x.bits.toNat % signBit

def isNegative (x : Binary64) : Bool := signBit ≤ x.bits.toNat

def infinite : Nat := 0x7ff0000000000000

def isNaN (x : Binary64) : Bool := infinite < x.magnitude

def isInfinite (x : Binary64) : Bool := x.magnitude == infinite

def isFinite (x : Binary64) : Bool := x.magnitude < infinite

def unitsPerOne : Nat := 1 <<< 1074

def magnitudeUnits (m : Nat) : Nat :=
  if m < fractionCount then m
  else (fractionCount + m % fractionCount) <<< (m / fractionCount - 1)

/-- The exact value in units of 2^-1074; an infinity counts as 2^1024. -/
def units (x : Binary64) : Int :=
  if x.isNegative then -(magnitudeUnits x.magnitude : Int) else magnitudeUnits x.magnitude

def roundQuotient (num den : Nat) : Nat :=
  let quotient := num / den
  let twice := 2 * (num % den)
  if twice < den then quotient
  else if den < twice then quotient + 1
  else quotient + quotient % 2

/-- The magnitude nearest to `num / den` units. From 2^52 units on, the
magnitudes between two powers of two are evenly spaced, and the magnitudes are
numbered without gaps across the powers. -/
def nearestMagnitude (num den : Nat) : Nat :=
  let spacing := (num / den).log2 - 52
  min infinite (spacing * fractionCount + roundQuotient num (den <<< spacing))

def ofMagnitude (negative : Bool) (m : Nat) : Binary64 :=
  ⟨UInt64.ofNat (if negative then signBit + m else m)⟩

def nan : Binary64 := ⟨0x7ff8000000000000⟩

def zero : Binary64 := ofMagnitude false 0

def negativeZero : Binary64 := ofMagnitude true 0

def ofInt (i : Int) : Binary64 :=
  ofMagnitude (i < 0) (nearestMagnitude (i.natAbs * unitsPerOne) 1)

def ofNat (n : Nat) : Binary64 := ofInt n

def neg (x : Binary64) : Binary64 := ofMagnitude (!x.isNegative) x.magnitude

/-- The rounded sum. A sum of exactly zero is negative only when both terms are
signed negative. -/
def add (x y : Binary64) : Binary64 :=
  if x.isNaN || y.isNaN then nan
  else if x.isInfinite then
    if y.isInfinite && x.isNegative != y.isNegative then nan else x
  else if y.isInfinite then y
  else
    let sum := x.units + y.units
    if sum = 0 then ofMagnitude (x.isNegative && y.isNegative) 0
    else ofMagnitude (sum < 0) (nearestMagnitude sum.natAbs 1)

def mul (x y : Binary64) : Binary64 :=
  let negative := x.isNegative != y.isNegative
  if x.isNaN || y.isNaN then nan
  else if x.isInfinite || y.isInfinite then
    if x.magnitude = 0 || y.magnitude = 0 then nan else ofMagnitude negative infinite
  else
    ofMagnitude negative
      (nearestMagnitude (magnitudeUnits x.magnitude * magnitudeUnits y.magnitude) unitsPerOne)

def div (x y : Binary64) : Binary64 :=
  let negative := x.isNegative != y.isNegative
  if x.isNaN || y.isNaN then nan
  else if x.isInfinite then
    if y.isInfinite then nan else ofMagnitude negative infinite
  else if y.isInfinite then ofMagnitude negative 0
  else if y.magnitude = 0 then
    if x.magnitude = 0 then nan else ofMagnitude negative infinite
  else
    ofMagnitude negative
      (nearestMagnitude (magnitudeUnits x.magnitude * unitsPerOne) (magnitudeUnits y.magnitude))

instance : Neg Binary64 := ⟨neg⟩
instance : Add Binary64 := ⟨add⟩
instance : Mul Binary64 := ⟨mul⟩
instance : Div Binary64 := ⟨div⟩

def equal (x y : Binary64) : Bool := !x.isNaN && !y.isNaN && x.units == y.units

def order (x y : Binary64) : Ordering :=
  match x.isNaN, y.isNaN with
  | true, true => .eq
  | true, false => .gt
  | false, true => .lt
  | false, false => compare x.units y.units

def exactInt? (x : Binary64) : Option Int64 :=
  let whole := x.units / unitsPerOne
  if whole * unitsPerOne = x.units then int64? whole else none

end Binary64
end TableAlgebra
