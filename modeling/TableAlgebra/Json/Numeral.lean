import TableAlgebra.Number.Binary64

/-!
Numbers as they are written in JSON, and what they stand for. One without point
and exponent is an integer when 64 bits hold it. Any other is a binary64
number: as many leading digits as fit 64 bits, rounded once, then scaled by
powers of ten of at most 10^308, each step rounded.
-/
namespace TableAlgebra

inductive JsonNumber where
  | integer (i : Int)
  | real (x : Binary64)
deriving DecidableEq, Repr

structure Numeral where
  negative : Bool
  whole : List Nat
  fraction : Option (List Nat)
  exponent : Option Int
deriving DecidableEq, Repr

namespace Numeral

def ofDigits (digits : List Nat) : Nat := digits.foldl (fun n digit => n * 10 + digit) 0

/-- Appends digits to a natural number as long as it fits 64 bits. Also tells
how many digits are left over. -/
def appendDigits : Nat → List Nat → Nat × Nat
  | n, [] => (n, 0)
  | n, digit :: rest =>
    if n * 10 + digit < wordCount then appendDigits (n * 10 + digit) rest
    else (n, rest.length + 1)

def powerOfTen (n : Nat) : Binary64 := Binary64.ofNat (Nat.pow 10 n)

def scaleDown (x : Binary64) (n : Nat) : Binary64 :=
  if n ≤ 308 then x / powerOfTen n
  else if x.magnitude = 0 then x
  else scaleDown (x / powerOfTen 308) (n - 308)
termination_by n

def scaleUp? (x : Binary64) (n : Nat) : Option Binary64 :=
  if x.magnitude = 0 then some x
  else if n ≤ 308 then
    let product := x * powerOfTen n
    if product.isInfinite then none else some product
  else none

def scale? (significand : Nat) (exponent : Int) : Option Binary64 :=
  let x := Binary64.ofNat significand
  if 0 ≤ exponent then scaleUp? x exponent.toNat else some (scaleDown x (-exponent).toNat)

/-- The binary64 value: scaled up for every digit left over before the point and
down for every digit taken behind it. -/
def real? (n : Numeral) : Option Binary64 :=
  let fraction := n.fraction.getD []
  let (whole, wholeLeft) := appendDigits 0 n.whole
  let (significand, fractionLeft) := appendDigits whole fraction
  let exponent : Int := wholeLeft - (fraction.length - fractionLeft : Nat) + n.exponent.getD 0
  (scale? significand exponent).map fun x => if n.negative then -x else x

def value? (n : Numeral) : Option JsonNumber :=
  let whole := ofDigits n.whole
  if n.fraction.isSome || n.exponent.isSome then n.real?.map .real
  else if n.negative then
    if 0 < whole ∧ (int64? (-whole)).isSome then some (.integer (-whole))
    else n.real?.map .real
  else if whole < wordCount then some (.integer whole)
  else n.real?.map .real

end Numeral
end TableAlgebra
