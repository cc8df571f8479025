import TableAlgebra.Number.Binary64

/-!
The fewest decimal digits that identify a binary64 number. A decimal reads back
to a magnitude when that magnitude is the nearest one to it. Grids of 1, 2, 3,
... significant digits are tried in turn; on a grid only the two points beside
the value can be nearest to it.
-/
namespace TableAlgebra

structure Decimal where
  digits : Nat
  exponent : Int
deriving DecidableEq, Repr

inductive Tie where
  | even
  | up
deriving DecidableEq, Repr

namespace Decimal

def readsBack (d : Decimal) (magnitude : Nat) : Bool :=
  Binary64.nearestMagnitude (d.digits * Nat.pow 10 d.exponent.toNat * Binary64.unitsPerOne)
    (Nat.pow 10 (-d.exponent).toNat) == magnitude

def digitCount (n : Nat) : Nat := if n = 0 then 0 else (Nat.toDigits 10 n).length

def scale (magnitude : Nat) : Int :=
  let units := Binary64.magnitudeUnits magnitude
  let whole := units / Binary64.unitsPerOne
  if whole = 0 then 1 - digitCount ((Binary64.unitsPerOne - 1) / units) else digitCount whole

def onGrid? (tie : Tie) (magnitude : Nat) (exponent : Int) : Option Decimal :=
  let num := Binary64.magnitudeUnits magnitude * Nat.pow 10 (-exponent).toNat
  let den := Binary64.unitsPerOne * Nat.pow 10 exponent.toNat
  let below : Decimal := ⟨num / den, exponent⟩
  let above : Decimal := ⟨num / den + 1, exponent⟩
  match below.readsBack magnitude, above.readsBack magnitude with
  | true, false => some below
  | false, true => some above
  | false, false => none
  | true, true =>
    match compare (2 * (num % den)) den with
    | .lt => some below
    | .gt => some above
    | .eq =>
      match tie with
      | .up => some above
      | .even => some (if below.digits % 2 = 0 then below else above)

def stripZeros : Nat → Decimal → Decimal
  | 0, d => d
  | fuel + 1, d =>
    if d.digits ≠ 0 ∧ d.digits % 10 = 0 then stripZeros fuel ⟨d.digits / 10, d.exponent + 1⟩
    else d

/-- The shortest decimal that reads back to the magnitude, without trailing
zeros. Seventeen digits always suffice; the exact value stands last. -/
def shortest (tie : Tie) (magnitude : Nat) : Decimal :=
  if magnitude = 0 then ⟨0, 0⟩
  else
    let found := (List.range 17).findSome? fun (n : Nat) =>
      onGrid? tie magnitude (scale magnitude - (n + 1))
    let exact : Decimal := ⟨Binary64.magnitudeUnits magnitude * Nat.pow 5 1074, -1074⟩
    let chosen := found.getD exact
    stripZeros (digitCount chosen.digits) chosen

end Decimal
end TableAlgebra
