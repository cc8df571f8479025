import TableAlgebra.Value.Basic

/-!
The order of values. Values of different kinds stand in the order of their
kinds, null first. Two integers compare exactly; an integer and a binary64
number compare as binary64 numbers, every NaN behind all others. Lists compare
item by item and records entry by entry, in stored order, a shorter one first.
-/
namespace TableAlgebra
namespace Value

mutual

def order : Value → Value → Ordering
  | bool a, bool b => compare a b
  | int a, int b => compare a b
  | int a, float y => (Binary64.ofInt a.toInt).order y
  | float x, int b => x.order (Binary64.ofInt b.toInt)
  | float x, float y => x.order y
  | str a, str b => compare a b
  | list a, list b => orderItems a b
  | record a, record b => orderEntries a b
  | a, b => compare a.kind.rank b.kind.rank

def orderItems : List Value → List Value → Ordering
  | [], [] => .eq
  | [], _ :: _ => .lt
  | _ :: _, [] => .gt
  | a :: as, b :: bs => (a.order b).then (orderItems as bs)

def orderEntries : List (String × Value) → List (String × Value) → Ordering
  | [], [] => .eq
  | [], _ :: _ => .lt
  | _ :: _, [] => .gt
  | (name, value) :: rest, (other, against) :: others =>
    ((compare name other).then (value.order against)).then (orderEntries rest others)

end

/-- Only values of one kind compare, and a null compares with nothing. -/
def compare? (a b : Value) : Option Ordering :=
  if a.kind = b.kind ∧ a.kind ≠ .null then some (a.order b) else none

end Value
end TableAlgebra
