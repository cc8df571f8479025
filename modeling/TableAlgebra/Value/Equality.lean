import TableAlgebra.Value.Basic

/-!
Equality of values. An integer equals a binary64 number that is exactly that
integer; records are equal as maps, whatever the order of their entries.
-/
namespace TableAlgebra
namespace Value

mutual

/-- Equality over a given equality of binary64 numbers. -/
def equalBy (sameReal : Binary64 → Binary64 → Bool) : Value → Value → Bool
  | null, null => true
  | bool a, bool b => a == b
  | int a, int b => a == b
  | float x, float y => sameReal x y
  | int i, float x => x.exactInt? == some i
  | float x, int i => x.exactInt? == some i
  | str a, str b => a == b
  | list a, list b => equalItemsBy sameReal a b
  | record a, record b => a.length == b.length && entriesFoundBy sameReal a b
  | _, _ => false

def equalItemsBy (sameReal : Binary64 → Binary64 → Bool) : List Value → List Value → Bool
  | [], [] => true
  | a :: as, b :: bs => equalBy sameReal a b && equalItemsBy sameReal as bs
  | _, _ => false

def entriesFoundBy (sameReal : Binary64 → Binary64 → Bool) :
    List (String × Value) → List (String × Value) → Bool
  | [], _ => true
  | (name, value) :: rest, others =>
    (match others.lookup name with
      | some other => equalBy sameReal value other
      | none => false) && entriesFoundBy sameReal rest others

end

def equal (a b : Value) : Bool := equalBy Binary64.equal a b

instance : BEq Value := ⟨equal⟩

end Value
end TableAlgebra
