import TableAlgebra.Entries
import TableAlgebra.Number.Binary64

/-!
Cell values. A column may hold any value in any row. Integers and binary64
numbers are both numbers; a record keeps its entries in order.
-/
namespace TableAlgebra

inductive Value where
  | null
  | bool (b : Bool)
  | int (i : Int64)
  | float (x : Binary64)
  | str (s : String)
  | list (items : List Value)
  | record (entries : List (String × Value))
deriving Repr, Inhabited

inductive Kind where
  | null
  | bool
  | number
  | string
  | list
  | record
deriving DecidableEq, Repr

namespace Kind

def name : Kind → String
  | null => "null"
  | bool => "bool"
  | number => "number"
  | string => "string"
  | list => "list"
  | record => "record"

def rank : Kind → Nat
  | null => 0
  | bool => 1
  | number => 2
  | string => 3
  | list => 4
  | record => 5

theorem rank_injective {a b : Kind} (same : a.rank = b.rank) : a = b := by
  revert same
  cases a <;> cases b <;> decide

end Kind

namespace Value

def kind : Value → Kind
  | null => .null
  | bool _ => .bool
  | int _ => .number
  | float _ => .number
  | str _ => .string
  | list _ => .list
  | record _ => .record

def isNull : Value → Bool
  | null => true
  | _ => false

def isNumber (v : Value) : Bool := v.kind == .number

def toReal? : Value → Option Binary64
  | int i => some (Binary64.ofInt i.toInt)
  | float x => some x
  | _ => none

def toInt? : Value → Option Int64
  | int i => some i
  | _ => none

def toText? : Value → Option String
  | str s => some s
  | _ => none

def toBool? : Value → Option Bool
  | bool b => some b
  | _ => none

def ofInteger (i : Int) : Value :=
  match int64? i with
  | some w => int w
  | none => float (Binary64.ofInt i)

mutual

/-- The value and every value inside it, at any depth, has the property. -/
def Everywhere (holds : Value → Prop) : Value → Prop
  | list items => holds (list items) ∧ EverywhereItems holds items
  | record entries => holds (record entries) ∧ EverywhereEntries holds entries
  | v => holds v

def EverywhereItems (holds : Value → Prop) : List Value → Prop
  | [] => True
  | item :: rest => item.Everywhere holds ∧ EverywhereItems holds rest

def EverywhereEntries (holds : Value → Prop) : List (String × Value) → Prop
  | [] => True
  | (_, value) :: rest => value.Everywhere holds ∧ EverywhereEntries holds rest

end

section Decision

variable (holds : Value → Prop) [DecidablePred holds]

mutual

def decideEverywhere : (v : Value) → Decidable (v.Everywhere holds)
  | null => inferInstanceAs (Decidable (holds null))
  | bool b => inferInstanceAs (Decidable (holds (bool b)))
  | int i => inferInstanceAs (Decidable (holds (int i)))
  | float x => inferInstanceAs (Decidable (holds (float x)))
  | str s => inferInstanceAs (Decidable (holds (str s)))
  | list items =>
    have := decideItems items
    inferInstanceAs (Decidable (holds (list items) ∧ EverywhereItems holds items))
  | record entries =>
    have := decideEntries entries
    inferInstanceAs (Decidable (holds (record entries) ∧ EverywhereEntries holds entries))

def decideItems : (items : List Value) → Decidable (EverywhereItems holds items)
  | [] => .isTrue trivial
  | item :: rest =>
    have := decideEverywhere item
    have := decideItems rest
    inferInstanceAs (Decidable (item.Everywhere holds ∧ EverywhereItems holds rest))

def decideEntries : (entries : List (String × Value)) → Decidable (EverywhereEntries holds entries)
  | [] => .isTrue trivial
  | (_, value) :: rest =>
    have := decideEverywhere value
    have := decideEntries rest
    inferInstanceAs (Decidable (value.Everywhere holds ∧ EverywhereEntries holds rest))

end

instance (v : Value) : Decidable (v.Everywhere holds) := decideEverywhere holds v

end Decision

def NamesDistinct : Value → Prop
  | record entries => (entries.map Prod.fst).Nodup
  | _ => True

instance : DecidablePred NamesDistinct
  | record entries => inferInstanceAs (Decidable (entries.map Prod.fst).Nodup)
  | null | bool _ | int _ | float _ | str _ | list _ => .isTrue trivial

def WellFormed (v : Value) : Prop := v.Everywhere NamesDistinct

instance (v : Value) : Decidable v.WellFormed :=
  inferInstanceAs (Decidable (v.Everywhere NamesDistinct))

end Value
end TableAlgebra
