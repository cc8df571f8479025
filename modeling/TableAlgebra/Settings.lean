import TableAlgebra.Json.Writer
import TableAlgebra.Text.Blank

/-!
The two settings of a query: what an outer join does when there are no columns
to pad with, and where a sort by columns puts nulls. They are read from words,
from JSON and from the environment.
-/
namespace TableAlgebra

inductive PaddingPolicy where
  | error
  /-- the row stands with its own columns alone -/
  | leftOnly
deriving DecidableEq, Repr, Inhabited

inductive NullOrder where
  | first
  | last
deriving DecidableEq, Repr, Inhabited

inductive SettingError where
  | unknownPadding (word : String)
  | unknownNullOrder (word : String)
deriving DecidableEq, Repr

def SettingError.message : SettingError → String
  | unknownPadding word => "Invalid configuration: unknown padding policy '" ++ word ++ "'"
  | unknownNullOrder word => "Invalid configuration: unknown null ordering '" ++ word ++ "'"

def settingWord (text : String) : String := lowerAscii (trimWhiteSpace text)

namespace PaddingPolicy

def name : PaddingPolicy → String
  | error => "error"
  | leftOnly => "left-only"

def parse (text : String) : Except SettingError PaddingPolicy :=
  match settingWord text with
  | "error" => .ok error
  | "left-only" => .ok leftOnly
  | "left_only" => .ok leftOnly
  | word => .error (.unknownPadding word)

def ofDocument? (d : Document) : Option PaddingPolicy :=
  match d.choice? with
  | some "error" => some error
  | some "left-only" => some leftOnly
  | _ => none

end PaddingPolicy

namespace NullOrder

def name : NullOrder → String
  | first => "first"
  | last => "last"

def parse (text : String) : Except SettingError NullOrder :=
  match settingWord text with
  | "first" => .ok first
  | "last" => .ok last
  | word => .error (.unknownNullOrder word)

def ofDocument? (d : Document) : Option NullOrder :=
  match d.choice? with
  | some "first" => some first
  | some "last" => some last
  | _ => none

end NullOrder

structure Settings where
  padding : PaddingPolicy
  nulls : NullOrder
deriving DecidableEq, Repr, Inhabited

namespace Settings

def default : Settings := ⟨.error, .first⟩

def paddingField : String := "outer_join_padding"
def nullsField : String := "null_ordering"

def toJson (settings : Settings) : Json :=
  .object [(paddingField, .string settings.padding.name), (nullsField, .string settings.nulls.name)]

/-- Settings as an object, whatever else it has, or as an array of up to two
values. What is missing has its default. -/
def ofDocument? : Document → Option Settings
  | .object members => do
    let members ← Document.namedMembers? members
    let padding ←
      Document.optionalMember? members paddingField default.padding PaddingPolicy.ofDocument?
    let nulls ← Document.optionalMember? members nullsField default.nulls NullOrder.ofDocument?
    some ⟨padding, nulls⟩
  | .array [] => some default
  | .array [padding] => do some ⟨← PaddingPolicy.ofDocument? padding, default.nulls⟩
  | .array [padding, nulls] => do
    some ⟨← PaddingPolicy.ofDocument? padding, ← NullOrder.ofDocument? nulls⟩
  | _ => none

def parse? (text : String) : Option Settings := (Document.parse? text).bind ofDocument?

def paddingVariable : String := "SQLTOY_OUTER_JOIN_PADDING"
def nullsVariable : String := "SQLTOY_NULL_ORDERING"

def ofEnvironment (environment : String → Option String) : Settings where
  padding := match (environment paddingVariable).map PaddingPolicy.parse with
    | some (.ok padding) => padding
    | _ => default.padding
  nulls := match (environment nullsVariable).map NullOrder.parse with
    | some (.ok nulls) => nulls
    | _ => default.nulls

end Settings
end TableAlgebra
