import TableAlgebra.InPlace
import TableAlgebra.Table

/-!
A database: tables by name, in order of creation. Creating a table again empties
it and leaves it in its place. An insertion works on the database in place.
-/
namespace TableAlgebra

inductive DatabaseError where
  | unknownTable (name : String)
  | schema (cause : SchemaError)

def DatabaseError.message : DatabaseError → String
  | unknownTable name => "unknown table: " ++ name
  | schema cause => cause.message

structure Database where
  tables : Entries Table
deriving Inhabited

namespace Database

def empty : Database := ⟨.empty⟩

def size (db : Database) : Nat := db.tables.size

def isEmpty (db : Database) : Bool := db.tables.isEmpty

def contains (db : Database) (name : String) : Bool := db.tables.contains name

def tableList (db : Database) : List Table := db.tables.toList.map Prod.snd

def table (db : Database) (name : String) : Except DatabaseError Table :=
  match db.tables.get? name with
  | some table => .ok table
  | none => .error (.unknownTable name)

def createTable (db : Database) (name : String) : Database :=
  ⟨db.tables.insert name ⟨name, []⟩⟩

def pushTo (db : Database) (name : String) (row : Row) : Database :=
  match db.tables.get? name with
  | some table => ⟨db.tables.insert name (table.push row)⟩
  | none => db

/-- Appends rows to a table, and tells by how many it has grown. -/
def insertInto (name : String) (rows : List Row) : InPlace Database DatabaseError Nat := do
  let target ← MonadExcept.ofExcept ((← get).table name)
  let grown := { target with rows := target.rows ++ rows }
  modify fun db => ⟨db.tables.insert name grown⟩
  return grown.size - target.size

/-- The rows of a JSON tree: an array gives many, anything else is one. -/
def rowsOfJson : Json → Except SchemaError (List Row)
  | .array items => items.mapM Row.ofJson
  | single => do return [← Row.ofJson single]

def insertJson (name : String) (json : Json) : InPlace Database DatabaseError Nat := do
  let rows ← MonadExcept.ofExcept ((rowsOfJson json).mapError .schema)
  insertInto name rows

def toJson (db : Database) : Json :=
  .object (db.tables.toList.map fun (name, table) => (name, table.toJson))

end Database
end TableAlgebra
