import TableAlgebra.Database

namespace TableAlgebra
namespace Database

/-- A call on a database. A table just created stays at hand until the next call,
so the rows that are pushed on it come with its creation. -/
inductive Call where
  | create (name : String) (pushed : List Row)
  | insert (name : String) (rows : List Row)
  | insertJson (name : String) (rows : Json)

def Call.work : Call → InPlace Database DatabaseError Unit
  | .create name pushed => do
    modify (·.createTable name)
    pushed.forM fun row => modify (·.pushTo name row)
  | .insert name rows => discard (insertInto name rows)
  | .insertJson name rows => discard (Database.insertJson name rows)

/-- The database as the call leaves it, also where the call fails. -/
def call (db : Database) (c : Call) : Database := (c.work.on db).2

def ofCalls (calls : List Call) : Database := calls.foldl call .empty

end Database
end TableAlgebra
