import TableAlgebra.Database
import TableAlgebra.Query.Pipeline

/-!
The canned queries over the tables `employee` and `department`, each with the
SQL statement that it answers.
-/
namespace TableAlgebra

inductive CannedError where
  | database (cause : DatabaseError)
  | query (cause : QueryError)
  | stage (cause : StageError)

def CannedError.message : CannedError → String
  | database cause => cause.message
  | query cause => cause.message
  | stage cause => cause.message

structure CannedQuery where
  name : String
  sql : String
  run : Database → Settings → Except CannedError Table

namespace CannedQuery

def stored (db : Database) (name : String) : Except CannedError Table :=
  (db.table name).mapError .database

def sameDepartment : Predicate := fun row =>
  row.value "employee.department_id" == row.value "department.id"

def operands (db : Database) : Except CannedError (Table × Table) := do
  let employees ← stored db "employee"
  let departments ← stored db "department"
  return (employees, departments)

def joining (kind : JoinKind) (db : Database) (settings : Settings) :
    Except CannedError Table := do
  let (employees, departments) ← operands db
  (employees.join kind departments sameDepartment settings.padding).mapError .query

def grouping (db : Database) : Except CannedError Table := do
  return (← stored db "employee").groupBy ["department_id"]

def namesByDepartment (db : Database) : Except CannedError Table := do
  let grouped ← grouping db
  (grouped.aggregate .arrayAgg "name").mapError .query

def projection (db : Database) : Except CannedError Table := do
  return (← stored db "employee").select ["id", "name"] .empty

def headcountStages (db : Database) (settings : Settings) :
    Except CannedError (Pipeline × Table) := do
  let departments ← stored db "department"
  let employees ← stored db "employee"
  let hasMembers : Predicate := fun row =>
    (row.value "COUNT(employee.id)").toInt?.any fun n => 1 ≤ n
  let aliases : Entries String :=
    .ofList [("department.name", "department"), ("COUNT(employee.id)", "headcount")]
  let pipeline := (Pipeline.new settings).join .inner departments sameDepartment
    |>.andThen (.groupBy ["department.name"])
    |>.andThen (.aggregate .count "employee.id")
    |>.andThen (.having hasMembers)
    |>.andThen (.select ["department.name", "COUNT(employee.id)"] aliases)
    |>.orderBy [⟨"department", true⟩]
    |>.andThen (.limit 2)
  return (pipeline, employees)

def headcount (db : Database) (settings : Settings) : Except CannedError Table := do
  let (pipeline, employees) ← headcountStages db settings
  (pipeline.run employees).mapError .stage

def joinSql (words : String) : String :=
  "SELECT * FROM employee " ++ words ++
    " department ON employee.department_id = department.id"

def all : List CannedQuery :=
  [⟨"cross", "SELECT * FROM employee CROSS JOIN department", joining .cross⟩,
    ⟨"inner", joinSql "JOIN", joining .inner⟩,
    ⟨"left", joinSql "LEFT JOIN", joining .left⟩,
    ⟨"right", joinSql "RIGHT JOIN", joining .right⟩,
    ⟨"full", joinSql "FULL JOIN", joining .full⟩,
    ⟨"group", "SELECT department_id FROM employee GROUP BY department_id",
      fun db _ => grouping db⟩,
    ⟨"array_agg",
      "SELECT department_id, ARRAY_AGG(name) FROM employee GROUP BY department_id",
      fun db _ => namesByDepartment db⟩,
    ⟨"select", "SELECT id, name FROM employee", fun db _ => projection db⟩,
    ⟨"headcount",
      "SELECT department.name AS department, COUNT(employee.id) AS headcount " ++
        "FROM employee JOIN department ON employee.department_id = department.id " ++
        "GROUP BY department.name HAVING COUNT(employee.id) >= 1 " ++
        "ORDER BY department DESC LIMIT 2",
      headcount⟩]

def find? (name : String) : Option CannedQuery := all.find? (·.name == name)

end CannedQuery
end TableAlgebra
