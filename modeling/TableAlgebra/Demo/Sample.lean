import TableAlgebra.Database

namespace TableAlgebra
namespace Sample

def linked (id : Int64) (name : String) (relation : String) (other : Int64) : Row :=
  .ofCells (.ofList [("id", .int id), ("name", .str name), (relation, .int other)])

def department (id : Int64) (name : String) : Row :=
  .ofCells (.ofList [("id", .int id), ("name", .str name)])

def stories : Table where
  name := "stories"
  rows :=
    [linked 1 "The Elliptical Machine that ate Manhattan" "author_id" 1,
      linked 2 "Queen of the Bats" "author_id" 2,
      linked 3 "ChocoMan" "author_id" 3]

def employees : Table where
  name := "employee"
  rows :=
    [linked 1 "Josh" "department_id" 1,
      linked 2 "Ruth" "department_id" 2,
      linked 3 "Gregg" "department_id" 5]

def departments : Table where
  name := "department"
  rows := [department 1 "Sales", department 2 "Marketing", department 3 "Engineering"]

def database : Database :=
  ⟨.ofList ([stories, employees, departments].map fun table => (table.name, table))⟩

end Sample
end TableAlgebra
