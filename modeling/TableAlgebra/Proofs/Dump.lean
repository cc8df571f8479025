import TableAlgebra.Proofs.Log
import TableAlgebra.Proofs.Value.JsonForm

namespace TableAlgebra

namespace Json

def members : Json → List (String × Json)
  | .object members => members
  | _ => []

def member (json : Json) (name : String) : Json := (json.members.lookup name).getD .null

end Json

namespace Table

theorem rows_of_dump (table : Table) :
    Database.rowsOfJson (table.toJson.member "rows") = .ok table.jsonForm.rows := by
  have listed : table.toJson.member "rows" = .array (table.rows.map Row.toJson) := by
    rw [toJson, Json.member, Json.members, lookup_cons_entry, if_neg (by decide),
      lookup_cons_entry, if_pos rfl, Option.getD_some]
  rw [listed, Database.rows_of_json_ok_iff, jsonForm]
  refine List.forall₂_map_left_iff.mpr (List.forall₂_map_right_iff.mpr ?_)
  exact List.forall₂_same.mpr fun row _ => row.of_json_to_json

end Table

namespace Database

def restore : List (String × Json) → InPlace Database DatabaseError Unit
  | [] => pure ()
  | (name, dumped) :: rest => do
    modify (·.createTable name)
    let _ ← insertJson name (dumped.member "rows")
    restore rest

variable {db : Database} {calls : List Call}

theorem restore_table (db : Database) (name : String) (table : Table) :
    (insertJson name (table.toJson.member "rows")).on (db.createTable name) =
      (.ok table.jsonForm.rows.length,
        ⟨db.tables.insert name ⟨name, table.jsonForm.rows⟩⟩) := by
  have created : (db.createTable name).tables.get? name = some ⟨name, []⟩ :=
    (Entries.get?_insert _ _ _ _).trans (if_pos rfl)
  rw [on_insert_json, table.rows_of_dump]
  simp only [on_insert_into, created, List.nil_append]
  exact congrArg (fun tables => (_, Database.mk tables)) (Entries.insert_twice ..)

theorem restore_tables (db : Database) (tables : List (String × Table)) :
    (restore (tables.map fun entry => (entry.1, entry.2.toJson))).on db =
      (.ok (), ⟨db.tables.insertAll
        (tables.map fun entry => (entry.1, ⟨entry.1, entry.2.jsonForm.rows⟩))⟩) := by
  induction tables generalizing db with
  | nil => rfl
  | cons entry rest ih =>
    rw [List.map_cons, restore, InPlace.on_bind, InPlace.on_modify]
    simp only [InPlace.on_bind, restore_table]
    exact ih _

def jsonForm (db : Database) : Database := ⟨db.tables.mapValues Table.jsonForm⟩

theorem restore_of_calls (calls : List Call) :
    (restore (ofCalls calls).toJson.members).on .empty = (.ok (), (ofCalls calls).jsonForm) := by
  have named : (ofCalls calls).tables.toList.map
        (fun entry => (entry.1, Table.mk entry.1 entry.2.jsonForm.rows)) =
      ((ofCalls calls).tables.mapValues Table.jsonForm).toList := by
    refine List.map_congr_left fun entry stored => ?_
    rw [← (stored_under_name stored).2]
    rfl
  have restored := restore_tables .empty (ofCalls calls).tables.toList
  rw [named] at restored
  exact restored.trans (congrArg (fun tables => (Except.ok (), Database.mk tables))
    (Entries.ofList_toList _))

theorem to_json_json_form (db : Database) : db.jsonForm.toJson = db.toJson := by
  rw [toJson, toJson, jsonForm, Entries.mapValues, List.map_map]
  exact congrArg Json.object (List.map_congr_left fun entry _ =>
    congrArg (Prod.mk entry.1) entry.2.to_json_json_form)

/-- A dump rebuilds the database. From the dump of a database made by any calls,
creating each table and inserting its rows works, and gives the same tables in the
same order, each with the rows it had as JSON keeps them: the same cells in the
same order, with null for every number that is not finite, and nothing beside the
cells. The rebuilt database has the same dump. -/
theorem dump_rebuilds (calls : List Call) :
    (ofCalls calls).toJson.members.map Prod.fst = (ofCalls calls).tables.names ∧
    ∃ rebuilt, (restore (ofCalls calls).toJson.members).on .empty = (.ok (), rebuilt) ∧
      rebuilt.tables.names = (ofCalls calls).tables.names ∧
      rebuilt.tableList = (ofCalls calls).tableList.map Table.jsonForm ∧
      (∀ name, rebuilt.table name = ((ofCalls calls).table name).map Table.jsonForm) ∧
      rebuilt.toJson = (ofCalls calls).toJson := by
  refine ⟨List.map_map .., _, restore_of_calls calls, List.map_map .., ?_, ?_, ?_⟩
  · rw [tableList, tableList, jsonForm, Entries.mapValues, List.map_map, List.map_map]
    rfl
  · intro name
    rw [Database.table, Database.table, jsonForm, Entries.get?_mapValues]
    cases (ofCalls calls).tables.get? name <;> rfl
  · exact to_json_json_form _

end Database
end TableAlgebra
