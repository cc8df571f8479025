import TableAlgebra.Proofs.Entries
import TableAlgebra.Proofs.Value.Induction
import TableAlgebra.Table

namespace TableAlgebra
namespace Value

mutual

/-- The value with null for every number that is not finite. Nothing else
changes: an integer stays an integer, and a binary64 number keeps its bits. -/
def jsonForm : Value → Value
  | null => null
  | bool b => bool b
  | int i => int i
  | float x => if x.isFinite then float x else null
  | str s => str s
  | list items => list (jsonFormItems items)
  | record entries => record (jsonFormEntries entries)

def jsonFormItems : List Value → List Value
  | [] => []
  | item :: rest => item.jsonForm :: jsonFormItems rest

def jsonFormEntries : List (String × Value) → List (String × Value)
  | [] => []
  | (name, value) :: rest => (name, value.jsonForm) :: jsonFormEntries rest

end

section Lists

theorem json_form_items (items : List Value) : jsonFormItems items = items.map jsonForm := by
  induction items with
  | nil => rfl
  | cons item rest ih => rw [jsonFormItems, ih, List.map_cons]

theorem json_form_entries (entries : List (String × Value)) :
    jsonFormEntries entries = entries.map fun entry => (entry.1, entry.2.jsonForm) := by
  induction entries with
  | nil => rfl
  | cons entry rest ih => rw [jsonFormEntries, ih, List.map_cons]

theorem items_json_eq (items : List Value) : itemsJson items = items.map toJson := by
  induction items with
  | nil => rfl
  | cons item rest ih => rw [itemsJson, ih, List.map_cons]

theorem entries_json_eq (entries : List (String × Value)) :
    entriesJson entries = entries.map fun entry => (entry.1, entry.2.toJson) := by
  induction entries with
  | nil => rfl
  | cons entry rest ih => rw [entriesJson, ih, List.map_cons]

theorem items_of_json_eq (items : List Json) : itemsOfJson items = items.map ofJson := by
  induction items with
  | nil => rfl
  | cons item rest ih => rw [itemsOfJson, ih, List.map_cons]

theorem entries_of_json_eq (members : List (String × Json)) :
    entriesOfJson members = members.map fun entry => (entry.1, ofJson entry.2) := by
  induction members with
  | nil => rfl
  | cons entry rest ih => rw [entriesOfJson, ih, List.map_cons]

theorem write_items_eq (items : List Value) : writeItems items = items.map write := by
  induction items with
  | nil => rfl
  | cons item rest ih => rw [writeItems, ih, List.map_cons]

theorem write_entries_eq (entries : List (String × Value)) :
    writeEntries entries = entries.map fun entry => quoted entry.1 ++ ':' :: entry.2.write := by
  induction entries with
  | nil => rfl
  | cons entry rest ih => rw [writeEntries, ih, List.map_cons]

end Lists

theorem of_json_to_json (v : Value) : ofJson v.toJson = v.jsonForm := by
  induction v using structural_induction with
  | null => rfl
  | bool b => rfl
  | int i => rw [toJson, ofJson, ofJsonNumber, ofInteger, int64?_toInt, jsonForm]
  | float x =>
    rw [toJson, realJson, jsonForm]
    split
    · rw [ofJson, ofJsonNumber]
    · rw [ofJson]
  | str s => rfl
  | list items ih =>
    rw [toJson, ofJson, items_json_eq, items_of_json_eq, jsonForm, json_form_items, List.map_map]
    exact congrArg list (List.map_congr_left ih)
  | record entries ih =>
    rw [toJson, ofJson, entries_json_eq, entries_of_json_eq, jsonForm, json_form_entries,
      List.map_map]
    exact congrArg record (List.map_congr_left fun entry member =>
      congrArg (Prod.mk entry.1) (ih entry member))

theorem to_json_json_form (v : Value) : v.jsonForm.toJson = v.toJson := by
  induction v using structural_induction with
  | float x =>
    rw [jsonForm]
    split
    · rfl
    · rename_i infinite
      rw [toJson, toJson, realJson, if_neg infinite]
  | list items ih =>
    rw [jsonForm, json_form_items, toJson, toJson, items_json_eq, items_json_eq, List.map_map]
    exact congrArg Json.array (List.map_congr_left ih)
  | record entries ih =>
    rw [jsonForm, json_form_entries, toJson, toJson, entries_json_eq, entries_json_eq,
      List.map_map]
    exact congrArg Json.object (List.map_congr_left fun entry member =>
      congrArg (Prod.mk entry.1) (ih entry member))
  | _ => rfl

end Value

namespace Row

def jsonForm (row : Row) : Row := ofCells (row.cells.mapValues Value.jsonForm)

theorem of_json_to_json (row : Row) : ofJson row.toJson = .ok row.jsonForm := by
  have cells : Value.entriesOfJson (Value.entriesJson row.cells.toList) =
      (row.cells.mapValues Value.jsonForm).toList := by
    rw [Value.entries_json_eq, Value.entries_of_json_eq, List.map_map]
    exact List.map_congr_left fun entry _ =>
      congrArg (Prod.mk entry.1) (Value.of_json_to_json entry.2)
  rw [toJson, ofJson, cells, Entries.ofList_toList]
  rfl

theorem to_json_json_form (row : Row) : row.jsonForm.toJson = row.toJson := by
  have cells : Value.entriesJson (row.cells.mapValues Value.jsonForm).toList =
      Value.entriesJson row.cells.toList := by
    rw [Value.entries_json_eq, Value.entries_json_eq, Entries.mapValues, List.map_map]
    exact List.map_congr_left fun entry _ =>
      congrArg (Prod.mk entry.1) (Value.to_json_json_form entry.2)
  exact congrArg Json.object cells

end Row

namespace Table

def jsonForm (table : Table) : Table := { table with rows := table.rows.map Row.jsonForm }

theorem to_json_json_form (table : Table) : table.jsonForm.toJson = table.toJson := by
  have rows : table.jsonForm.rows.map Row.toJson = table.rows.map Row.toJson := by
    rw [jsonForm, List.map_map]
    exact List.map_congr_left fun row _ => row.to_json_json_form
  rw [toJson, toJson, rows]
  rfl

end Table
end TableAlgebra
