import TableAlgebra.CommandLine
import TableAlgebra.Proofs.Json.Layout
import TableAlgebra.Proofs.JsonLines
import TableAlgebra.Proofs.Query.AggregateChain

namespace TableAlgebra

namespace Value

theorem to_json_write (v : Value) : v.toJson.write = v.write := by
  induction v using structural_induction with
  | null => rfl
  | bool b => rfl
  | int i => rfl
  | float x =>
    rw [toJson, realJson, write]
    split
    · rfl
    · rename_i infinite
      rw [Json.write, writeReal, if_neg infinite]
  | str s => rfl
  | list items ih =>
    rw [toJson, Json.write, items_json_eq, Json.write_items_eq, List.map_map, write,
      write_items_eq]
    exact congrArg (fun parts => '[' :: commaSeparated parts ++ [']']) (List.map_congr_left ih)
  | record entries ih =>
    rw [toJson, Json.write, entries_json_eq, Json.write_members_eq, List.map_map, write,
      write_entries_eq]
    refine congrArg (fun parts => '{' :: commaSeparated parts ++ ['}'])
      (List.map_congr_left fun entry member => ?_)
    exact congrArg (quoted entry.1 ++ ':' :: ·) (ih entry member)

theorem to_json_text (v : Value) : v.toJson.text = v.text :=
  congrArg String.ofList v.to_json_write

example : (list [int 1, float ⟨0x3ff0000000000000⟩, float .nan, record []]).text =
    "[1,1.0,null,\x7b\x7d]" := by decide +kernel

end Value

namespace Row

theorem to_json_write (row : Row) : row.toJson.write = row.write :=
  row.toRecord.to_json_write

theorem to_json_text (row : Row) : row.toJson.text = row.text :=
  congrArg String.ofList row.to_json_write

/-- The document is the object of the row: a member for each cell, in column order,
under its name and with what the text of its value is read as. -/
def ShownAs (row : Row) (d : Document) : Prop :=
  ∃ members, d = .object members ∧ List.Forall₂ (fun cell member =>
    Piece.join? member.1 = some cell.1 ∧ Document.parse? cell.2.text = some member.2)
    row.cells.toList members

theorem read_as_object (row : Row) : ∃ d, Json.ReadAs row.toJson d ∧ row.ShownAs d := by
  have each : ∀ member ∈ Value.entriesJson row.cells.toList, ∃ d, Json.ReadAs member.2 d :=
    fun member _ => Json.read_as member.2
  obtain ⟨members, pairs⟩ := Json.members_read_as each
  refine ⟨.object members, Json.object_read_as pairs, members, rfl, ?_⟩
  rw [Value.entries_json_eq, List.forall₂_map_left_iff] at pairs
  refine pairs.imp fun cell member found => ⟨found.meant, ?_⟩
  rw [← Value.to_json_text]
  exact found.value.parse_text

end Row

/-- The text has a line for each document and nothing else, and each line is read as
its document. -/
def LinesOf (text : String) (ds : List Document) : Prop :=
  ∃ lines : List (List Char), text.toList = lines.flatMap (· ++ ['\n']) ∧
    List.Forall₂ (fun line d => '\n' ∉ line ∧ Document.parse? (String.ofList line) = some d)
      lines ds

theorem Aggregate.compute_array_agg (column : String) (values : List Value) :
    arrayAgg.compute column values = .ok (.str (Value.list values).text) := by
  rw [compute, ← Value.to_json_text, Value.toJson, Value.items_json_eq]

namespace Table

variable {table : Table} {ds : List Document}

theorem parse_json (pairs : List.Forall₂ (fun row d => Json.ReadAs row.toJson d) table.rows ds)
    {gap : List Char} (blank : Document.Blanks gap) :
    Document.parse? (table.render .json ++ String.ofList gap) = some (.array ds) :=
  (Json.array_read_as (List.forall₂_map_left_iff.mpr pairs)).parse_indented blank

theorem lines_of_jsonl
    (pairs : List.Forall₂ (fun row d => Json.ReadAs row.toJson d) table.rows ds) :
    LinesOf (table.render .jsonl) ds := by
  refine ⟨table.rows.map Row.write, ?_, ?_⟩
  · rw [render, LineWriter.contents, LineWriter.write_table_eq, String.toList_ofList,
      List.flatMap_map]
    rfl
  · refine List.forall₂_map_left_iff.mpr (pairs.imp fun row d found => ⟨row.no_line_feed, ?_⟩)
    rw [← row.to_json_write]
    exact found.parse_text

theorem array_agg_ok_iff {column : String} {out : Table} :
    table.aggregate .arrayAgg column = .ok out ↔ out.name = table.name ∧
      List.Forall₂ (fun row shown => ∃ members, row.members = some members ∧
        shown = row.insert (Aggregate.arrayAgg.outputColumn column)
          (.str (Value.list (members.map (·.value column))).text)) table.rows out.rows := by
  have worked := @aggregate_ok_iff table out (.arrayAgg, column)
  dsimp only at worked
  rw [worked]
  constructor
  · rintro ⟨computed, rfl⟩
    refine ⟨rfl, List.forall₂_map_right_iff.mpr (List.forall₂_same.mpr fun row inside => ?_)⟩
    obtain ⟨v, found⟩ := Option.isSome_iff_exists.mp
      (computed row inside (.arrayAgg, column) (List.mem_singleton_self _))
    obtain ⟨members, grouped, value⟩ := Row.aggregated_eq_some_iff.mp found
    rw [Aggregate.compute_array_agg, Except.ok.injEq] at value
    subst value
    exact ⟨members, grouped, Row.annotated_one found⟩
  · rintro ⟨name, pairs⟩
    have found {row : Row} {members : List Row} (grouped : row.members = some members) :
        row.aggregated? (.arrayAgg, column) =
          some (.str (Value.list (members.map (·.value column))).text) :=
      Row.aggregated_eq_some_iff.mpr ⟨members, grouped, Aggregate.compute_array_agg _ _⟩
    constructor
    · intro row inside call listed
      obtain ⟨shown, -, members, grouped, -⟩ := pairs_left pairs inside
      rw [List.mem_singleton.mp listed, found grouped]
      rfl
    · have rows : table.rows.map (·.annotated [(.arrayAgg, column)]) = out.rows.map id := by
        refine map_eq_of_pairs (pairs.imp fun row shown made => ?_)
        obtain ⟨members, grouped, rfl⟩ := made
        exact Row.annotated_one (found grouped)
      rw [List.map_id] at rows
      rw [annotated, rows, ← name]

end Table

/-- The JSON writers agree. A value, and a row, has one text, written directly or by
way of its tree. So what the command line shows of a table as an indented array and as
lines are the same documents in the same order, one for each row and the object of
its cells. An array aggregate works on the tables whose rows are all group rows, and
writes to each of them the text of the list of what its members have in the column,
in their order and with null for a member that lacks it. -/
theorem json_writers_agree :
    (∀ v : Value, v.text = v.toJson.text) ∧
    (∀ row : Row, row.text = row.toJson.text) ∧
    (∀ (query : CannedQuery) (table : Table), ∃ ds,
      Document.parse? (CommandLine.showResult query .json table) = some (.array ds) ∧
      LinesOf (CommandLine.showResult query .jsonl table) ds ∧
      List.Forall₂ Row.ShownAs table.rows ds) ∧
    ∀ (table : Table) (column : String) (out : Table),
      table.aggregate .arrayAgg column = .ok out ↔ out.name = table.name ∧
        List.Forall₂ (fun row shown => ∃ members, row.members = some members ∧
          shown = row.insert ("ARRAY_AGG(" ++ column ++ ")")
            (.str (Value.list (members.map fun member =>
              (member.get? column).getD .null)).text)) table.rows out.rows := by
  refine ⟨fun v => v.to_json_text.symm, fun row => row.to_json_text.symm, ?_, ?_⟩
  · intro query table
    obtain ⟨ds, pairs⟩ := pairs_of_forall fun row (_ : row ∈ table.rows) => row.read_as_object
    have both : List.Forall₂ (fun row d => Json.ReadAs row.toJson d) table.rows ds :=
      pairs.imp fun row d found => found.1
    refine ⟨ds, ?_, ?_, pairs.imp fun row d found => found.2⟩
    · have feed : Document.Blanks ['\n'] := by simp [Document.Blanks, Document.isBlank]
      simpa [CommandLine.showResult] using Table.parse_json both feed
    · simpa [CommandLine.showResult] using Table.lines_of_jsonl both
  · intro table column out
    exact Table.array_agg_ok_iff

end TableAlgebra
