import TableAlgebra.Proofs.Projection
import TableAlgebra.Query.Select

namespace TableAlgebra
namespace Table

variable {columns listed sources : List String} {aliases renamed final : Entries String}

def OutputsApart (columns : List String) (aliases : Entries String) : Prop :=
  ∀ c ∈ columns, ∀ d ∈ columns, outputName aliases c = outputName aliases d → c = d

instance : Decidable (OutputsApart columns aliases) :=
  inferInstanceAs (Decidable (∀ c ∈ columns, ∀ d ∈ columns, _ → _))

def outputNames (columns : List String) (aliases : Entries String) : List String :=
  columns.map (outputName aliases)

/-- What one projection has to list in place of two: for every listed name that the
first projection gives, in turn, the column it gives it to, renamed to the name
that the second projection makes of it. -/
structure Fuses (columns : List String) (aliases : Entries String) (listed : List String)
    (renamed : Entries String) (sources : List String) (final : Entries String) : Prop where
  own : ∀ c ∈ sources, c ∈ columns
  traced : outputNames sources aliases = listed.filter (· ∈ outputNames columns aliases)
  named : ∀ c ∈ sources,
    final.get? c = some (outputName renamed (outputName aliases c))

section Names

theorem column_of_empty_output {column : String} (empty : outputName aliases column = "") :
    column = "" := by
  unfold outputName at empty
  split at empty
  · exact empty
  · split at empty
    · exact empty
    · contradiction

theorem output_of_alias {column name : String} (found : final.get? column = some name)
    (empty : name = "" → column = "") : outputName final column = name := by
  simp only [outputName, found]
  split
  · rename_i none
    rw [none, empty none]
  · rfl

theorem fused_output (fuses : Fuses columns aliases listed renamed sources final) {c : String}
    (member : c ∈ sources) : outputName final c = outputName renamed (outputName aliases c) :=
  output_of_alias (fuses.named c member) fun empty =>
    column_of_empty_output (column_of_empty_output empty)

end Names

section Cells

variable {row : Row}

def renamedColumns (columns : List String) (aliases : Entries String) : List (String × String) :=
  columns.map fun c => (c, outputName aliases c)

theorem shown_renamed (columns : List String) (aliases : Entries String) (row : Row) :
    row.shown (renamedColumns columns aliases) =
      columns.filterMap fun c => (row.get? c).map (outputName aliases c, ·) := by
  rw [Row.shown, renamedColumns, List.filterMap_map]
  rfl

theorem get?_output (apart : OutputsApart columns aliases) {c : String} (member : c ∈ columns) :
    (row.project (renamedColumns columns aliases)).get? (outputName aliases c) = row.get? c := by
  refine Row.get?_project_listed (Row.mem_listed_as.mpr ⟨member, rfl⟩) ?_
  intro other there
  obtain ⟨inside, same⟩ := Row.mem_listed_as.mp there
  exact apart other inside c member same.symm

theorem get?_no_output {name : String} (other : name ∉ outputNames columns aliases) :
    (row.project (renamedColumns columns aliases)).get? name = none := by
  refine Row.get?_project_unlisted ?_
  rw [renamedColumns, List.map_map]
  exact other

/-- The second projection finds under each of its columns what the first row had in
the column that this was made from, and nothing under any other. -/
theorem shown_twice (apart : OutputsApart columns aliases)
    (fuses : Fuses columns aliases listed renamed sources final) (row : Row) :
    (row.project (renamedColumns columns aliases)).shown (renamedColumns listed renamed) =
      row.shown (renamedColumns sources final) := by
  rw [shown_renamed, shown_renamed]
  generalize here : row.project (renamedColumns columns aliases) = first
  calc listed.filterMap (fun d => (first.get? d).map (outputName renamed d, ·))
      = (listed.filter (· ∈ outputNames columns aliases)).filterMap
          fun d => (first.get? d).map (outputName renamed d, ·) := by
        rw [List.filterMap_filter]
        refine List.filterMap_congr ?_
        intro d _
        by_cases given : d ∈ outputNames columns aliases
        · simp [given]
        · have absent : first.get? d = none := here ▸ get?_no_output given
          simp [given, absent]
    _ = sources.filterMap fun c => (first.get? (outputName aliases c)).map
          (outputName renamed (outputName aliases c), ·) := by
        rw [← fuses.traced, outputNames, List.filterMap_map]
        rfl
    _ = sources.filterMap fun c => (row.get? c).map (outputName final c, ·) := by
        refine List.filterMap_congr ?_
        intro c member
        rw [← here, get?_output apart (fuses.own c member), fused_output fuses member]

end Cells

def tracedColumns (columns : List String) (aliases : Entries String) (listed : List String) :
    List String :=
  listed.filterMap fun d => columns.find? fun c => outputName aliases c == d

def finalNames (columns : List String) (aliases renamed : Entries String) : Entries String :=
  .ofList (columns.map fun c => (c, outputName renamed (outputName aliases c)))

theorem output_names_append (front back : List String) (aliases : Entries String) :
    outputNames (front ++ back) aliases = outputNames front aliases ++ outputNames back aliases :=
  List.map_append

theorem traced_cons (columns : List String) (aliases : Entries String) (d : String)
    (listed : List String) : tracedColumns columns aliases (d :: listed) =
      (columns.find? fun c => outputName aliases c == d).toList ++
        tracedColumns columns aliases listed := by
  rw [tracedColumns, List.filterMap_cons]
  cases columns.find? fun c => outputName aliases c == d <;> rfl

theorem traced_outputs (columns : List String) (aliases : Entries String) (listed : List String) :
    outputNames (tracedColumns columns aliases listed) aliases =
      listed.filter (· ∈ outputNames columns aliases) := by
  induction listed with
  | nil => rfl
  | cons d listed ih =>
    rw [traced_cons, output_names_append, ih, List.filter_cons]
    cases found : columns.find? fun c => outputName aliases c == d with
    | none =>
      have absent : d ∉ outputNames columns aliases := by
        intro given
        obtain ⟨c, inside, same⟩ := List.mem_map.mp given
        exact List.find?_eq_none.mp found c inside (beq_iff_eq.mpr same)
      rw [if_neg (by simpa using absent)]
      rfl
    | some c =>
      have same : outputName aliases c = d := by simpa using List.find?_some found
      have given : d ∈ outputNames columns aliases :=
        List.mem_map.mpr ⟨c, List.mem_of_find?_eq_some found, same⟩
      rw [if_pos (decide_eq_true given), ← same]
      rfl

theorem get?_final {c : String} (member : c ∈ columns) :
    (finalNames columns aliases renamed).get? c =
      some (outputName renamed (outputName aliases c)) := by
  rw [finalNames, Entries.get?_ofList]
  have there : c ∈ ((columns.map fun c =>
      (c, outputName renamed (outputName aliases c))).reverse).map Prod.fst := by
    simpa using member
  obtain ⟨name, found⟩ := Option.isSome_iff_exists.mp (lookup_isSome_iff.mpr there)
  obtain ⟨-, rfl⟩ := Row.mem_listed_as.mp (List.mem_reverse.mp (mem_of_lookup found))
  exact found

theorem traced_columns_fuse (columns listed : List String) (aliases renamed : Entries String) :
    Fuses columns aliases listed renamed (tracedColumns columns aliases listed)
      (finalNames columns aliases renamed) := by
  have own : ∀ c ∈ tracedColumns columns aliases listed, c ∈ columns := by
    intro c traced
    obtain ⟨d, -, found⟩ := List.mem_filterMap.mp traced
    exact List.mem_of_find?_eq_some found
  exact ⟨own, traced_outputs columns aliases listed, fun c traced => get?_final (own c traced)⟩

/-- Two projections in a row are one, if the first gives no name to two columns: one
that lists the columns which the names of the second come from and gives them their
last names. There is such a projection, and every such projection will do. -/
theorem projections_fuse (table : Table) {columns : List String} {aliases : Entries String}
    (apart : OutputsApart columns aliases) (listed : List String) (renamed : Entries String) :
    Fuses columns aliases listed renamed (tracedColumns columns aliases listed)
      (finalNames columns aliases renamed) ∧
    ∀ sources final, Fuses columns aliases listed renamed sources final →
      (table.select columns aliases).select listed renamed = table.select sources final := by
  refine ⟨traced_columns_fuse columns listed aliases renamed, ?_⟩
  intro sources final fuses
  rw [select, select, select, List.map_map]
  refine congrArg (Table.mk table.name) (List.map_congr_left ?_)
  intro row _
  exact congrArg (fun cells => Row.ofCells (Entries.ofList cells)) (shown_twice apart fuses row)

def swappedNames : Entries String := .ofList [("a", "b"), ("b", "a"), ("c", "")]

def lastNames : Entries String := .ofList [("b", "z"), ("c", "z"), ("a", "")]

def sparse : Table :=
  ⟨"t", [.ofCells (.ofList [("a", .int 1), ("b", .int 2), ("c", .int 3)]),
    .ofCells (.ofList [("b", .int 4)])]⟩

theorem swapped_names_fuse :
    OutputsApart ["a", "b", "c", "a"] swappedNames ∧
    tracedColumns ["a", "b", "c", "a"] swappedNames ["c", "b", "d", "a", "c"] =
      ["c", "a", "b", "c"] ∧
    (sparse.select ["a", "b", "c", "a"] swappedNames).select ["c", "b", "d", "a", "c"] lastNames =
      sparse.select ["c", "a", "b", "c"] (.ofList [("a", "z"), ("b", "a"), ("c", "z")]) := by
  have apart : OutputsApart ["a", "b", "c", "a"] swappedNames := by decide
  obtain ⟨-, every⟩ := projections_fuse sparse apart ["c", "b", "d", "a", "c"] lastNames
  refine ⟨apart, by decide, every _ _ ⟨by decide, by decide, by decide⟩⟩

end Table
end TableAlgebra
