import TableAlgebra.Proofs.Query.AggregateChain

namespace TableAlgebra

namespace InPlace

variable {table after : Table} {f : Aggregate} {column : String} {e : QueryError}

theorem on_set_cell (column name : String) (value : Value) (done : List Row) (row : Row)
    (rest : List Row) :
    (setCell column done.length value).on ⟨name, done ++ row :: rest⟩ =
      (.ok (), ⟨name, done ++ row.insert column value :: rest⟩) := by
  have written : (done ++ row :: rest).modify done.length (·.insert column value) =
      done ++ row.insert column value :: rest := List.modifyTailIdx_add _ 0 done (row :: rest)
  rw [← written]
  rfl

theorem on_set_cells (column name : String) {values : List Value} {rows : List Row}
    (size : values.length = rows.length) (done : List Row) :
    ((values.zipIdx done.length).forM fun (value, i) => setCell column i value).on
        ⟨name, done ++ rows⟩ =
      (.ok (), ⟨name, done ++ rows.zipWith (fun row v => row.insert column v) values⟩) := by
  induction values generalizing done rows with
  | nil =>
    have none : rows = [] := List.length_eq_zero_iff.mp size.symm
    subst none
    rfl
  | cons value values ih =>
    cases rows with
    | nil => cases size
    | cons row rows =>
      have step : (((value :: values).zipIdx done.length).forM fun (value, i) =>
            setCell column i value) =
          setCell column done.length value >>= fun _ =>
            (values.zipIdx (done.length + 1)).forM fun (value, i) => setCell column i value := rfl
      have behind := ih (Nat.succ.inj size) (done ++ [row.insert column value])
      rw [List.length_append, List.length_singleton, List.append_assoc, List.append_assoc] at behind
      rw [step, on_bind, on_set_cell]
      exact behind

theorem on_annotate (f : Aggregate) (column : String) (table : Table) :
    (annotate f column).on table =
      match table.aggregate f column with
      | .ok made => (.ok (), made)
      | .error e => (.error e, table) := by
  rw [annotate, on_bind, on_get]
  simp only [on_bind, on_of_except]
  cases outcome : table.aggregate f column with
  | error e =>
    rw [Table.aggregate, bind_pure_eq_error_iff] at outcome
    rw [outcome]
  | ok made =>
    rw [Table.aggregate, bind_eq_ok_iff] at outcome
    obtain ⟨results, computed, made_so⟩ := outcome
    cases made_so
    have size := (mapM_eq_ok_iff.mp computed).length_eq
    rw [List.length_zipIdx] at size
    rw [computed]
    exact on_set_cells (f.outputColumn column) table.name size.symm []

theorem annotate_ok_iff : (annotate f column).on table = (.ok (), after) ↔
    table.aggregate f column = .ok after := by
  rw [on_annotate]
  cases table.aggregate f column <;> simp

theorem annotate_error_iff : (annotate f column).on table = (.error e, after) ↔
    table.aggregate f column = .error e ∧ after = table := by
  rw [on_annotate]
  cases table.aggregate f column <;> simp [eq_comm]

end InPlace

/-- A row in which only the cell of one aggregate is set anew, to what the
aggregate computes over the members of the row. -/
structure Row.SetBy (f : Aggregate) (column : String) (row out : Row) : Prop where
  provenance : out.provenance = row.provenance
  members : out.members = row.members
  others : ∀ name, name ≠ f.outputColumn column → out.get? name = row.get? name
  result : ∃ members v, row.members = some members ∧
    f.compute column (members.map (·.value column)) = .ok v ∧
    out.get? (f.outputColumn column) = some v
  columns : out.columns =
    if f.outputColumn column ∈ row.columns then row.columns
    else row.columns ++ [f.outputColumn column]

theorem Row.set_by_annotated {f : Aggregate} {column : String} {row : Row}
    (computed : (row.aggregated? (f, column)).isSome) :
    SetBy f column row (row.annotated [(f, column)]) := by
  obtain ⟨v, found⟩ := Option.isSome_iff_exists.mp computed
  have written : row.annotated [(f, column)] = row.insert (f.outputColumn column) v :=
    annotated_one found
  have done : Annotates [(f, column)] row (row.annotated [(f, column)]) :=
    annotated_annotates (List.forall_mem_singleton.mpr computed)
  refine ⟨done.provenance, done.members, fun name other => ?_, ?_, ?_⟩
  · exact done.others name (List.forall_mem_singleton.mpr (Ne.symm other))
  · exact done.results (f, column) (List.mem_singleton_self _)
  · rw [written]
    exact Entries.names_insert _ _ _

namespace Table

open InPlace (annotate)

/-- An aggregate in place that ends in an error leaves the table exactly as it was.
One that does not keeps the name and the rows in their order, and of each row all
but the cell of its own column, which then holds what the aggregate computes over
the members of that row; the column stays where it was, or goes last if it is new.
The outcome and the table left are those of the aggregate that hands the table on. -/
theorem annotate_sets_one_column_or_nothing (table : Table) (f : Aggregate) (column : String) :
    (∀ e after, (annotate f column).on table = (.error e, after) → after = table) ∧
    (∀ after, (annotate f column).on table = (.ok (), after) →
      after.name = table.name ∧ List.Forall₂ (Row.SetBy f column) table.rows after.rows) ∧
    (∀ e, table.aggregate f column = .error e ↔
      (annotate f column).on table = (.error e, table)) ∧
    ∀ out, table.aggregate f column = .ok out ↔ (annotate f column).on table = (.ok (), out) := by
  refine ⟨?_, ?_, ?_, fun out => InPlace.annotate_ok_iff.symm⟩
  · intro e after failed
    exact (InPlace.annotate_error_iff.mp failed).2
  · intro after done
    have given := InPlace.annotate_ok_iff.mp done
    obtain ⟨computed, rfl⟩ := (@aggregate_ok_iff _ _ (f, column)).mp given
    refine ⟨rfl, List.forall₂_map_right_iff.mpr (List.forall₂_same.mpr fun row inside => ?_)⟩
    exact Row.set_by_annotated (computed row inside _ (List.mem_singleton_self _))
  · intro e
    rw [InPlace.annotate_error_iff, and_iff_left rfl]

def visitsUnpaid : Table :=
  ⟨"visits", [⟨.ofList [("guest", .int 1)], none, some [visit 3]⟩,
    ⟨.ofList [("guest", .int 2)], none,
      some [visit 5, .ofCells (.ofList [("cost", .str "open")])]⟩]⟩

/-- The sum of the first group is not written where the second one has none. Where
both have one, it takes the place of the null in the first group and goes last in
the second. -/
theorem sums_in_place :
    (∃ e, (annotate .sum "cost").on visitsUnpaid = (.error e, visitsUnpaid)) ∧
    ∃ after, (annotate .sum "cost").on visitsByGuest = (.ok (), after) ∧
      List.Forall₂ (Row.SetBy .sum "cost") visitsByGuest.rows after.rows ∧
      after.rows.map Row.columns = [["SUM(cost)", "guest"], ["guest", "SUM(cost)"]] ∧
      after.rows.map (·.get? "SUM(cost)") = [some (.int 7), some (.int 5)] := by
  refine ⟨?_, _, rfl, ?_, by decide, rfl⟩
  · obtain ⟨unchanged, -, -, -⟩ := annotate_sets_one_column_or_nothing visitsUnpaid .sum "cost"
    have failed : ∃ e after, (annotate .sum "cost").on visitsUnpaid = (.error e, after) :=
      ⟨_, _, rfl⟩
    obtain ⟨e, after, outcome⟩ := failed
    rw [unchanged e after outcome] at outcome
    exact ⟨e, outcome⟩
  · obtain ⟨-, sets, -, -⟩ := annotate_sets_one_column_or_nothing visitsByGuest .sum "cost"
    exact (sets _ rfl).2

end Table
end TableAlgebra
