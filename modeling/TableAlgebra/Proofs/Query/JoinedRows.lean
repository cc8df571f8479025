import TableAlgebra.Proofs.Entries
import TableAlgebra.Proofs.Query.FullJoin

namespace TableAlgebra
namespace Table

variable {a b : Table} {x y : Row} {i j : Nat}

section Cells

theorem qualify_injective (table : Table) : Function.Injective table.qualify := by
  intro c d same
  simp only [qualify] at same
  split at same
  · exact same
  · simpa [String.append_assoc] using same

theorem names_qualified (table : Table) (row : Row) :
    (table.qualifiedCells row).map Prod.fst = row.columns.map table.qualify := by
  rw [qualifiedCells, Row.columns, Entries.names, List.map_map, List.map_map]
  rfl

theorem qualified_distinct (table : Table) (row : Row) :
    ((table.qualifiedCells row).map Prod.fst).Nodup := by
  rw [names_qualified]
  exact row.cells.distinct.map table.qualify_injective

theorem lookup_qualified (table : Table) (row : Row) (column : String) :
    (table.qualifiedCells row).lookup (table.qualify column) = row.get? column :=
  lookup_renamed table.qualify_injective row.cells.toList column

theorem own_column_stands {table : Table} {row : Row} {column : String}
    (own : column ∈ row.columns) (elsewhere : Option Value) :
    ((table.qualifiedCells row).lookup (table.qualify column)).or elsewhere = row.get? column := by
  obtain ⟨value, present⟩ := Option.isSome_iff_exists.mp (lookup_isSome_iff.mpr own)
  change row.get? column = some value at present
  rw [lookup_qualified, present]
  rfl

/-- The names that padding takes from a table: those of its first row. -/
def paddedColumns (table : Table) : List String :=
  (table.firstRowColumns?.getD []).map table.qualify

theorem names_null_cells (table : Table) :
    table.nullCells.map Prod.fst = table.paddedColumns := by
  rw [nullCells, List.map_map]
  rfl

theorem padded_columns_distinct (table : Table) : table.paddedColumns.Nodup := by
  refine List.Nodup.map table.qualify_injective ?_
  rw [firstRowColumns?]
  cases table.rows with
  | nil => exact List.nodup_nil
  | cons first rest => exact first.cells.distinct

theorem null_cells_distinct (table : Table) : (table.nullCells.map Prod.fst).Nodup := by
  rw [names_null_cells]
  exact table.padded_columns_distinct

theorem lookup_null_cells (table : Table) (name : String) :
    table.nullCells.lookup name = if name ∈ table.paddedColumns then some .null else none := by
  by_cases padded : name ∈ table.paddedColumns
  · rw [if_pos padded]
    obtain ⟨column, first, rfl⟩ := List.mem_map.mp padded
    exact lookup_of_mem table.null_cells_distinct (List.mem_map.mpr ⟨column, first, rfl⟩)
  · rw [if_neg padded]
    rw [← names_null_cells] at padded
    exact Option.not_isSome_iff_eq_none.mp (mt lookup_isSome_iff.mp padded)

theorem get?_pair (name : String) :
    (pairRow a b i j x y).get? name =
      ((b.qualifiedCells y).lookup name).or ((a.qualifiedCells x).lookup name) :=
  Entries.get?_overlay (a.qualified_distinct x) (b.qualified_distinct y) name

theorem get?_padded_left (name : String) :
    (paddedLeft a b i x).get? name =
      (b.nullCells.lookup name).or ((a.qualifiedCells x).lookup name) :=
  Entries.get?_overlay (a.qualified_distinct x) b.null_cells_distinct name

theorem get?_padded_right (name : String) :
    (paddedRight a b j y).get? name =
      ((b.qualifiedCells y).lookup name).or (a.nullCells.lookup name) :=
  Entries.get?_overlay a.null_cells_distinct (b.qualified_distinct y) name

end Cells

section Rows

variable {matching : Predicate} {policy : PaddingPolicy} {out : Table} {row : Row}

def IsMatch (a b : Table) (matching : Predicate) (i j : Nat) (row : Row) : Prop :=
  ∃ x y, a.rows[i]? = some x ∧ b.rows[j]? = some y ∧ matching (pairRow a b i j x y) = true ∧
    row = pairRow a b i j x y

theorem mem_inner_join :
    row ∈ (innerJoin a b matching).rows ↔ ∃ i j, IsMatch a b matching i j row := by
  simp only [inner_join_rows, List.mem_flatMap, Prod.exists, List.mem_zipIdx_iff_getElem?,
    List.mem_filter, mem_pairs_of]
  constructor
  · rintro ⟨x, i, placeX, ⟨j, y, placeY, rfl⟩, holds⟩
    exact ⟨i, j, x, y, placeX, placeY, holds, rfl⟩
  · rintro ⟨i, j, x, y, placeX, placeY, holds, rfl⟩
    exact ⟨x, i, placeX, ⟨j, y, placeY, rfl⟩, holds⟩

theorem mem_left_join (joined : leftJoin a b matching policy = .ok out) :
    row ∈ out.rows ↔ (∃ i j, IsMatch a b matching i j row) ∨
      ∃ i x, a.rows[i]? = some x ∧ Unmatched a b matching i x ∧ row = paddedLeft a b i x := by
  rw [left_join_eq joined]
  simp only [List.mem_flatMap, Prod.exists, List.mem_zipIdx_iff_getElem?, mem_left_block]
  constructor
  · rintro ⟨x, i, placeX, ⟨j, y, placeY, holds, rfl⟩ | ⟨unmatched, rfl⟩⟩
    · exact .inl ⟨i, j, x, y, placeX, placeY, holds, rfl⟩
    · exact .inr ⟨i, x, placeX, unmatched, rfl⟩
  · rintro (⟨i, j, x, y, placeX, placeY, holds, rfl⟩ | ⟨i, x, placeX, unmatched, rfl⟩)
    · exact ⟨x, i, placeX, .inl ⟨j, y, placeY, holds, rfl⟩⟩
    · exact ⟨x, i, placeX, .inr ⟨unmatched, rfl⟩⟩

theorem mem_right_padding : row ∈ rightPadding a b matching ↔
    ∃ j y, b.rows[j]? = some y ∧ unmatchedRight a b matching j = true ∧
      row = paddedRight a b j y := by
  simp only [rightPadding, List.mem_map, List.mem_filter, Prod.exists,
    List.mem_zipIdx_iff_getElem?]
  constructor
  · rintro ⟨y, j, ⟨placeY, unmatched⟩, rfl⟩
    exact ⟨j, y, placeY, unmatched, rfl⟩
  · rintro ⟨j, y, placeY, unmatched, rfl⟩
    exact ⟨y, j, ⟨placeY, unmatched⟩, rfl⟩

theorem mem_full_join (joined : fullJoin a b matching policy = .ok out) :
    row ∈ out.rows ↔ (∃ i j, IsMatch a b matching i j row) ∨
      (∃ i x, a.rows[i]? = some x ∧ Unmatched a b matching i x ∧ row = paddedLeft a b i x) ∨
      ∃ j y, b.rows[j]? = some y ∧ unmatchedRight a b matching j = true ∧
        row = paddedRight a b j y := by
  obtain ⟨left, leftJoined, rfl⟩ := full_join_eq joined
  rw [List.mem_append, mem_left_join leftJoined, mem_right_padding, or_assoc]

end Rows

end Table
end TableAlgebra
