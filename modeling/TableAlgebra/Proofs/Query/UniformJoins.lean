import TableAlgebra.Proofs.Query.JoinedRows

namespace TableAlgebra

namespace Entries

variable {α : Type}

theorem names_overlay (base top : List (String × α)) :
    ((ofList base).insertAll top).names = (base.map Prod.fst ++ top.map Prod.fst).eraseDups := by
  have joined : (ofList base).insertAll top = ofList (base ++ top) := by
    rw [ofList, ofList, insertAll_append]
  rw [joined, names_ofList, List.map_append]

end Entries

/-- The product that a kind of join takes its pairs from. -/
def JoinKind.product : JoinKind → Table → Table → Table
  | .right, a, b => Table.crossJoin b a
  | _, a, b => Table.crossJoin a b

namespace Table

def HasColumns (table : Table) (columns : List String) : Prop :=
  ∀ row ∈ table.rows, row.columns = columns

instance (table : Table) (columns : List String) : Decidable (table.HasColumns columns) :=
  inferInstanceAs (Decidable (∀ row ∈ table.rows, row.columns = columns))

def Uniform (table : Table) : Prop := ∃ columns, table.HasColumns columns

/-- The names that the first rows of two tables make in a join. -/
def joinedColumns (a b : Table) : List String := (a.paddedColumns ++ b.paddedColumns).eraseDups

variable {a b : Table} {x y row : Row} {i j : Nat} {matching : Predicate}

section Names

theorem columns_pair (a b : Table) (i j : Nat) (x y : Row) : (pairRow a b i j x y).columns =
    (x.columns.map a.qualify ++ y.columns.map b.qualify).eraseDups := by
  rw [← names_qualified, ← names_qualified]
  exact Entries.names_overlay _ _

theorem columns_padded_left (a b : Table) (i : Nat) (x : Row) : (paddedLeft a b i x).columns =
    (x.columns.map a.qualify ++ b.paddedColumns).eraseDups := by
  rw [← names_qualified, ← names_null_cells]
  exact Entries.names_overlay _ _

theorem columns_padded_right (a b : Table) (j : Nat) (y : Row) : (paddedRight a b j y).columns =
    (a.paddedColumns ++ y.columns.map b.qualify).eraseDups := by
  rw [← names_qualified, ← names_null_cells]
  exact Entries.names_overlay _ _

end Names

theorem qualified_of_uniform {table : Table} (uniform : table.Uniform) (member : row ∈ table.rows) :
    row.columns.map table.qualify = table.paddedColumns := by
  obtain ⟨columns, each⟩ := uniform
  cases rows : table.rows with
  | nil =>
    rw [rows] at member
    cases member
  | cons first rest =>
    have here : first ∈ table.rows := rows ▸ List.mem_cons_self
    have padded : table.paddedColumns = first.columns.map table.qualify := by
      rw [paddedColumns, firstRowColumns?, rows]
      rfl
    rw [padded, each row member, each first here]

theorem mem_cross_join : row ∈ (crossJoin a b).rows ↔
    ∃ i j x y, a.rows[i]? = some x ∧ b.rows[j]? = some y ∧ row = pairRow a b i j x y := by
  have pairs : row ∈ (crossJoin a b).rows ↔
      ∃ x i, a.rows[i]? = some x ∧ row ∈ pairsOf a b i x := by
    simp only [crossJoin, List.mem_flatMap, Prod.exists, List.mem_zipIdx_iff_getElem?]
    rfl
  simp only [pairs, mem_pairs_of]
  constructor
  · rintro ⟨x, i, placeX, j, y, placeY, rfl⟩
    exact ⟨i, j, x, y, placeX, placeY, rfl⟩
  · rintro ⟨i, j, x, y, placeX, placeY, rfl⟩
    exact ⟨x, i, placeX, j, y, placeY, rfl⟩

section Uniform

variable (uniformA : a.Uniform) (uniformB : b.Uniform)

include uniformA in
theorem padded_left_uniform (place : a.rows[i]? = some x) :
    (paddedLeft a b i x).columns = joinedColumns a b := by
  rw [columns_padded_left, qualified_of_uniform uniformA (List.mem_of_getElem? place)]
  rfl

include uniformB in
theorem padded_right_uniform (place : b.rows[j]? = some y) :
    (paddedRight a b j y).columns = joinedColumns a b := by
  rw [columns_padded_right, qualified_of_uniform uniformB (List.mem_of_getElem? place)]
  rfl

include uniformA uniformB

theorem pair_uniform (placeX : a.rows[i]? = some x) (placeY : b.rows[j]? = some y) :
    (pairRow a b i j x y).columns = joinedColumns a b := by
  rw [columns_pair, qualified_of_uniform uniformA (List.mem_of_getElem? placeX),
    qualified_of_uniform uniformB (List.mem_of_getElem? placeY)]
  rfl

theorem match_uniform (found : IsMatch a b matching i j row) :
    row.columns = joinedColumns a b := by
  obtain ⟨x, y, placeX, placeY, -, rfl⟩ := found
  exact pair_uniform uniformA uniformB placeX placeY

theorem cross_join_uniform : (crossJoin a b).HasColumns (joinedColumns a b) := by
  intro row member
  obtain ⟨i, j, x, y, placeX, placeY, rfl⟩ := mem_cross_join.mp member
  exact pair_uniform uniformA uniformB placeX placeY

theorem inner_join_uniform : (innerJoin a b matching).HasColumns (joinedColumns a b) := by
  intro row member
  obtain ⟨i, j, found⟩ := mem_inner_join.mp member
  exact match_uniform uniformA uniformB found

variable {policy : PaddingPolicy} {out : Table}

theorem left_join_uniform (joined : leftJoin a b matching policy = .ok out) :
    out.HasColumns (joinedColumns a b) := by
  intro row member
  rcases (mem_left_join joined).mp member with ⟨i, j, found⟩ | ⟨i, x, place, -, rfl⟩
  · exact match_uniform uniformA uniformB found
  · exact padded_left_uniform uniformA place

theorem full_join_uniform (joined : fullJoin a b matching policy = .ok out) :
    out.HasColumns (joinedColumns a b) := by
  intro row member
  rcases (mem_full_join joined).mp member with
    ⟨i, j, found⟩ | ⟨i, x, place, -, rfl⟩ | ⟨j, y, place, -, rfl⟩
  · exact match_uniform uniformA uniformB found
  · exact padded_left_uniform uniformA place
  · exact padded_right_uniform uniformB place

end Uniform

theorem some_pair (someA : a.rows ≠ []) (someB : b.rows ≠ []) : (crossJoin a b).rows ≠ [] := by
  obtain ⟨x, others, rowsA⟩ := List.exists_cons_of_ne_nil someA
  obtain ⟨y, others', rowsB⟩ := List.exists_cons_of_ne_nil someB
  have first : pairRow a b 0 0 x y ∈ (crossJoin a b).rows :=
    mem_cross_join.mpr ⟨0, 0, x, y, by simp [rowsA], by simp [rowsB], rfl⟩
  exact List.ne_nil_of_mem first

/-- All rows of a join have the same columns in the same order, if the rows of each
table have. They are the columns of every row of the product that the join is made
from, which has rows as soon as both tables have; a right join takes the product
with the tables exchanged. -/
theorem join_of_uniform_tables {kind : JoinKind} {policy : PaddingPolicy} {out : Table}
    (uniformA : a.Uniform) (uniformB : b.Uniform)
    (joined : join kind a b matching policy = .ok out) :
    ∃ columns, out.HasColumns columns ∧ (kind.product a b).HasColumns columns ∧
      (a.rows ≠ [] → b.rows ≠ [] → (kind.product a b).rows ≠ []) := by
  have product := cross_join_uniform uniformA uniformB
  cases kind with
  | cross =>
    cases joined
    exact ⟨_, product, product, some_pair⟩
  | inner =>
    cases joined
    exact ⟨_, inner_join_uniform uniformA uniformB, product, some_pair⟩
  | left => exact ⟨_, left_join_uniform uniformA uniformB joined, product, some_pair⟩
  | right =>
    exact ⟨_, left_join_uniform uniformB uniformA joined, cross_join_uniform uniformB uniformA,
      fun someA someB => some_pair someB someA⟩
  | full => exact ⟨_, full_join_uniform uniformA uniformB joined, product, some_pair⟩

def numbered (columns : List String) (numbers : List Int64) : Row :=
  .ofCells (.ofList (columns.zip (numbers.map .int)))

def keyed : Table := ⟨"", [numbered ["id", "key"] [1, 1], numbered ["id", "key"] [2, 2]]⟩

def referring : Table := ⟨"", [numbered ["ref", "id"] [1, 8], numbered ["ref", "id"] [3, 9]]⟩

def refersToKey (row : Row) : Bool := row.value "key" == row.value "ref"

theorem full_join_of_keys_and_references :
    keyed.Uniform ∧ referring.Uniform ∧
    ∃ out, join .full keyed referring refersToKey .error = .ok out ∧
      out.rows.map Row.provenance =
        [some (.pair 0 0), some (.leftOnly 1), some (.rightOnly 1)] ∧
      out.HasColumns ["id", "key", "ref"] := by
  have uniformA : keyed.Uniform := ⟨["id", "key"], by decide⟩
  have uniformB : referring.Uniform := ⟨["ref", "id"], by decide⟩
  refine ⟨uniformA, uniformB, _, rfl, by decide, ?_⟩
  obtain ⟨columns, each, product, -⟩ := join_of_uniform_tables uniformA uniformB
    (rfl : join .full keyed referring refersToKey .error = .ok _)
  -- any pair of the product tells which columns they are
  have first : columns = ["id", "key", "ref"] :=
    (product (pairRow keyed referring 0 0 (numbered ["id", "key"] [1, 1])
      (numbered ["ref", "id"] [1, 8])) List.mem_cons_self).symm
  exact first ▸ each

end Table
end TableAlgebra
