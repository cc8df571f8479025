import TableAlgebra.Proofs.Query.JoinedRows

namespace TableAlgebra
namespace Table

/-- Each left row without a match stands among the rows, and a null hides one of
its columns exactly where the other table pads under that name. -/
def LeftRowsKept (a b : Table) (matching : Predicate) (rows : List Row) : Prop :=
  ∀ i x, a.rows[i]? = some x →
    (∀ j y, b.rows[j]? = some y → matching (pairRow a b i j x y) = false) →
    ∃ row ∈ rows, row.provenance = some (.leftOnly i) ∧
      ∀ column, row.get? (a.qualify column) =
        if a.qualify column ∈ b.paddedColumns then some .null else x.get? column

/-- Each right row without a match stands among the rows with all of its columns. -/
def RightRowsKept (a b : Table) (matching : Predicate) (rows : List Row) : Prop :=
  ∀ j y, b.rows[j]? = some y →
    (∀ i x, a.rows[i]? = some x → matching (pairRow a b i j x y) = false) →
    ∃ row ∈ rows, row.provenance = some (.rightOnly j) ∧
      ∀ column ∈ y.columns, row.get? (b.qualify column) = y.get? column

variable {a b : Table} {matching : Predicate} {policy : PaddingPolicy}

theorem padded_left_column {i : Nat} {x : Row} (column : String) :
    (paddedLeft a b i x).get? (a.qualify column) =
      if a.qualify column ∈ b.paddedColumns then some .null else x.get? column := by
  rw [get?_padded_left, lookup_null_cells, lookup_qualified]
  split <;> rfl

theorem padded_right_column {j : Nat} {y : Row} {column : String} (own : column ∈ y.columns) :
    (paddedRight a b j y).get? (b.qualify column) = y.get? column := by
  rw [get?_padded_right, own_column_stands own]

theorem left_join_keeps {out : Table} (joined : leftJoin a b matching policy = .ok out) :
    LeftRowsKept a b matching out.rows := by
  intro i x place unmatched
  exact ⟨paddedLeft a b i x, (mem_left_join joined).mpr (.inr ⟨i, x, place, unmatched, rfl⟩), rfl,
    padded_left_column⟩

theorem full_join_keeps_left {out : Table} (joined : fullJoin a b matching policy = .ok out) :
    LeftRowsKept a b matching out.rows := by
  intro i x place unmatched
  exact ⟨paddedLeft a b i x,
    (mem_full_join joined).mpr (.inr (.inl ⟨i, x, place, unmatched, rfl⟩)), rfl,
    padded_left_column⟩

theorem full_join_keeps_right {out : Table} (joined : fullJoin a b matching policy = .ok out) :
    RightRowsKept a b matching out.rows := by
  intro j y place unmatched
  have alone : unmatchedRight a b matching j = true := by
    refine unmatched_right_iff.mpr fun i x y' placeX placeY => ?_
    rw [place] at placeY
    cases placeY
    exact unmatched i x placeX
  exact ⟨paddedRight a b j y,
    (mem_full_join joined).mpr (.inr (.inr ⟨j, y, place, alone, rfl⟩)), rfl,
    fun column => padded_right_column⟩

/-- Rows without a match stand in the outer joins with their own columns, but
for those columns of a left row that the other table pads under the same name.
A right join pads as the left join with the tables exchanged. -/
theorem outer_joins_keep_unmatched_rows (a b : Table) (matching : Predicate)
    (policy : PaddingPolicy) :
    (∀ out, leftJoin a b matching policy = .ok out → LeftRowsKept a b matching out.rows) ∧
    (∀ out, rightJoin a b matching policy = .ok out → LeftRowsKept b a matching out.rows) ∧
    (∀ out, fullJoin a b matching policy = .ok out →
      LeftRowsKept a b matching out.rows ∧ RightRowsKept a b matching out.rows) :=
  ⟨fun _ => left_join_keeps, fun _ => left_join_keeps,
    fun _ joined => ⟨full_join_keeps_left joined, full_join_keeps_right joined⟩⟩

def people : Table := ⟨"", [.ofCells (.ofList [("id", .int 1), ("name", .str "Ada")])]⟩

def notes : Table := ⟨"", [.ofCells (.ofList [("id", .int 2), ("note", .null)])]⟩

def never (_ : Row) : Bool := false

theorem full_join_of_people_and_notes :
    ∃ out, fullJoin people notes never .error = .ok out ∧
      (∃ row ∈ out.rows, row.provenance = some (.leftOnly 0) ∧
        row.get? "name" = some (.str "Ada") ∧ row.get? "id" = some .null) ∧
      ∃ row ∈ out.rows, row.provenance = some (.rightOnly 0) ∧
        row.get? "id" = some (.int 2) ∧ row.get? "note" = some .null := by
  refine ⟨_, rfl, ?_⟩
  obtain ⟨-, -, full⟩ := outer_joins_keep_unmatched_rows people notes never .error
  obtain ⟨left, right⟩ := full _ rfl
  obtain ⟨row, member, origin, own⟩ := left 0 _ rfl fun _ _ _ => rfl
  obtain ⟨row', member', origin', own'⟩ := right 0 _ rfl fun _ _ _ => rfl
  exact ⟨⟨row, member, origin, own "name", own "id"⟩,
    ⟨row', member', origin', own' "id" (by decide), own' "note" (by decide)⟩⟩

/-- The person's number is lost in the left join: a null from the notes, which
match nobody, stands in its place. -/
theorem left_join_loses_own_column :
    ∃ out, leftJoin people notes never .error = .ok out ∧
      out.rows.map (·.cells.toList) =
        [[("id", .null), ("name", .str "Ada"), ("note", .null)]] ∧
      people.rows.map (·.get? "id") = [some (.int 1)] :=
  ⟨_, rfl, rfl, rfl⟩

end Table
end TableAlgebra
