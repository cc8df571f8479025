import TableAlgebra.Proofs.Query.FullJoin

namespace TableAlgebra
namespace Table

variable {table a b : Table} {matching : Predicate} {policy : PaddingPolicy} {e : QueryError}

theorem padding_cells_error_iff : table.paddingCells policy = .error e ↔
    policy = .error ∧ table.rows = [] ∧ e = .emptyPadding table.name := by
  cases rows : table.rows with
  | nil => cases policy <;> simp [paddingCells, firstRowColumns?, rows, eq_comm]
  | cons first rest => simp [paddingCells, firstRowColumns?, rows]

section Left

theorem left_padding_row_error_iff {i : Nat} {x : Row} :
    leftPaddingRow a b policy i x = .error e ↔ b.paddingCells policy = .error e :=
  bind_pure_eq_error_iff

theorem left_rows_error_iff {i : Nat} {x : Row} {found : List Row} :
    leftRows a b policy i x found = .error e ↔ found = [] ∧ b.paddingCells policy = .error e := by
  cases found with
  | nil =>
    rw [leftRows, bind_pure_eq_error_iff, left_padding_row_error_iff]
    simp
  | cons first rest => simp [leftRows]

theorem product_with_empty (none : b.rows = []) : (crossJoin a b).rows = [] := by
  simp [crossJoin, none]

theorem left_join_error_iff : leftJoin a b matching policy = .error e ↔
    policy = .error ∧ a.rows ≠ [] ∧ b.rows = [] ∧ e = .emptyPadding b.name := by
  rw [leftJoin, bind_pure_eq_error_iff, scatter_eq, size, zip_positions,
    mapM_error_iff_of_all (p := b.paddingCells policy = .error e), padding_cells_error_iff]
  · simp [and_left_comm]
  · intro step member
    obtain ⟨⟨x, i⟩, -, rfl⟩ := List.mem_map.mp member
    rw [left_rows_error_iff]
    refine ⟨And.right, fun failed => ⟨?_, failed⟩⟩
    -- where the padding fails there are no pairs, and every bucket is empty
    obtain ⟨-, none, -⟩ := padding_cells_error_iff.mp failed
    rw [product_with_empty none, List.filter_nil]

end Left

section Full

theorem right_padding_row_error_iff {j : Nat} {y : Row} :
    rightPaddingRow a b policy j y = .error e ↔ a.paddingCells policy = .error e :=
  bind_pure_eq_error_iff

theorem left_join_of_empty (none : a.rows = []) : leftJoin a b matching policy = .ok ⟨"", []⟩ := by
  rw [leftJoin, none]
  rfl

theorem none_seen (count j : Nat) : (rightsSeen count []).getD j false = false := by
  rw [rights_seen_eq, List.getD_eq_getElem?_getD, List.getElem?_map]
  cases (List.range count)[j]? <;> rfl

theorem full_join_error_iff : fullJoin a b matching policy = .error e ↔
    leftJoin a b matching policy = .error e ∨
      policy = .error ∧ b.rows ≠ [] ∧ a.rows = [] ∧ e = .emptyPadding a.name := by
  rw [fullJoin, bind_eq_error_iff]
  refine or_congr_right ?_
  simp only [bind_pure_eq_error_iff, mapM_error_iff_of_all fun _ _ => right_padding_row_error_iff,
    padding_cells_error_iff]
  constructor
  · rintro ⟨left, -, unmatched, strict, none, rfl⟩
    exact ⟨strict, fun empty => unmatched (by simp [empty]), none, rfl⟩
  · rintro ⟨strict, some_row, none, rfl⟩
    refine ⟨_, left_join_of_empty none, ?_, strict, none, rfl⟩
    simp only [none_seen, Bool.not_false, List.filter_true]
    simpa using some_row

end Full

theorem join_error_iff {kind : JoinKind} : join kind a b matching policy = .error e ↔
    policy = .error ∧
      ((kind = .left ∨ kind = .full) ∧ a.rows ≠ [] ∧ b.rows = [] ∧ e = .emptyPadding b.name ∨
        (kind = .right ∨ kind = .full) ∧ b.rows ≠ [] ∧ a.rows = [] ∧
          e = .emptyPadding a.name) := by
  cases kind with
  | cross => simp [join]
  | inner => simp [join]
  | left => simp [join, left_join_error_iff]
  | right => simp [join, rightJoin, left_join_error_iff]
  | full =>
    rw [join, full_join_error_iff, left_join_error_iff]
    simp [and_or_left]

/-- A join fails exactly where the policy asks for columns to pad with and a side
that is kept whole has rows while the other has none; the error names the empty
table. So it fails for every predicate or for none, and two empty tables, or two
that are not, are always joined. -/
theorem join_fails_iff_nothing_to_pad_with (kind : JoinKind) (a b : Table) (matching : Predicate)
    (policy : PaddingPolicy) :
    (∀ e, join kind a b matching policy = .error e ↔
      policy = .error ∧
        ((kind = .left ∨ kind = .full) ∧ a.rows ≠ [] ∧ b.rows = [] ∧ e = .emptyPadding b.name ∨
          (kind = .right ∨ kind = .full) ∧ b.rows ≠ [] ∧ a.rows = [] ∧
            e = .emptyPadding a.name)) ∧
    (∀ (other : Predicate) (e : QueryError),
      join kind a b matching policy = .error e ↔ join kind a b other policy = .error e) ∧
    ((a.rows = [] ↔ b.rows = []) → ∃ out, join kind a b matching policy = .ok out) := by
  refine ⟨fun e => join_error_iff, fun other e => join_error_iff.trans join_error_iff.symm, ?_⟩
  intro alike
  cases outcome : join kind a b matching policy with
  | ok out => exact ⟨out, rfl⟩
  | error e =>
    obtain ⟨-, ⟨-, rows, none, -⟩ | ⟨-, rows, none, -⟩⟩ := join_error_iff.mp outcome
    · exact absurd (alike.mpr none) rows
    · exact absurd (alike.mp none) rows

/-- Guests without any visits cannot be padded, nor visits without any guests;
without both there is nothing to pad, and with both nothing is missing, though no
pair satisfies the predicate. -/
theorem full_join_of_guests_or_visits :
    join .full guests ⟨"v", []⟩ sameId .error = .error (.emptyPadding "v") ∧
    join .full ⟨"g", []⟩ visits sameId .error = .error (.emptyPadding "g") ∧
    (∃ out, join .full ⟨"g", []⟩ ⟨"v", []⟩ sameId .error = .ok out) ∧
    (∃ out, join .full guests visits (fun _ => false) .error = .ok out) := by
  refine ⟨?_, ?_, ?_, ?_⟩
  · refine ((join_fails_iff_nothing_to_pad_with .full guests ⟨"v", []⟩ sameId .error).1 _).mpr ?_
    exact ⟨rfl, .inl ⟨.inr rfl, by decide, rfl, rfl⟩⟩
  · refine ((join_fails_iff_nothing_to_pad_with .full ⟨"g", []⟩ visits sameId .error).1 _).mpr ?_
    exact ⟨rfl, .inr ⟨.inr rfl, by decide, rfl, rfl⟩⟩
  · exact (join_fails_iff_nothing_to_pad_with .full ⟨"g", []⟩ ⟨"v", []⟩ sameId .error).2.2 Iff.rfl
  · refine (join_fails_iff_nothing_to_pad_with .full guests visits (fun _ => false) .error).2.2 ?_
    decide

end Table
end TableAlgebra
