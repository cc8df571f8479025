import TableAlgebra.Proofs.Query.UniformJoins

namespace TableAlgebra
namespace Table

section Splitting

def GoesOn (name longer : String) : Prop := ∃ rest, longer = name ++ "." ++ rest

theorem goes_on_iff (name longer : String) :
    GoesOn name longer ↔ name.toList ++ ['.'] <+: longer.toList := by
  constructor
  · rintro ⟨rest, rfl⟩
    exact ⟨rest.toList, by simp⟩
  · rintro ⟨rest, split⟩
    refine ⟨String.ofList rest, ?_⟩
    apply String.toList_inj.mp
    simp [← split]

instance (name longer : String) : Decidable (GoesOn name longer) :=
  decidable_of_iff _ (goes_on_iff name longer).symm

/-- The longer name goes on from the shorter one by what the column of the shorter
has in front of the column of the longer. -/
def SplitsEarlier (name column longer other : String) : Prop :=
  ∃ rest, longer = name ++ "." ++ rest ∧ column = rest ++ "." ++ other

theorem dotted_split {name column longer other : List Char} (differ : name ≠ longer) :
    name ++ '.' :: column = longer ++ '.' :: other ↔
      (∃ rest, longer = name ++ '.' :: rest ∧ column = rest ++ '.' :: other) ∨
      ∃ rest, name = longer ++ '.' :: rest ∧ other = rest ++ '.' :: column := by
  constructor
  · intro same
    rcases List.append_eq_append_iff.mp same with ⟨more, front, back⟩ | ⟨more, front, back⟩
    · cases more with
      | nil => simp_all
      | cons dot rest =>
        obtain ⟨rfl, rfl⟩ := List.cons.inj back
        exact .inl ⟨rest, front, rfl⟩
    · cases more with
      | nil => simp_all
      | cons dot rest =>
        obtain ⟨rfl, rfl⟩ := List.cons.inj back
        exact .inr ⟨rest, front, rfl⟩
  · rintro (⟨rest, rfl, rfl⟩ | ⟨rest, rfl, rfl⟩)
    · simp
    · simp

theorem qualify_named {table : Table} (named : table.name ≠ "") (column : String) :
    table.qualify column = table.name ++ "." ++ column := if_neg named

theorem splits_earlier_iff (name column longer other : String) :
    SplitsEarlier name column longer other ↔
      ∃ rest, longer.toList = name.toList ++ '.' :: rest ∧
        column.toList = rest ++ '.' :: other.toList := by
  constructor
  · rintro ⟨rest, rfl, rfl⟩
    exact ⟨rest.toList, by simp, by simp⟩
  · rintro ⟨rest, front, back⟩
    refine ⟨String.ofList rest, ?_, ?_⟩
    · apply String.toList_inj.mp
      simp [front]
    · apply String.toList_inj.mp
      simp [back]

variable {a b : Table}

theorem qualify_eq_iff (namedA : a.name ≠ "") (namedB : b.name ≠ "") (differ : a.name ≠ b.name)
    (c d : String) :
    a.qualify c = b.qualify d ↔
      SplitsEarlier a.name c b.name d ∨ SplitsEarlier b.name d a.name c := by
  have apart : a.name.toList ≠ b.name.toList := mt String.toList_inj.mp differ
  rw [qualify_named namedA, qualify_named namedB, splits_earlier_iff, splits_earlier_iff,
    ← dotted_split apart, ← String.toList_inj]
  simp

theorem qualify_apart (namedA : a.name ≠ "") (namedB : b.name ≠ "") (differ : a.name ≠ b.name)
    (aside : ¬GoesOn a.name b.name) (beside : ¬GoesOn b.name a.name) (c d : String) :
    a.qualify c ≠ b.qualify d := by
  intro same
  rcases (qualify_eq_iff namedA namedB differ c d).mp same with
    ⟨rest, front, -⟩ | ⟨rest, front, -⟩
  · exact aside ⟨rest, front⟩
  · exact beside ⟨rest, front⟩

end Splitting

section Cells

variable {a b : Table} {x y : Row} {i j : Nat}

/-- The columns of a right row that the left row of the pair has under the same
qualified name. -/
def meetingColumns (a b : Table) (x y : Row) : List String :=
  y.columns.filter fun d => b.qualify d ∈ x.columns.map a.qualify

theorem size_eq_columns (row : Row) : row.size = row.columns.length := by
  rw [Row.columns, Entries.names, List.length_map]
  rfl

theorem size_pair (a b : Table) (i j : Nat) (x y : Row) :
    (pairRow a b i j x y).size + (meetingColumns a b x y).length = x.size + y.size := by
  have distinctX : (x.columns.map a.qualify).Nodup := x.cells.distinct.map a.qualify_injective
  have distinctY : (y.columns.map b.qualify).Nodup := y.cells.distinct.map b.qualify_injective
  have added : ((y.columns.map b.qualify).removeAll (x.columns.map a.qualify)).Nodup :=
    distinctY.filter _
  have split := List.length_eq_length_filter_add (l := y.columns)
    fun d => decide (b.qualify d ∈ x.columns.map a.qualify)
  rw [size_eq_columns, columns_pair, List.eraseDups_append, erase_dups_of_nodup distinctX,
    erase_dups_of_nodup added, List.length_append, List.length_map, List.removeAll,
    List.filter_map, List.length_map, size_eq_columns, size_eq_columns, meetingColumns, split]
  simp only [Function.comp_def, List.elem_eq_mem]
  omega

theorem read_right {d : String} (own : d ∈ y.columns) :
    (pairRow a b i j x y).get? (b.qualify d) = y.get? d := by
  rw [get?_pair, own_column_stands own]

theorem read_left {c : String} (apart : ∀ d ∈ y.columns, a.qualify c ≠ b.qualify d) :
    (pairRow a b i j x y).get? (a.qualify c) = x.get? c := by
  have missing : (b.qualifiedCells y).lookup (a.qualify c) = none := by
    apply Option.not_isSome_iff_eq_none.mp
    intro found
    rw [lookup_isSome_iff, names_qualified] at found
    obtain ⟨d, own, same⟩ := List.mem_map.mp found
    exact apart d own same.symm
  rw [get?_pair, missing, lookup_qualified]
  rfl

structure HoldsBoth (a b : Table) (x y row : Row) : Prop where
  size : row.size = x.size + y.size
  left : ∀ c ∈ x.columns, row.get? (a.qualify c) = x.get? c
  right : ∀ d ∈ y.columns, row.get? (b.qualify d) = y.get? d

theorem meeting_columns_nil_iff :
    meetingColumns a b x y = [] ↔ ∀ c ∈ x.columns, ∀ d ∈ y.columns, a.qualify c ≠ b.qualify d := by
  rw [meetingColumns, List.filter_eq_nil_iff]
  constructor
  · intro none c ownX d ownY same
    exact none d ownY (decide_eq_true (same ▸ List.mem_map_of_mem ownX))
  · intro apart d ownY meets
    obtain ⟨c, ownX, same⟩ := List.mem_map.mp (of_decide_eq_true meets)
    exact apart c ownX d ownY same

theorem holds_both_iff :
    HoldsBoth a b x y (pairRow a b i j x y) ↔ meetingColumns a b x y = [] := by
  have size := size_pair a b i j x y
  constructor
  · intro holds
    have whole := holds.size
    exact List.eq_nil_of_length_eq_zero (by omega)
  · intro none
    have apart := meeting_columns_nil_iff.mp none
    rw [none, List.length_nil] at size
    exact ⟨size, fun c own => read_left (apart c own), fun d => read_right⟩

theorem pair_of_provenance {row : Row} (member : row ∈ (crossJoin a b).rows)
    (origin : row.provenance = some (.pair i j)) :
    ∃ x y, a.rows[i]? = some x ∧ b.rows[j]? = some y ∧ row = pairRow a b i j x y := by
  obtain ⟨i', j', x, y, placeX, placeY, rfl⟩ := mem_cross_join.mp member
  cases origin
  exact ⟨x, y, placeX, placeY, rfl⟩

end Cells

/-- Two tables with names of their own give one qualified name exactly where it is
split at another dot. A row of their product then holds the right value under it
and has one column less for each such name; it holds both rows whole exactly if no
two of their columns meet, and it always does if neither table's name goes on from
the other's behind a dot. -/
theorem qualified_columns_meet_at_dots {a b : Table} (namedA : a.name ≠ "") (namedB : b.name ≠ "")
    (differ : a.name ≠ b.name) :
    (∀ c d, a.qualify c = b.qualify d ↔
      SplitsEarlier a.name c b.name d ∨ SplitsEarlier b.name d a.name c) ∧
    ∀ row ∈ (crossJoin a b).rows, ∀ i j, row.provenance = some (.pair i j) →
      ∃ x y, a.rows[i]? = some x ∧ b.rows[j]? = some y ∧
        row.size + (meetingColumns a b x y).length = x.size + y.size ∧
        (∀ d ∈ y.columns, row.get? (b.qualify d) = y.get? d) ∧
        (∀ c, (∀ d ∈ y.columns, a.qualify c ≠ b.qualify d) → row.get? (a.qualify c) = x.get? c) ∧
        (HoldsBoth a b x y row ↔ meetingColumns a b x y = []) ∧
        (¬GoesOn a.name b.name → ¬GoesOn b.name a.name → HoldsBoth a b x y row) := by
  refine ⟨qualify_eq_iff namedA namedB differ, ?_⟩
  intro row member i j origin
  obtain ⟨x, y, placeX, placeY, rfl⟩ := pair_of_provenance member origin
  refine ⟨x, y, placeX, placeY, size_pair a b i j x y, fun d => read_right, fun c => read_left,
    holds_both_iff, ?_⟩
  intro aside beside
  rw [holds_both_iff, meeting_columns_nil_iff]
  intro c _ d _
  exact qualify_apart namedA namedB differ aside beside c d

def staffRow : Row := .ofCells (.ofList [("id", .int 1), ("mgr.id", .int 2)])

def staff : Table := ⟨"emp", [staffRow]⟩

theorem staff_beside_copy :
    staff.name ≠ "" ∧ (staff.aliased "boss.emp").name ≠ "" ∧
    staff.name ≠ (staff.aliased "boss.emp").name ∧
    ∃ row ∈ (crossJoin staff (staff.aliased "boss.emp")).rows,
      row.size = 4 ∧ row.get? "emp.mgr.id" = some (.int 2) ∧
      row.get? "boss.emp.id" = some (.int 1) := by
  have namedA : staff.name ≠ "" := by decide
  have namedB : (staff.aliased "boss.emp").name ≠ "" := by decide
  have differ : staff.name ≠ (staff.aliased "boss.emp").name := by decide
  obtain ⟨-, pairs⟩ := qualified_columns_meet_at_dots namedA namedB differ
  obtain ⟨x, y, placeX, placeY, -, -, -, -, apart⟩ := pairs _ (by exact List.mem_cons_self) 0 0 rfl
  cases placeX
  cases placeY
  have holds := apart (by decide) (by decide)
  exact ⟨namedA, namedB, differ, _, List.mem_cons_self, holds.size,
    holds.left "mgr.id" (by decide), holds.right "id" (by decide)⟩

/-- Beside a copy called `emp.mgr` two columns meet: the number of the superior is
gone, and the copy's own number stands in its place. -/
theorem aliased_copy_writes_over_columns :
    staff.name ≠ "" ∧ (staff.aliased "emp.mgr").name ≠ "" ∧
    staff.name ≠ (staff.aliased "emp.mgr").name ∧
    ∃ row, (crossJoin staff (staff.aliased "emp.mgr")).rows = [row] ∧
      row.provenance = some (.pair 0 0) ∧
      row.cells.toList =
        [("emp.id", .int 1), ("emp.mgr.id", .int 1), ("emp.mgr.mgr.id", .int 2)] ∧
      ¬HoldsBoth staff (staff.aliased "emp.mgr") staffRow staffRow row := by
  refine ⟨by decide, by decide, by decide,
    pairRow staff (staff.aliased "emp.mgr") 0 0 staffRow staffRow, rfl, rfl, rfl, ?_⟩
  rw [holds_both_iff]
  decide

end Table
end TableAlgebra
