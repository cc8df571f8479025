import TableAlgebra.Proofs.GroupKey
import TableAlgebra.Proofs.Query.Grouping
import TableAlgebra.Query.Select

namespace TableAlgebra

section Gather

variable {κ α : Type} [DecidableEq κ]

theorem gather_filter {key : α → κ} {values : List α} {keep : α → Bool} {p : κ → Bool}
    (decided : ∀ v ∈ values, keep v = p (key v)) :
    gather key (values.filter keep) = (gather key values).filter fun group => p group.1 := by
  have keys : (values.filter keep).map key = (values.map key).filter p := by
    rw [List.filter_congr decided, List.filter_map]
    rfl
  rw [gather_eq, gather_eq, keys, erase_dups_filter, List.filter_map]
  apply List.map_congr_left
  intro k member
  have kept : p k = true := (List.mem_filter.mp member).2
  have whole : (values.filter keep).filter (key · = k) = values.filter (key · = k) := by
    rw [List.filter_filter]
    apply List.filter_congr
    intro v inside
    by_cases here : key v = k
    · simp [here, decided v inside, kept]
    · simp [here]
  rw [whole]

end Gather

namespace Table

def DecidedByKey (columns : List String) (holds : Predicate) : Prop :=
  ∀ r q : Row, r.Storable → q.Storable → r.keyBytes columns = q.keyBytes columns →
    holds r = holds q

/-- Predicates made of tests whether a listed column equals a constant, which may
also be a bare text. A constant that stands first must name no entry of a record
twice, as no value in memory does. -/
inductive ComparesKey (columns : List String) : Predicate → Prop where
  | equals {column : String} (listed : column ∈ columns) (v : Value) :
      ComparesKey columns fun row => row.value column == v
  | equalled {column : String} (listed : column ∈ columns) {v : Value} (formed : v.WellFormed) :
      ComparesKey columns fun row => v == row.value column
  | text {column : String} (listed : column ∈ columns) (s : String) :
      ComparesKey columns fun row => (row.value column).toText? == some s
  | always (answer : Bool) : ComparesKey columns fun _ => answer
  | negation {holds : Predicate} (inner : ComparesKey columns holds) :
      ComparesKey columns fun row => !holds row
  | both {first second : Predicate} (left : ComparesKey columns first)
      (right : ComparesKey columns second) :
      ComparesKey columns fun row => first row && second row
  | either {first second : Predicate} (left : ComparesKey columns first)
      (right : ComparesKey columns second) :
      ComparesKey columns fun row => first row || second row

variable {table : Table} {columns : List String} {holds : Predicate}

theorem compares_key_decided (compares : ComparesKey columns holds) :
    DecidedByKey columns holds := by
  intro r q storableR storableQ same
  have alike := (Row.key_bytes_eq_iff_each storableR storableQ).mp same
  have formedR (c : String) := (Row.value_storable storableR c).formed
  have formedQ (c : String) := (Row.value_storable storableQ c).formed
  induction compares with
  | @equals c listed v => exact Value.equal_of_alike (formedR c) (formedQ c) (alike c listed) v
  | @equalled c listed v formed =>
    calc v.equal (r.value c)
        = (r.value c).equal v := Value.equal_comm formed (formedR c)
      _ = (q.value c).equal v := Value.equal_of_alike (formedR c) (formedQ c) (alike c listed) v
      _ = v.equal (q.value c) := Value.equal_comm (formedQ c) formed
  | @text c listed s => exact congrArg (· == some s) (Value.text_of_alike (alike c listed))
  | always answer => rfl
  | negation _ ih => exact congrArg (!·) ih
  | both _ _ left right => exact congrArg₂ (· && ·) left right
  | either _ _ left right => exact congrArg₂ (· || ·) left right

theorem group_row_storable {first : Row} (rest : List Row) (storable : first.Storable) :
    (groupRow columns (first :: rest)).Storable := by
  intro cell member
  have found : (first.project (sameNames columns)).get? cell.1 = some cell.2 :=
    lookup_of_mem (first.project (sameNames columns)).cells.distinct member
  rw [Row.get?_project_same] at found
  split at found
  · exact storable cell (mem_of_lookup found)
  · cases found

theorem collision_free_filter (injective : CollisionFree columns table.rows) :
    CollisionFree columns (table.filter holds).rows :=
  collision_free_among injective fun _ => List.mem_of_mem_filter

theorem group_row_answer (storable : ∀ row ∈ table.rows, row.Storable)
    (injective : CollisionFree columns table.rows) (decided : DecidedByKey columns holds)
    {row : Row} (inside : row ∈ table.rows) :
    holds row =
      holds (groupRow columns (table.rows.filter (·.key columns = row.key columns))) := by
  have occurs : row.key columns ∈ table.rows.map (·.key columns) := List.mem_map_of_mem inside
  obtain ⟨first, rest, members, keys⟩ := class_of_key occurs
  have member : first ∈ table.rows := by
    have listed : first ∈ table.rows.filter (·.key columns = row.key columns) := by
      rw [members]
      exact List.mem_cons_self
    exact List.mem_of_mem_filter listed
  have same : row.keyBytes columns = (groupRow columns (first :: rest)).keyBytes columns := by
    rw [group_row_key_bytes]
    exact injective row inside first member (keys first List.mem_cons_self).symm
  rw [members]
  exact decided row _ (storable row inside) (group_row_storable rest (storable first member)) same

theorem group_by_filter (storable : ∀ row ∈ table.rows, row.Storable)
    (injective : CollisionFree columns table.rows) (decided : DecidedByKey columns holds) :
    (table.filter holds).groupBy columns = (table.groupBy columns).filter holds := by
  have groups : gather (·.key columns) (table.rows.filter holds) =
      (gather (·.key columns) table.rows).filter fun group =>
        holds (groupRow columns (table.rows.filter (·.key columns = group.1))) :=
    gather_filter (p := fun k => holds (groupRow columns (table.rows.filter (·.key columns = k))))
      fun row inside => group_row_answer storable injective decided inside
  have asked : ((gather (·.key columns) table.rows).filter fun group =>
      holds (groupRow columns (table.rows.filter (·.key columns = group.1)))) =
      (gather (·.key columns) table.rows).filter fun group =>
        holds (groupRow columns group.2) := by
    apply List.filter_congr
    intro group member
    rw [group_of_gather member]
  refine congrArg (Table.mk table.name) ?_
  change (gather (·.key columns) (table.rows.filter holds)).map _ =
    (table.groupBy columns).rows.filter holds
  rw [groups, asked, group_rows_eq, List.filter_map]
  rfl

/-- A condition on the key may be asked after grouping or before it: the table is
the same, with its name, its group rows in their order and the columns and the
members of each. Conditions on the key are, among others, those that compare
listed columns with constants. -/
theorem having_on_key_is_filter (storable : ∀ row ∈ table.rows, row.Storable)
    (injective : CollisionFree columns table.rows) :
    (∀ holds, DecidedByKey columns holds →
      (table.groupBy columns).having holds = (table.filter holds).groupBy columns) ∧
    ∀ holds, ComparesKey columns holds → DecidedByKey columns holds := by
  refine ⟨fun holds decided => ?_, fun holds => compares_key_decided⟩
  exact (group_by_filter storable injective decided).symm

def firstOrNone (row : Row) : Bool :=
  row.value "region" == .int 1 || Value.null == row.value "region"

theorem having_first_or_none :
    (∀ row ∈ sales.rows, row.Storable) ∧ CollisionFree ["region"] sales.rows ∧
    DecidedByKey ["region"] firstOrNone ∧
    ((sales.groupBy ["region"]).having firstOrNone).rows.map
        (fun group => (group.members.getD []).map Row.provenance) =
      [[some (.leftOnly 0), some (.leftOnly 2)], [some (.leftOnly 1), some (.leftOnly 4)]] := by
  have storable : ∀ row ∈ sales.rows, row.Storable := by decide +kernel
  obtain ⟨same, compares⟩ := having_on_key_is_filter storable sales_collision_free
  have decided : DecidedByKey ["region"] firstOrNone := by
    refine compares _ (.either (.equals ?_ _) (.equalled ?_ ?_)) <;> decide
  refine ⟨storable, sales_collision_free, decided, ?_⟩
  rw [same _ decided, group_by_rows (collision_free_filter sales_collision_free)]
  decide +kernel

end Table
end TableAlgebra
