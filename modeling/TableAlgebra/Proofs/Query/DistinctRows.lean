import TableAlgebra.Proofs.GroupKey
import TableAlgebra.Proofs.Query.Grouping

namespace TableAlgebra

section Loops

variable {κ α : Type} [DecidableEq κ] {key : α → κ} {values : List α}

def lastOfGroup (default : α) (group : κ × List α) : κ × α :=
  (group.1, group.2.getLastD default)

theorem put_last (default : α) (k : κ) (value : α) (groups : List (κ × List α)) :
    putEntry k value (groups.map (lastOfGroup default)) =
      (appendTo k value groups).map (lastOfGroup default) := by
  induction groups with
  | nil => rfl
  | cons group rest ih =>
    obtain ⟨other, members⟩ := group
    rw [List.map_cons, appendTo, lastOfGroup, putEntry]
    split
    · rename_i same
      rw [List.map_cons, lastOfGroup, List.getLastD_concat, ← same]
    · rw [List.map_cons, ih]
      rfl

theorem last_of_each_eq (default : α) (key : α → κ) (values : List α) :
    lastOfEach key values = (gather key values).map (lastOfGroup default) := by
  -- from the end, since both loops carry what they keep from the front
  induction values using List.reverseRecOn with
  | nil => rfl
  | append_singleton values value ih =>
    rw [last_of_each_concat, gather_concat, ih, put_last]

theorem group_last {group : κ × List α} (member : group ∈ gather key values) :
    ∃ before last, group.2 = before ++ [last] ∧ last ∈ values ∧ key last = group.1 := by
  have members := group_of_gather member
  have occurs : group.1 ∈ values.map key := by
    rw [gather_eq] at member
    obtain ⟨k, listed, rfl⟩ := List.mem_map.mp member
    exact List.mem_eraseDups.mp listed
  obtain ⟨first, rest, some_values, -⟩ := class_of_key occurs
  rcases List.eq_nil_or_concat' group.2 with none_found | ⟨before, last, split⟩
  · rw [members, some_values] at none_found
    cases none_found
  · have here : last ∈ values.filter (key · = group.1) := by
      rw [← members, split]
      exact List.mem_append_right before (List.mem_singleton_self last)
    obtain ⟨inside, same⟩ := List.mem_filter.mp here
    exact ⟨before, last, split, inside, of_decide_eq_true same⟩

theorem last_of_each_of_nodup (distinct : (values.map key).Nodup) :
    lastOfEach key values = values.map fun value => (key value, value) := by
  induction values using List.reverseRecOn with
  | nil => rfl
  | append_singleton values value ih =>
    rw [List.map_append, List.map_singleton] at distinct
    obtain ⟨before, -, apart⟩ := List.nodup_append.mp distinct
    have new : key value ∉ (values.map fun value => (key value, value)).map Prod.fst := by
      rw [List.map_map]
      exact fun old => apart (key value) old (key value) (List.mem_singleton_self _) rfl
    rw [last_of_each_concat, ih before, putEntry_new new, List.map_append, List.map_singleton]

end Loops

namespace Table

/-- A row shows the listed columns that the last member of a group has, where they
are first listed and with its values, and carries nothing else. -/
def ShowsLast (columns : List String) (row group : Row) : Prop :=
  ∃ before last, group.members = some (before ++ [last]) ∧
    row.columns = (columns.filter last.contains).eraseDups ∧
    (∀ c, row.get? c = if c ∈ columns then last.get? c else none) ∧
    row.provenance = none ∧ row.members = none

variable {table : Table} {columns : List String} {row : Row}

theorem distinct_rows (table : Table) (columns : List String) :
    (table.distinct columns).rows = (gather (·.key columns) table.rows).map fun group =>
      (group.2.getLastD .empty).project (sameNames columns) := by
  change List.map _ (lastOfEach _ _) = _
  rw [last_of_each_eq .empty, List.map_map]
  rfl

theorem rows_show_last (table : Table) (columns : List String) :
    List.Forall₂ (ShowsLast columns) (table.distinct columns).rows
      (table.groupBy columns).rows := by
  rw [distinct_rows, group_rows_eq, List.forall₂_map_left_iff, List.forall₂_map_right_iff,
    List.forall₂_same]
  intro group member
  obtain ⟨before, last, split, -⟩ := group_last member
  rw [split, List.getLastD_concat]
  exact ⟨before, last, rfl, Row.columns_project_same columns,
    Row.get?_project_same columns, rfl, rfl⟩

theorem distinct_keys (table : Table) (columns : List String) :
    (table.distinct columns).rows.map (·.key columns) =
      (table.rows.map (·.key columns)).eraseDups := by
  have kept : ∀ group ∈ gather (·.key columns) table.rows,
      ((group.2.getLastD .empty).project (sameNames columns)).key columns = group.1 := by
    intro group member
    obtain ⟨before, last, split, -, same⟩ := group_last member
    rw [split, List.getLastD_concat, Row.key, Row.key_bytes_project fun _ => id]
    exact same
  rw [distinct_rows, List.map_map]
  refine (List.map_congr_left kept).trans ?_
  rw [gather_eq, List.map_map]
  exact List.map_id _

theorem distinct_keys_nodup (table : Table) (columns : List String) :
    ((table.distinct columns).rows.map (·.key columns)).Nodup := by
  rw [distinct_keys]
  exact erase_dups_nodup _

theorem distinct_row_origin (inside : row ∈ (table.distinct columns).rows) :
    ∃ last ∈ table.rows, row = last.project (sameNames columns) := by
  rw [distinct_rows] at inside
  obtain ⟨group, member, rfl⟩ := List.mem_map.mp inside
  obtain ⟨before, last, split, listed, -⟩ := group_last member
  exact ⟨last, listed, by rw [split, List.getLastD_concat]⟩

theorem key_of_equal {other : Row} (formed : ∀ row ∈ table.rows, row.WellFormed)
    (left : row ∈ (table.distinct columns).rows) (right : other ∈ (table.distinct columns).rows)
    (equal : ∀ c ∈ columns, (row.value c == other.value c) = true) :
    row.key columns = other.key columns := by
  have formed' : ∀ row ∈ (table.distinct columns).rows, ∀ c ∈ columns,
      (row.value c).WellFormed := by
    intro row inside c listed
    obtain ⟨last, inside', rfl⟩ := distinct_row_origin inside
    rw [Row.value_project_same listed]
    exact Row.value_well_formed (formed last inside') c
  refine congrArg Blake3.digest (Row.key_bytes_of_each fun c listed => ?_)
  exact Value.encode_alike (formed' row left c listed) (formed' other right c listed)
    (Value.equal_iff_alike.mp (equal c listed)).1

theorem distinct_twice (table : Table) (columns : List String) :
    (table.distinct columns).distinct columns = table.distinct columns := by
  have shown : ∀ row ∈ (table.distinct columns).rows,
      row.project (sameNames columns) = row := by
    intro row inside
    obtain ⟨last, -, rfl⟩ := distinct_row_origin inside
    exact Row.project_twice
  refine congrArg (Table.mk table.name) ?_
  rw [last_of_each_of_nodup (distinct_keys_nodup table columns), List.map_map]
  exact (List.map_congr_left shown).trans (List.map_id _)

/-- DISTINCT gives one row for each group of GROUP BY, in the same order: the
listed columns of the group's last member. No two of its rows are equal on all
listed columns, and a second DISTINCT changes nothing. -/
theorem distinct_shows_last_of_groups (table : Table) (columns : List String) :
    (table.distinct columns).name = table.name ∧
    List.Forall₂ (ShowsLast columns) (table.distinct columns).rows
      (table.groupBy columns).rows ∧
    ((∀ row ∈ table.rows, row.WellFormed) → ∀ (i j : Nat) (r q : Row),
      (table.distinct columns).rows[i]? = some r → (table.distinct columns).rows[j]? = some q →
      (∀ c ∈ columns, (r.value c == q.value c) = true) → i = j) ∧
    (table.distinct columns).distinct columns = table.distinct columns := by
  refine ⟨rfl, rows_show_last table columns, ?_, distinct_twice table columns⟩
  intro formed i j r q placeR placeQ equal
  have same := key_of_equal formed (List.mem_of_getElem? placeR) (List.mem_of_getElem? placeQ) equal
  have keys : ((table.distinct columns).rows.map (·.key columns))[i]? =
      ((table.distinct columns).rows.map (·.key columns))[j]? := by
    rw [List.getElem?_map, List.getElem?_map, placeR, placeQ, Option.map_some, Option.map_some,
      same]
  have inside : i < ((table.distinct columns).rows.map (·.key columns)).length := by
    rw [List.length_map]
    exact (List.getElem?_eq_some_iff.mp placeR).1
  exact (List.getElem?_inj inside (distinct_keys_nodup table columns)).mp keys

theorem distinct_of_sales :
    (∀ row ∈ sales.rows, row.WellFormed) ∧
    (sales.distinct ["region"]).rows.map (fun row =>
        (row.columns, (row.value "region").toInt?, (row.value "region").toText?)) =
      [(["region"], none, none), ([], none, none), (["region"], none, some "1")] ∧
    (∀ (i j : Nat) (r q : Row), (sales.distinct ["region"]).rows[i]? = some r →
      (sales.distinct ["region"]).rows[j]? = some q →
      (r.value "region" == q.value "region") = true → i = j) := by
  have formed : ∀ row ∈ sales.rows, row.WellFormed := by decide +kernel
  obtain ⟨-, -, apart, -⟩ := distinct_shows_last_of_groups sales ["region"]
  refine ⟨formed, ?_, fun i j r q placeR placeQ equal => ?_⟩
  · rw [distinct_rows, gather_by_bytes sales_collision_free]
    decide +kernel
  · exact apart formed i j r q placeR placeQ (List.forall_mem_singleton.mpr equal)

end Table
end TableAlgebra
