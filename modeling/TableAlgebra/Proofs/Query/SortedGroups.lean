import TableAlgebra.Proofs.Query.OrderBy
import TableAlgebra.Proofs.Query.RollUp

namespace TableAlgebra.Table

open SortKey (compareRows)

variable {table : Table} {columns : List String} {cmp : Comparison} {group sorted : Row}

theorem sort_by_filter (preorder : PreorderOn cmp table.rows) (holds : Predicate) :
    (table.sortBy cmp).filter holds = (table.filter holds).sortBy cmp :=
  congrArg (Table.mk table.name) (merge_sort_filter preorder holds)

theorem collision_free_sorted (injective : CollisionFree columns table.rows) :
    CollisionFree columns (table.sortBy cmp).rows :=
  collision_free_among injective fun _ => List.mem_mergeSort.mp

theorem keys_of_sorted_groups (injective : CollisionFree columns table.rows) :
    (((table.sortBy cmp).groupBy columns).rows.map (·.keyBytes columns)).Perm
      ((table.groupBy columns).rows.map (·.keyBytes columns)) := by
  rw [group_by_keys injective, group_by_keys (collision_free_sorted injective)]
  exact erase_dups_perm ((List.mergeSort_perm _ _).map _)

theorem members_of_sorted_group (preorder : PreorderOn cmp table.rows)
    (injective : CollisionFree columns table.rows) (inside : group ∈ (table.groupBy columns).rows)
    (inside' : sorted ∈ ((table.sortBy cmp).groupBy columns).rows)
    (same : sorted.keyBytes columns = group.keyBytes columns) :
    ∃ members inOrder, group.members = some members ∧ sorted.members = some inOrder ∧
      (∀ row, row ∈ members ↔
        row ∈ table.rows ∧ row.keyBytes columns = group.keyBytes columns) ∧
      Arranges cmp members inOrder := by
  refine ⟨_, _, group_members_eq injective inside,
    group_members_eq (collision_free_sorted injective) inside', ?_, ?_⟩
  · intro row
    rw [List.mem_filter, decide_eq_true_iff]
  · rw [same]
    exact arranges_filter _ (sort_by_arranges preorder)

/-- Sorting a table and then filtering it is the same as filtering it first. Sorting
it before it is grouped makes groups of the same keys, each with the members that it
has without sorting, in their one stable arrangement. -/
theorem sort_before_filter_and_groups (preorder : PreorderOn cmp table.rows) :
    (∀ holds, (table.sortBy cmp).filter holds = (table.filter holds).sortBy cmp) ∧
    ∀ columns, CollisionFree columns table.rows →
      (((table.sortBy cmp).groupBy columns).rows.map (·.keyBytes columns)).Perm
        ((table.groupBy columns).rows.map (·.keyBytes columns)) ∧
      ∀ group ∈ (table.groupBy columns).rows,
        ∀ sorted ∈ ((table.sortBy cmp).groupBy columns).rows,
          sorted.keyBytes columns = group.keyBytes columns →
          ∃ members inOrder, group.members = some members ∧ sorted.members = some inOrder ∧
            (∀ row, row ∈ members ↔
              row ∈ table.rows ∧ row.keyBytes columns = group.keyBytes columns) ∧
            Arranges cmp members inOrder := by
  refine ⟨sort_by_filter preorder, fun columns injective => ⟨keys_of_sorted_groups injective, ?_⟩⟩
  intro group inside sorted inside' same
  exact members_of_sorted_group preorder injective inside inside' same

def byLevel : Comparison := compareRows .last [⟨"level", true⟩]

theorem shifts_sorted_in_groups :
    PreorderOn byLevel shifts.rows ∧ CollisionFree ["team"] shifts.rows ∧
    ((shifts.sortBy byLevel).filter (·.contains "team")).rows =
      [5, 0, 4, 6, 7, 2, 3].map shiftAt ∧
    ∃ group ∈ (shifts.groupBy ["team"]).rows,
      ∃ sorted ∈ ((shifts.sortBy byLevel).groupBy ["team"]).rows,
        sorted.keyBytes ["team"] = group.keyBytes ["team"] ∧
        group.members = some ([2, 4, 7].map shiftAt) ∧
        sorted.members = some ([4, 7, 2].map shiftAt) := by
  have preorder : PreorderOn byLevel shifts.rows := SortKey.compare_rows_preorder (by decide)
  have injective : CollisionFree ["team"] shifts.rows :=
    collision_free_of_blocks (by decide +kernel) (by decide +kernel)
  obtain ⟨filtered, grouped⟩ := sort_before_filter_and_groups preorder
  obtain ⟨keys, members⟩ := grouped ["team"] injective
  refine ⟨preorder, injective, ?_, ?_⟩
  · rw [filtered]
    have left : PreorderOn byLevel (shifts.filter (·.contains "team")).rows :=
      preorder_among preorder fun _ => List.mem_of_mem_filter
    have arranged : Arranges byLevel ([0, 2, 3, 4, 5, 6, 7].map shiftAt)
        ([5, 0, 4, 6, 7, 2, 3].map shiftAt) := arranges_map shiftAt _ (by decide +kernel)
    exact arranges_unique left (sort_by_arranges left) arranged
  · have named : shifts.rows = (List.range 8).map shiftAt := rfl
    have third : shiftAt 2 ∈ shifts.rows := List.mem_map_of_mem (by decide : 2 ∈ List.range 8)
    obtain ⟨group, inside, ofTeam⟩ := group_of_row injective third
    have listed : group.keyBytes ["team"] ∈
        (shifts.groupBy ["team"]).rows.map (·.keyBytes ["team"]) := List.mem_map_of_mem inside
    obtain ⟨sorted, inside', same⟩ := List.mem_map.mp (keys.mem_iff.mpr listed)
    have team : group.members = some ([2, 4, 7].map shiftAt) := by
      have chosen : (List.range 8).filter (fun i =>
          (shiftAt i).keyBytes ["team"] = (shiftAt 2).keyBytes ["team"]) = [2, 4, 7] := by
        decide +kernel
      rw [group_members_eq injective inside, ofTeam, named, List.filter_map]
      exact congrArg (fun order => some (order.map shiftAt)) chosen
    obtain ⟨before, inOrder, whole, found, -, arranged⟩ := members group inside sorted inside' same
    obtain rfl : before = [2, 4, 7].map shiftAt := Option.some.inj (whole.symm.trans team)
    have arranged' : Arranges byLevel ([2, 4, 7].map shiftAt) ([4, 7, 2].map shiftAt) :=
      arranges_map shiftAt _ (by decide +kernel)
    have few : PreorderOn byLevel ([2, 4, 7].map shiftAt) :=
      SortKey.compare_rows_preorder (by decide)
    rw [arranges_unique few arranged arranged'] at found
    exact ⟨group, inside, sorted, inside', same, team, found⟩

end TableAlgebra.Table
