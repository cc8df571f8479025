import Mathlib.Algebra.BigOperators.Ring.Finset
import TableAlgebra.Proofs.Query.AggregateChain
import TableAlgebra.Proofs.Query.Having

/-!
Grouping by more columns and by fewer. Rows that agree on more columns agree on
fewer, so each group by the first lies inside one group by the second, and what
lies inside such a group is the grouping of its members. Every row is in one
group and counted once there; so the counts of the groups inside a group add up
to its own, and all counts add up to the size of the table.
-/
namespace TableAlgebra

section Gather

variable {κ κ' α : Type} [DecidableEq κ] [DecidableEq κ']

theorem gather_perm (key : α → κ) (values : List α) :
    ((gather key values).flatMap Prod.snd).Perm values := by
  rw [gather_eq, List.flatMap_map]
  have covered : ∀ v ∈ values, key v ∈ (values.map key).eraseDups := fun v inside =>
    List.mem_eraseDups.mpr (List.mem_map_of_mem inside)
  exact groups_perm key (erase_dups_nodup _) covered

theorem gather_same_classes {key : α → κ} {key' : α → κ'} {values : List α}
    (same : ∀ v ∈ values, ∀ w ∈ values, key v = key w ↔ key' v = key' w) :
    (gather key values).map Prod.snd = (gather key' values).map Prod.snd := by
  -- each key is the other one's, read off the pair of both
  let both (v : α) : κ × κ' := (key v, key' v)
  have first : gather key values = _ := gather_renamed Prod.fst both fun v hv w hw equal =>
    Prod.ext equal ((same v hv w hw).mp equal)
  have second : gather key' values = _ := gather_renamed Prod.snd both fun v hv w hw equal =>
    Prod.ext ((same v hv w hw).mpr equal) equal
  rw [first, second, List.map_map, List.map_map]
  rfl

end Gather

def Row.memberCount (row : Row) : Nat := (row.members.getD []).length

namespace Table

/-- All members of one row are members of the other, in the same order. -/
def Within (part whole : Row) : Prop :=
  (part.members.getD []).Sublist (whole.members.getD [])

/-- Some member of one row is a member of the other. -/
def Meets (part whole : Row) : Prop := ∃ row ∈ part.members.getD [], row ∈ whole.members.getD []

def AddsUp (rows : List Row) (column : String) (total : Int) : Prop :=
  ∃ counts : List Int64,
    List.Forall₂ (fun row count => row.get? column = some (.int count)) rows counts ∧
    (counts.map Int64.toInt).sum = total

variable {table : Table} {columns coarse fine : List String} {group part whole row : Row}

section Groups

theorem group_sizes_sum (table : Table) (columns : List String) :
    ((table.groupBy columns).rows.map Row.memberCount).sum = table.size := by
  have sizes : (table.groupBy columns).rows.map Row.memberCount =
      ((gather (·.key columns) table.rows).map Prod.snd).map List.length := by
    rw [group_rows_eq, List.map_map, List.map_map]
    rfl
  rw [sizes, ← List.length_flatten, ← List.flatMap_def]
  exact (gather_perm _ table.rows).length_eq

theorem group_cases (injective : CollisionFree columns table.rows)
    (member : group ∈ (table.groupBy columns).rows) : ∃ first rest,
      group = groupRow columns (first :: rest) ∧
      table.rows.filter (·.keyBytes columns = group.keyBytes columns) = first :: rest := by
  rw [group_by_rows injective] at member
  obtain ⟨bytes, occurs, rfl⟩ := List.mem_map.mp member
  obtain ⟨first, rest, members, keys⟩ := class_of_bytes occurs
  rw [members]
  refine ⟨first, rest, rfl, ?_⟩
  rw [group_row_key_bytes, keys first List.mem_cons_self, members]

theorem group_members_eq (injective : CollisionFree columns table.rows)
    (member : group ∈ (table.groupBy columns).rows) : group.members =
      some (table.rows.filter (·.keyBytes columns = group.keyBytes columns)) := by
  obtain ⟨first, rest, same, members⟩ := group_cases injective member
  rw [members, same]
  rfl

theorem group_members (injective : CollisionFree columns table.rows)
    (member : group ∈ (table.groupBy columns).rows) :
    group.members.getD [] =
      table.rows.filter (·.keyBytes columns = group.keyBytes columns) := by
  rw [group_members_eq injective member]
  rfl

theorem member_count_le (injective : CollisionFree columns table.rows)
    (member : group ∈ (table.groupBy columns).rows) : group.memberCount ≤ table.size := by
  rw [Row.memberCount, group_members injective member]
  exact List.length_filter_le _ _

theorem mem_group_members (injective : CollisionFree columns table.rows)
    (member : group ∈ (table.groupBy columns).rows) : row ∈ group.members.getD [] ↔
      row ∈ table.rows ∧ row.keyBytes columns = group.keyBytes columns := by
  rw [group_members injective member, List.mem_filter, decide_eq_true_iff]

theorem group_storable (storable : ∀ row ∈ table.rows, row.Storable)
    (injective : CollisionFree columns table.rows)
    (member : group ∈ (table.groupBy columns).rows) : group.Storable := by
  obtain ⟨first, rest, same, members⟩ := group_cases injective member
  have inside : first ∈ table.rows := List.mem_of_mem_filter (members ▸ List.mem_cons_self)
  rw [same]
  exact group_row_storable rest (storable first inside)

theorem some_member (injective : CollisionFree columns table.rows)
    (member : group ∈ (table.groupBy columns).rows) : ∃ row, row ∈ group.members.getD [] := by
  obtain ⟨first, rest, same, -⟩ := group_cases injective member
  rw [same]
  exact ⟨first, List.mem_cons_self⟩

theorem group_of_row (injective : CollisionFree columns table.rows) (inside : row ∈ table.rows) :
    ∃ group ∈ (table.groupBy columns).rows, group.keyBytes columns = row.keyBytes columns := by
  have occurs : row.keyBytes columns ∈ (table.groupBy columns).rows.map (·.keyBytes columns) := by
    rw [group_by_keys injective]
    exact List.mem_eraseDups.mpr (List.mem_map_of_mem inside)
  exact List.mem_map.mp occurs

theorem group_of_key (injective : CollisionFree columns table.rows)
    (left : part ∈ (table.groupBy columns).rows) (right : whole ∈ (table.groupBy columns).rows)
    (same : part.keyBytes columns = whole.keyBytes columns) : part = whole := by
  have distinct : ((table.groupBy columns).rows.map (·.keyBytes columns)).Nodup := by
    rw [group_by_keys injective]
    exact erase_dups_nodup _
  exact List.inj_on_of_nodup_map distinct left right same

end Groups

section Nesting

variable (storable : ∀ row ∈ table.rows, row.Storable)
  (injective : CollisionFree coarse table.rows) (injective' : CollisionFree fine table.rows)
  (contained : ∀ c ∈ coarse, c ∈ fine)

include storable injective' contained in
theorem coarser_digest {r q : Row} (hr : r ∈ table.rows) (hq : q ∈ table.rows)
    (same : r.key fine = q.key fine) : r.key coarse = q.key coarse :=
  congrArg Blake3.digest
    (Row.coarser_key (storable r hr) (storable q hq) contained (injective' r hr q hq same))

include storable injective' contained in
theorem member_coarse_key (inside : part ∈ (table.groupBy fine).rows)
    (member : row ∈ part.members.getD []) : row.keyBytes coarse = part.keyBytes coarse := by
  obtain ⟨listed, same⟩ := (mem_group_members injective' inside).mp member
  exact Row.coarser_key (storable row listed) (group_storable storable injective' inside) contained
    same

include storable injective injective' contained

theorem coarse_key_of_meets (inside : part ∈ (table.groupBy fine).rows)
    (inside' : whole ∈ (table.groupBy coarse).rows) (meets : Meets part whole) :
    part.keyBytes coarse = whole.keyBytes coarse := by
  obtain ⟨row, left, right⟩ := meets
  rw [← member_coarse_key storable injective' contained inside left]
  exact ((mem_group_members injective inside').mp right).2

theorem within_iff (inside : part ∈ (table.groupBy fine).rows)
    (inside' : whole ∈ (table.groupBy coarse).rows) :
    Within part whole ↔ part.keyBytes coarse = whole.keyBytes coarse := by
  constructor
  · intro within
    obtain ⟨row, member⟩ := some_member injective' inside
    exact coarse_key_of_meets storable injective injective' contained inside inside'
      ⟨row, member, within.subset member⟩
  · intro same
    have members : part.members.getD [] =
        (whole.members.getD []).filter (·.keyBytes fine = part.keyBytes fine) := by
      rw [group_members injective' inside, group_members injective inside', List.filter_filter]
      apply List.filter_congr
      intro row listed
      rw [← Bool.decide_and, decide_eq_decide]
      constructor
      · intro here
        refine ⟨here, ?_⟩
        rw [← same]
        exact Row.coarser_key (storable row listed) (group_storable storable injective' inside)
          contained here
      · exact And.left
    rw [Within, members]
    exact List.filter_sublist

theorem within_one_group (inside : part ∈ (table.groupBy fine).rows) :
    ∃ whole ∈ (table.groupBy coarse).rows, Within part whole ∧
      ∀ other ∈ (table.groupBy coarse).rows, Meets part other → other = whole := by
  obtain ⟨row, member⟩ := some_member injective' inside
  have listed : row ∈ table.rows := ((mem_group_members injective' inside).mp member).1
  obtain ⟨whole, inside', key⟩ := group_of_row injective listed
  have same : part.keyBytes coarse = whole.keyBytes coarse := by
    rw [key, member_coarse_key storable injective' contained inside member]
  refine ⟨whole, inside',
    (within_iff storable injective injective' contained inside inside').mpr same, ?_⟩
  intro other inside'' meets
  have key' := coarse_key_of_meets storable injective injective' contained inside inside'' meets
  exact group_of_key injective inside'' inside' (key'.symm.trans same)

theorem parts_of_group (inside : whole ∈ (table.groupBy coarse).rows) :
    (((table.groupBy fine).rows.filter fun part =>
      part.keyBytes coarse = whole.keyBytes coarse).map Row.memberCount).sum =
        whole.memberCount := by
  have decided : DecidedByKey fine fun row => row.keyBytes coarse = whole.keyBytes coarse := by
    intro r q storableR storableQ same
    exact congrArg (fun bytes => decide (bytes = whole.keyBytes coarse))
      (Row.coarser_key storableR storableQ contained same)
  have parts := congrArg Table.rows (group_by_filter storable injective' decided)
  change _ = List.filter _ _ at parts
  rw [← parts, group_sizes_sum, Row.memberCount, group_members injective inside]
  rfl

theorem same_names_same_groups (reverse : ∀ c ∈ fine, c ∈ coarse) :
    (table.groupBy coarse).rows.map Row.members = (table.groupBy fine).rows.map Row.members := by
  have classes : ∀ r ∈ table.rows, ∀ q ∈ table.rows,
      r.key coarse = q.key coarse ↔ r.key fine = q.key fine := by
    intro r hr q hq
    constructor
    · exact coarser_digest storable injective reverse hr hq
    · exact coarser_digest storable injective' contained hr hq
  rw [members_of_groups, members_of_groups, gather_same_classes classes]

end Nesting

section Counts

variable {column : String}

def counted (column : String) (row : Row) : Row :=
  row.insert (Aggregate.count.outputColumn column) (.ofInteger row.memberCount)

theorem count_groups (table : Table) (columns : List String) (column : String) :
    (table.groupBy columns).aggregate .count column =
      .ok ⟨table.name, (table.groupBy columns).rows.map (counted column)⟩ := by
  have found : ∀ group ∈ (table.groupBy columns).rows,
      group.aggregated? (.count, column) = some (.ofInteger group.memberCount) := by
    intro group member
    obtain ⟨⟨key, members⟩, -, rfl⟩ := List.mem_map.mp member
    have size : Aggregate.count.compute column (members.map (·.value column)) =
        .ok (.ofInteger (members.map (·.value column)).length) := rfl
    rw [List.length_map] at size
    exact Row.aggregated_eq_some_iff.mpr ⟨members, rfl, size⟩
  refine (@aggregate_ok_iff _ _ (.count, column)).mpr ⟨?_, ?_⟩
  · intro group member
    exact List.forall_mem_singleton.mpr (Option.isSome_of_eq_some (found group member))
  · refine congrArg (Table.mk table.name) (List.map_congr_left fun group member => ?_)
    exact (Row.annotated_one (found group member)).symm

theorem get?_counted (small : (row.memberCount : Int) ≤ Int64.maxValue.toInt) :
    ∃ count : Int64, (counted column row).get? (Aggregate.count.outputColumn column) =
      some (.int count) ∧ count.toInt = row.memberCount := by
  have least : Int64.minValue.toInt ≤ (row.memberCount : Int) :=
    Int.le_trans (by decide) (Int.natCast_nonneg _)
  have word : int64? row.memberCount = some (Int64.ofInt row.memberCount) := if_pos ⟨least, small⟩
  refine ⟨Int64.ofInt row.memberCount, ?_, toInt_of_int64? word⟩
  rw [counted, Row.insert, Row.get?, Entries.get?_insert, if_pos rfl, Value.ofInteger, word]

theorem counts_add_up {rows : List Row}
    (small : ∀ row ∈ rows, (row.memberCount : Int) ≤ Int64.maxValue.toInt) :
    AddsUp (rows.map (counted column)) (Aggregate.count.outputColumn column)
      ((rows.map Row.memberCount).sum : Nat) := by
  obtain ⟨counts, found⟩ := pairs_of_forall fun row member => get?_counted (small row member)
  refine ⟨counts, List.forall₂_map_left_iff.mpr (found.imp fun _ _ => And.left), ?_⟩
  have sizes : rows.map (fun row => (row.memberCount : Int)) = counts.map Int64.toInt :=
    map_eq_of_pairs (found.imp fun _ _ both => both.2.symm)
  rw [← sizes, Nat.cast_list_sum, List.map_map]
  rfl

theorem count_small (small : (table.size : Int) ≤ Int64.maxValue.toInt)
    (injective : CollisionFree columns table.rows) :
    ∀ group ∈ (table.groupBy columns).rows, (group.memberCount : Int) ≤ Int64.maxValue.toInt :=
  fun _ inside => Int.le_trans (Int.ofNat_le.mpr (member_count_le injective inside)) small

open Classical in
theorem counts_within (storable : ∀ row ∈ table.rows, row.Storable)
    (small : (table.size : Int) ≤ Int64.maxValue.toInt)
    (injective : CollisionFree coarse table.rows) (injective' : CollisionFree fine table.rows)
    (contained : ∀ c ∈ coarse, c ∈ fine) (inside : whole ∈ (table.groupBy coarse).rows) :
    AddsUp (((table.groupBy fine).rows.map (counted column)).filter
        (Within · (counted column whole))) (Aggregate.count.outputColumn column)
      whole.memberCount := by
  have parts : ((table.groupBy fine).rows.map (counted column)).filter
      (Within · (counted column whole)) =
      ((table.groupBy fine).rows.filter fun part =>
        part.keyBytes coarse = whole.keyBytes coarse).map (counted column) := by
    rw [List.filter_map]
    congr 1
    apply List.filter_congr
    intro part inside'
    -- a count leaves the members alone
    exact decide_eq_decide.mpr (within_iff storable injective injective' contained inside' inside)
  rw [parts, ← parts_of_group storable injective injective' contained inside]
  exact counts_add_up fun part listed =>
    count_small small injective' part (List.mem_of_mem_filter listed)

end Counts

open Classical in
/-- Groups by fewer columns are made of whole groups by more. Each group by more
columns lies within one group by fewer and meets no other; counts can always be
taken, and the count of a group is the sum of those of the groups within it, while
all counts together are the size of the table. Lists that name the same columns
make the same groups in the same order. -/
theorem groups_roll_up (storable : ∀ row ∈ table.rows, row.Storable)
    (small : (table.size : Int) ≤ Int64.maxValue.toInt)
    (injective : CollisionFree coarse table.rows) (injective' : CollisionFree fine table.rows)
    (contained : ∀ c ∈ coarse, c ∈ fine) :
    (∀ part ∈ (table.groupBy fine).rows, ∃ whole ∈ (table.groupBy coarse).rows,
      Within part whole ∧ ∀ other ∈ (table.groupBy coarse).rows, Meets part other → other = whole) ∧
    (∀ column, ∃ parts wholes,
      (table.groupBy fine).aggregate .count column = .ok parts ∧
      (table.groupBy coarse).aggregate .count column = .ok wholes ∧
      parts.rows.map Row.members = (table.groupBy fine).rows.map Row.members ∧
      wholes.rows.map Row.members = (table.groupBy coarse).rows.map Row.members ∧
      (∀ whole ∈ wholes.rows, ∃ count : Int64,
        whole.get? (Aggregate.count.outputColumn column) = some (.int count) ∧
        AddsUp (parts.rows.filter (Within · whole)) (Aggregate.count.outputColumn column)
          count.toInt) ∧
      AddsUp wholes.rows (Aggregate.count.outputColumn column) table.size) ∧
    ((∀ c ∈ fine, c ∈ coarse) →
      (table.groupBy coarse).rows.map Row.members =
        (table.groupBy fine).rows.map Row.members) := by
  refine ⟨fun part => within_one_group storable injective injective' contained, fun column => ?_,
    same_names_same_groups storable injective injective' contained⟩
  refine ⟨_, _, count_groups table fine column, count_groups table coarse column,
    List.map_map, List.map_map, ?_, ?_⟩
  · intro whole member
    obtain ⟨group, inside, rfl⟩ := List.mem_map.mp member
    obtain ⟨count, found, total⟩ := get?_counted (count_small small injective group inside)
    refine ⟨count, found, ?_⟩
    rw [total]
    exact counts_within storable small injective injective' contained inside
  · rw [← group_sizes_sum table coarse]
    exact counts_add_up (count_small small injective)

def order (cells : List (String × Value)) : Row := .ofCells (.ofList cells)

def orders : Table :=
  ⟨"orders", [order [("region", .int 1), ("item", .str "a")], order [("item", .str "a")],
    order [("region", .float ⟨0x3ff0000000000000⟩), ("item", .str "b")],
    order [("item", .str "a"), ("region", .int 1)]]⟩

theorem orders_roll_up :
    (∀ row ∈ orders.rows, row.Storable) ∧ (orders.size : Int) ≤ Int64.maxValue.toInt ∧
    CollisionFree ["region"] orders.rows ∧ CollisionFree ["item", "region"] orders.rows ∧
    (orders.groupBy ["region"]).rows.map Row.memberCount = [3, 1] ∧
    (orders.groupBy ["item", "region"]).rows.map Row.memberCount = [2, 1, 1] ∧
    (∀ part ∈ (orders.groupBy ["item", "region"]).rows,
      ∃ whole ∈ (orders.groupBy ["region"]).rows, Within part whole) ∧
    ∃ wholes, (orders.groupBy ["region"]).aggregate .count "item" = .ok wholes ∧
      AddsUp wholes.rows "COUNT(item)" 4 := by
  have storable : ∀ row ∈ orders.rows, row.Storable := by decide +kernel
  have small : (orders.size : Int) ≤ Int64.maxValue.toInt := by decide
  have byRegion : CollisionFree ["region"] orders.rows :=
    collision_free_of_blocks (by decide +kernel) (by decide +kernel)
  have byItem : CollisionFree ["item", "region"] orders.rows :=
    collision_free_of_blocks (by decide +kernel) (by decide +kernel)
  obtain ⟨nested, counts, -⟩ := groups_roll_up storable small byRegion byItem (by decide)
  obtain ⟨-, wholes, -, counted, -, -, -, total⟩ := counts "item"
  refine ⟨storable, small, byRegion, byItem, ?_, ?_, fun part inside => ?_, wholes, counted, total⟩
  · rw [group_by_rows byRegion]
    decide +kernel
  · rw [group_by_rows byItem]
    decide +kernel
  · obtain ⟨whole, inside', within, -⟩ := nested part inside
    exact ⟨whole, inside', within⟩

end Table
end TableAlgebra
