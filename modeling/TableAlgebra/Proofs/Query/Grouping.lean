import TableAlgebra.Proofs.Distinct
import TableAlgebra.Proofs.Projection
import TableAlgebra.Query.Group

/-!
Grouping is a stable partition. The loop keeps, for each key in order of first
occurrence, the values of that key so far; so at its end every value stands in
the group of its key, in order, and nowhere else. Keys are digests, which stand
for the bytes behind them as long as no two of these share a digest.
-/
namespace TableAlgebra

section Gather

variable {κ α : Type} [DecidableEq κ]

theorem gather_concat (key : α → κ) (values : List α) (value : α) :
    gather key (values ++ [value]) = appendTo (key value) value (gather key values) :=
  List.foldl_append

theorem last_of_each_concat (key : α → κ) (values : List α) (value : α) :
    lastOfEach key (values ++ [value]) = putEntry (key value) value (lastOfEach key values) :=
  List.foldl_append

theorem append_to_groups (key : κ) (value : α) {keys : List κ} (distinct : keys.Nodup)
    (f : κ → List α) :
    appendTo key value (keys.map fun k => (k, f k)) =
      (keys.map fun k => (k, if k = key then f k ++ [value] else f k)) ++
        if key ∈ keys then [] else [(key, [value])] := by
  induction keys with
  | nil => rfl
  | cons k rest ih =>
    obtain ⟨apart, others⟩ := List.nodup_cons.mp distinct
    rw [List.map_cons, List.map_cons, appendTo]
    by_cases same : k = key
    · subst same
      have unchanged : ∀ k' ∈ rest, (k', f k') = (k', if k' = k then f k' ++ [value] else f k') := by
        intro k' later
        have differ : k' ≠ k := fun h => apart (h ▸ later)
        rw [if_neg differ]
      rw [if_pos rfl, List.map_congr_left unchanged]
      simp
    · rw [if_neg same, if_neg same, ih others]
      simp [Ne.symm same]

theorem filter_key_concat (key : α → κ) (values : List α) (value : α) (k : κ) :
    (values ++ [value]).filter (key · = k) =
      if k = key value then values.filter (key · = k) ++ [value]
      else values.filter (key · = k) := by
  rw [List.filter_append, List.filter_singleton]
  by_cases same : k = key value
  · simp [same]
  · simp [same, Ne.symm same]

theorem gather_eq (key : α → κ) (values : List α) :
    gather key values =
      (values.map key).eraseDups.map fun k => (k, values.filter (key · = k)) := by
  induction values using List.reverseRecOn with
  | nil => rfl
  | append_singleton values value ih =>
    rw [gather_concat, ih, append_to_groups _ _ (erase_dups_nodup _), List.map_append, List.map_singleton,
      erase_dups_concat]
    simp only [filter_key_concat, List.mem_eraseDups]
    -- a value of an old key extends its group, one of a new key opens a group
    by_cases old : key value ∈ values.map key
    · rw [if_pos old, if_pos old, List.append_nil]
    · have fresh : values.filter (key · = key value) = [] := by
        rw [List.filter_eq_nil_iff]
        intro v member same
        exact old (List.mem_map.mpr ⟨v, member, of_decide_eq_true same⟩)
      rw [if_neg old, if_neg old, List.map_append, List.map_singleton, if_pos rfl, fresh]
      rfl

theorem gather_renamed {κ' : Type} [DecidableEq κ'] (f : κ → κ') (key : α → κ)
    {values : List α}
    (injective : ∀ v ∈ values, ∀ w ∈ values, f (key v) = f (key w) → key v = key w) :
    gather (fun v => f (key v)) values =
      (gather key values).map fun group => (f group.1, group.2) := by
  have apart : ∀ k ∈ values.map key, ∀ k' ∈ values.map key, f k = f k' → k = k' := by
    intro k hk k' hk' same
    obtain ⟨v, hv, rfl⟩ := List.mem_map.mp hk
    obtain ⟨w, hw, rfl⟩ := List.mem_map.mp hk'
    exact injective v hv w hw same
  have keys : values.map (fun v => f (key v)) = (values.map key).map f := by
    rw [List.map_map]
    rfl
  rw [gather_eq, gather_eq, keys, erase_dups_map apart, List.map_map, List.map_map]
  apply List.map_congr_left
  intro k occurs
  have class_eq : values.filter (fun v => f (key v) = f k) = values.filter (key · = k) := by
    apply List.filter_congr
    intro v inside
    rw [decide_eq_decide]
    constructor
    · exact apart _ (List.mem_map_of_mem inside) k (List.mem_eraseDups.mp occurs)
    · exact congrArg f
  exact congrArg (f k, ·) class_eq

theorem class_of_key {key : α → κ} {values : List α} {k : κ}
    (occurs : k ∈ values.map key) :
    ∃ first rest, values.filter (key · = k) = first :: rest ∧ ∀ v ∈ first :: rest, key v = k := by
  obtain ⟨value, inside, same⟩ := List.mem_map.mp occurs
  have member : value ∈ values.filter (key · = k) :=
    List.mem_filter.mpr ⟨inside, decide_eq_true same⟩
  obtain ⟨first, rest, split⟩ := List.exists_cons_of_ne_nil (List.ne_nil_of_mem member)
  refine ⟨first, rest, split, fun v here => ?_⟩
  rw [← split] at here
  exact of_decide_eq_true (List.mem_filter.mp here).2

theorem group_of_gather {key : α → κ} {values : List α} {group : κ × List α}
    (member : group ∈ gather key values) : group.2 = values.filter (key · = group.1) := by
  rw [gather_eq] at member
  obtain ⟨k, -, rfl⟩ := List.mem_map.mp member
  rfl

theorem groups_perm (key : α → κ) {keys : List κ} (distinct : keys.Nodup) {values : List α}
    (covered : ∀ v ∈ values, key v ∈ keys) :
    (keys.flatMap fun k => values.filter (key · = k)).Perm values := by
  induction keys generalizing values with
  | nil =>
    cases values with
    | nil => rfl
    | cons v rest => simpa using covered v
  | cons k rest ih =>
    obtain ⟨apart, others⟩ := List.nodup_cons.mp distinct
    have remaining : ∀ v ∈ values.filter (fun v => !decide (key v = k)), key v ∈ rest := by
      intro v member
      obtain ⟨inside, differ⟩ := List.mem_filter.mp member
      rcases List.mem_cons.mp (covered v inside) with same | later
      · simp [same] at differ
      · exact later
    -- the other keys do not see that the values of `k` are gone
    have kept : ∀ k' ∈ rest, (values.filter fun v => !decide (key v = k)).filter (key · = k') =
        values.filter (key · = k') := by
      intro k' later
      have differ : k' ≠ k := fun h => apart (h ▸ later)
      rw [List.filter_filter]
      apply List.filter_congr
      intro v _
      by_cases here : key v = k'
      · simp [here, differ]
      · simp [here]
    have tail := ih others remaining
    rw [List.flatMap_def, List.map_congr_left kept, ← List.flatMap_def] at tail
    rw [List.flatMap_cons]
    exact (tail.append_left _).trans (List.filter_append_perm _ _)

end Gather

namespace Table

/-- No two of the rows have different bytes and one digest. -/
def CollisionFree (columns : List String) (rows : List Row) : Prop :=
  ∀ r ∈ rows, ∀ q ∈ rows, r.key columns = q.key columns → r.keyBytes columns = q.keyBytes columns

variable {table : Table} {columns : List String}

theorem collision_free_among {rows part : List Row} (injective : CollisionFree columns rows)
    (inside : ∀ row ∈ part, row ∈ rows) : CollisionFree columns part := fun r hr q hq =>
  injective r (inside r hr) q (inside q hq)

theorem group_rows_eq (table : Table) (columns : List String) : (table.groupBy columns).rows =
    (gather (·.key columns) table.rows).map fun group => groupRow columns group.2 := rfl

theorem members_of_groups (table : Table) (columns : List String) :
    (table.groupBy columns).rows.map Row.members =
      ((gather (·.key columns) table.rows).map Prod.snd).map some := by
  rw [group_rows_eq, List.map_map, List.map_map]
  rfl

theorem gather_by_bytes (injective : CollisionFree columns table.rows) :
    gather (·.key columns) table.rows =
      (gather (·.keyBytes columns) table.rows).map fun group =>
        (Blake3.digest group.1, group.2) := gather_renamed Blake3.digest _ injective

theorem group_by_rows (injective : CollisionFree columns table.rows) :
    (table.groupBy columns).rows =
      (table.rows.map (·.keyBytes columns)).eraseDups.map fun bytes =>
        groupRow columns (table.rows.filter (·.keyBytes columns = bytes)) := by
  -- the keys on the two sides are compared by different instances
  rw [group_rows_eq, gather_by_bytes injective, gather_eq, List.map_map, List.map_map,
    lawful_beq_subsingleton (instBEqOfDecidableEq : BEq (List UInt8)) List.instBEq]
  rfl

theorem class_of_bytes {bytes : List UInt8}
    (occurs : bytes ∈ (table.rows.map (·.keyBytes columns)).eraseDups) :
    ∃ first rest, table.rows.filter (·.keyBytes columns = bytes) = first :: rest ∧
      ∀ row ∈ first :: rest, row.keyBytes columns = bytes :=
  class_of_key (List.mem_eraseDups.mp occurs)

theorem group_row_key_bytes (first : Row) (rest : List Row) :
    (groupRow columns (first :: rest)).keyBytes columns = first.keyBytes columns :=
  Row.key_bytes_project fun _ => id

theorem group_by_keys (injective : CollisionFree columns table.rows) :
    (table.groupBy columns).rows.map (·.keyBytes columns) =
      (table.rows.map (·.keyBytes columns)).eraseDups := by
  rw [group_by_rows injective, List.map_map]
  conv_rhs => rw [← List.map_id (table.rows.map (·.keyBytes columns)).eraseDups]
  apply List.map_congr_left
  intro bytes occurs
  obtain ⟨first, rest, members, keys⟩ := class_of_bytes occurs
  change (groupRow columns (table.rows.filter (·.keyBytes columns = bytes))).keyBytes columns = bytes
  rw [members, group_row_key_bytes]
  exact keys first (List.mem_cons_self ..)

/-- Grouping is a stable partition. The groups are the classes of rows with the
same key bytes, in order of first occurrence and each in the order of the table;
together they are all rows, and no two have the same key. A group row shows the
listed columns that its first member has, and has the key of every member. -/
theorem group_by_stable_partition (injective : CollisionFree columns table.rows) :
    (table.groupBy columns).name = table.name ∧
    (table.groupBy columns).rows.map Row.members =
      ((table.rows.map (·.keyBytes columns)).eraseDups.map fun bytes =>
        some (table.rows.filter (·.keyBytes columns = bytes))) ∧
    (table.groupBy columns).rows.map (·.keyBytes columns) =
      (table.rows.map (·.keyBytes columns)).eraseDups ∧
    ((table.groupBy columns).rows.map (·.keyBytes columns)).Nodup ∧
    ((table.groupBy columns).rows.flatMap (·.members.getD [])).Perm table.rows ∧
    ∀ group ∈ (table.groupBy columns).rows, ∃ first rest,
      group.members = some (first :: rest) ∧ group.provenance = none ∧
      group.columns = (columns.filter first.contains).eraseDups ∧
      (∀ c, group.get? c = if c ∈ columns then first.get? c else none) ∧
      ∀ row ∈ first :: rest, row.keyBytes columns = group.keyBytes columns ∧
        row.key columns = group.key columns := by
  refine ⟨rfl, ?_, group_by_keys injective, ?_, ?_, ?_⟩
  · rw [group_by_rows injective, List.map_map]
    rfl
  · rw [group_by_keys injective]
    exact erase_dups_nodup _
  · rw [group_by_rows injective, List.flatMap_map]
    have covered : ∀ row ∈ table.rows, row.keyBytes columns ∈
        (table.rows.map (·.keyBytes columns)).eraseDups := fun row inside =>
      List.mem_eraseDups.mpr (List.mem_map_of_mem inside)
    exact groups_perm _ (erase_dups_nodup _) covered
  · intro group member
    rw [group_by_rows injective] at member
    obtain ⟨bytes, occurs, rfl⟩ := List.mem_map.mp member
    obtain ⟨first, rest, members, keys⟩ := class_of_bytes occurs
    rw [members]
    refine ⟨first, rest, rfl, rfl, Row.columns_project_same columns,
      Row.get?_project_same columns, fun row here => ?_⟩
    have same : row.keyBytes columns = (groupRow columns (first :: rest)).keyBytes columns := by
      rw [group_row_key_bytes, keys row here, keys first (List.mem_cons_self ..)]
    exact ⟨same, congrArg Blake3.digest same⟩

end Table

def Blake3.blockDigest (bytes : List UInt8) : Digest :=
  ⟨((chainBlocks 0 chunkStart initial [bytes]).compress rootNode).toList.flatMap wordToBytes⟩

theorem Blake3.digest_of_block {bytes : List UInt8} (short : bytes.length ≤ 64) :
    digest bytes = blockDigest bytes := by
  have chunk : pieces 1024 bytes = [bytes] := by rw [pieces, if_pos (.inl (by omega))]
  have block : pieces 64 bytes = [bytes] := by rw [pieces, if_pos (.inl short)]
  rw [digest, chunk, List.zipIdx_singleton, List.map_singleton, root, blockDigest]
  simp only [chunkNode, block]

namespace Table

def sale (region : Value) (position : Nat) : Row where
  cells := .ofList [("region", region)]
  provenance := some (.leftOnly position)
  members := none

def sales : Table :=
  ⟨"sales", [sale (.int 1) 0, sale .null 1, sale (.float ⟨0x3ff0000000000000⟩) 2,
    sale (.str "1") 3, ⟨.empty, some (.leftOnly 4), none⟩]⟩

theorem collision_free_of_blocks {columns : List String} {rows : List Row}
    (short : ∀ row ∈ rows, (row.keyBytes columns).length ≤ 64)
    (apart : ((rows.map (·.keyBytes columns)).eraseDups.map Blake3.blockDigest).Nodup) :
    CollisionFree columns rows := by
  intro r hr q hq same
  rw [Row.key, Row.key, Blake3.digest_of_block (short r hr),
    Blake3.digest_of_block (short q hq)] at same
  have listed : ∀ row ∈ rows,
      row.keyBytes columns ∈ (rows.map (·.keyBytes columns)).eraseDups := fun row inside =>
    List.mem_eraseDups.mpr (List.mem_map_of_mem inside)
  exact List.inj_on_of_nodup_map apart (listed r hr) (listed q hq) same

theorem sales_collision_free : CollisionFree ["region"] sales.rows :=
  collision_free_of_blocks (by decide +kernel) (by decide +kernel)

theorem group_by_of_sales :
    CollisionFree ["region"] sales.rows ∧
    ((sales.groupBy ["region"]).rows.map Row.members).map
        (fun members => (members.getD []).map Row.provenance) =
      [[some (.leftOnly 0), some (.leftOnly 2)], [some (.leftOnly 1), some (.leftOnly 4)],
        [some (.leftOnly 3)]] ∧
    ((sales.groupBy ["region"]).rows.map (·.keyBytes ["region"])).Nodup := by
  obtain ⟨-, members, -, distinct, -⟩ := group_by_stable_partition sales_collision_free
  refine ⟨sales_collision_free, ?_, distinct⟩
  rw [members]
  decide +kernel

end Table

end TableAlgebra
