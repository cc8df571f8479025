import TableAlgebra.Proofs.StableSort
import TableAlgebra.Proofs.Value.Preorder
import TableAlgebra.Query.Sort

namespace TableAlgebra

open Value (Unmixed)

theorem Value.order_preorder {values : List Value} (unmixed : Unmixed values) :
    PreorderOn order values where
  turned a _ b _ := (order_swap b a).symm
  carried a ha b hb c hc first second := by
    have three : Unmixed [a, b, c] := unmixed_among unmixed (by simp [ha, hb, hc])
    exact (chained_ends (order_chained three) first second).1

namespace SortKey

variable {key again : SortKey} {keys front behind : List SortKey} {nulls : NullOrder}
  {rows : List Row} {values : List Value}

def onFarSide (nulls : NullOrder) (v : Value) : Bool :=
  match nulls with
  | .first => !v.isNull
  | .last => v.isNull

def directed (key : SortKey) (a b : Value) : Ordering :=
  if key.descending then (a.order b).swap else a.order b

theorem directed_nulls {a b : Value} (noneA : a.isNull = true) (noneB : b.isNull = true) :
    key.directed a b = .eq := by
  have level : a.order b = .eq := by
    cases a <;> cases noneA
    cases b <;> cases noneB
    rfl
  rw [directed, level]
  split <;> rfl

theorem compare_values_eq (key : SortKey) (nulls : NullOrder) (a b : Value) :
    key.compareValues nulls a b =
      (compare (onFarSide nulls a) (onFarSide nulls b)).then (key.directed a b) := by
  unfold compareValues onFarSide
  cases noneA : a.isNull with
  | false => cases b.isNull <;> cases nulls <;> rfl
  | true =>
    cases noneB : b.isNull with
    | false => cases nulls <;> rfl
    | true =>
      rw [directed_nulls noneA noneB]
      cases nulls <;> rfl

section Preorder

theorem directed_preorder (unmixed : Unmixed values) : PreorderOn key.directed values := by
  have ascending := Value.order_preorder unmixed
  unfold directed
  cases key.descending with
  | false => exact ascending
  | true => exact preorder_swap ascending

theorem compare_values_preorder (unmixed : Unmixed values) :
    PreorderOn (key.compareValues nulls) values := by
  have parts : key.compareValues nulls = fun a b =>
      (compare (onFarSide nulls a) (onFarSide nulls b)).then (key.directed a b) :=
    funext₂ (compare_values_eq key nulls)
  rw [parts]
  exact preorder_then (preorder_by (preorder_compare _)) (directed_preorder unmixed)

theorem compare_rows_preorder
    (unmixed : ∀ key ∈ keys, Unmixed (rows.map (·.value key.column))) :
    PreorderOn (compareRows nulls keys) rows := by
  induction keys with
  | nil => exact ⟨fun _ _ _ _ => rfl, fun _ _ _ _ _ _ _ _ => rfl⟩
  | cons key rest ih =>
    obtain ⟨here, later⟩ := List.forall_mem_cons.mp unmixed
    exact preorder_then (preorder_by (compare_values_preorder here)) (ih later)

end Preorder

section Turns

theorem compare_rows_append (nulls : NullOrder) (front behind : List SortKey) (a b : Row) :
    compareRows nulls (front ++ behind) a b =
      (compareRows nulls front a b).then (compareRows nulls behind a b) := by
  induction front with
  | nil => rfl
  | cons key rest ih => rw [List.cons_append, compareRows, compareRows, ih, Ordering.then_assoc]

theorem compare_values_level_iff {a b : Value} : key.compareValues nulls a b = .eq ↔
    compare (onFarSide nulls a) (onFarSide nulls b) = .eq ∧ a.order b = .eq := by
  rw [compare_values_eq, Ordering.then_eq_eq, directed]
  split
  · rw [Ordering.swap_eq_eq]
  · rfl

theorem compare_rows_again (between : List SortKey) (same : again.column = key.column) :
    compareRows nulls (front ++ key :: between ++ again :: behind) =
      compareRows nulls (front ++ key :: between ++ behind) := by
  funext a b
  rw [compare_rows_append, compare_rows_append nulls (front ++ key :: between) behind]
  cases ahead : compareRows nulls (front ++ key :: between) a b with
  | lt => rfl
  | gt => rfl
  | eq =>
    rw [compare_rows_append, compareRows, Ordering.then_eq_eq, Ordering.then_eq_eq,
      compare_values_level_iff] at ahead
    have level : again.compareValues nulls (a.value again.column) (b.value again.column) = .eq := by
      rw [compare_values_level_iff, same]
      exact ahead.2.1
    rw [compareRows, level]
    rfl

end Turns

section Nulls

/-- The rows without a value in the column, whether it is null or missing, stand
together: before all others, or behind them. -/
def NullsAside (nulls : NullOrder) (column : String) (rows : List Row) : Prop :=
  let blank := rows.filter fun row => (row.value column).isNull
  let filled := rows.filter fun row => !(row.value column).isNull
  rows = match nulls with
    | .first => blank ++ filled
    | .last => filled ++ blank

theorem nulls_aside_of_sides {column : String}
    (ascending : rows.Pairwise fun a b =>
      (compare (onFarSide nulls (a.value column)) (onFarSide nulls (b.value column))).isLE) :
    NullsAside nulls column rows := by
  have split := split_of_sides ascending
  cases nulls with
  | first =>
    simp only [onFarSide, Bool.not_not] at split
    exact split
  | last => exact split

theorem nulls_aside_of_level (front : List SortKey)
    (ascending : rows.Pairwise fun a b => (compareRows nulls (front ++ key :: behind) a b).isLE)
    (level : ∀ a ∈ rows, ∀ b ∈ rows, compareRows nulls front a b = .eq) :
    NullsAside nulls key.column rows := by
  apply nulls_aside_of_sides
  refine List.Pairwise.imp_of_mem ?_ ascending
  intro a b ha hb up
  rw [compare_rows_append, level a ha b hb, compareRows, compare_values_eq] at up
  exact Ordering.isLE_left_of_isLE_then (Ordering.isLE_left_of_isLE_then up)

end Nulls

end SortKey

namespace Table

open SortKey (compareRows NullsAside)

variable {table : Table} {keys : List SortKey} {cmp : Comparison}

theorem sort_by_arranges (preorder : PreorderOn cmp table.rows) :
    Arranges cmp table.rows (table.sortBy cmp).rows := merge_sort_arranges preorder

/-- Sorting by keys is stable, and finds the one arrangement that ascends by them:
the rows as they are, no row before a lesser one, and rows that are level in the
order in which they were. The nulls of the first key stand together on their side,
in whichever direction the key sorts, and so do those of each later key within every
run of rows that the keys before it leave level. -/
theorem order_by_is_one_arrangement (keys : List SortKey) (nulls : NullOrder)
    (unmixed : ∀ key ∈ keys, Unmixed (table.columnValues key.column)) :
    PreorderOn (compareRows nulls keys) table.rows ∧
    (table.sortBy (compareRows nulls keys)).name = table.name ∧
    Arranges (compareRows nulls keys) table.rows (table.sortBy (compareRows nulls keys)).rows ∧
    (∀ out, Arranges (compareRows nulls keys) table.rows out →
      out = (table.sortBy (compareRows nulls keys)).rows) ∧
    (∀ key rest, keys = key :: rest →
      NullsAside nulls key.column (table.sortBy (compareRows nulls keys)).rows) ∧
    ∀ front key behind run, keys = front ++ key :: behind →
      run <:+: (table.sortBy (compareRows nulls keys)).rows →
      (∀ a ∈ run, ∀ b ∈ run, compareRows nulls front a b = .eq) →
      NullsAside nulls key.column run := by
  have preorder : PreorderOn (compareRows nulls keys) table.rows :=
    SortKey.compare_rows_preorder unmixed
  have arranged := sort_by_arranges preorder
  refine ⟨preorder, rfl, arranged, ?_, ?_, ?_⟩
  · intro out other
    exact arranges_unique preorder other arranged
  · rintro key rest rfl
    exact SortKey.nulls_aside_of_level [] arranged.ascending fun _ _ _ _ => rfl
  · rintro front key behind run rfl inside level
    exact SortKey.nulls_aside_of_level front (arranged.ascending.sublist inside.sublist) level

def shift (position : Nat) (cells : List (String × Value)) : Row :=
  ⟨.ofList cells, some (.leftOnly position), none⟩

def shifts : Table :=
  ⟨"shifts", [shift 0 [("team", .str "b"), ("level", .int 2)], shift 1 [("level", .int 1)],
    shift 2 [("team", .str "a"), ("level", .null)], shift 3 [("team", .str "b")],
    shift 4 [("team", .str "a"), ("level", .float ⟨0x4000000000000000⟩)],
    shift 5 [("team", .str "b"), ("level", .float .nan)],
    shift 6 [("team", .null), ("level", .int 2)],
    shift 7 [("team", .str "a"), ("level", .int 2)]]⟩

def shiftAt (i : Nat) : Row := shifts.rows.getD i .empty

def byTeamAndLevel : List SortKey := [⟨"team", true⟩, ⟨"level", false⟩]

theorem shifts_in_order :
    (∀ key ∈ byTeamAndLevel, Unmixed (shifts.columnValues key.column)) ∧
    (shifts.sortBy (compareRows .last byTeamAndLevel)).rows =
      [0, 5, 3, 4, 7, 2, 1, 6].map shiftAt ∧
    NullsAside .last "team" ([0, 5, 3, 4, 7, 2, 1, 6].map shiftAt) ∧
    NullsAside .last "level" ([0, 5, 3].map shiftAt) := by
  have unmixed : ∀ key ∈ byTeamAndLevel, Unmixed (shifts.columnValues key.column) := by decide
  obtain ⟨-, -, -, only, first, later⟩ := order_by_is_one_arrangement byTeamAndLevel .last unmixed
  have arranged : Arranges (compareRows .last byTeamAndLevel) shifts.rows
      ([0, 5, 3, 4, 7, 2, 1, 6].map shiftAt) :=
    arranges_map shiftAt (List.range 8) (by decide +kernel)
  have sorted := (only _ arranged).symm
  rw [sorted] at first later
  refine ⟨unmixed, sorted, first _ _ rfl, ?_⟩
  refine later [⟨"team", true⟩] _ [] _ rfl ⟨[], [4, 7, 2, 1, 6].map shiftAt, rfl⟩ ?_
  decide +kernel

theorem sort_by_of_ascending (ascending : table.rows.Pairwise fun a b => (cmp a b).isLE) :
    table.sortBy cmp = table :=
  congrArg (Table.mk table.name) (List.mergeSort_of_pairwise ascending)

theorem sort_by_cons {key : SortKey} {rest : List SortKey} {nulls : NullOrder}
    (unmixed : ∀ key' ∈ key :: rest, Unmixed (table.columnValues key'.column)) :
    table.sortBy (compareRows nulls (key :: rest)) =
      (table.sortBy (compareRows nulls rest)).sortBy (compareRows nulls [key]) := by
  obtain ⟨here, later⟩ := List.forall_mem_cons.mp unmixed
  have first : PreorderOn (compareRows nulls [key]) table.rows :=
    SortKey.compare_rows_preorder (List.forall_mem_singleton.mpr here)
  have second : PreorderOn (compareRows nulls rest) table.rows :=
    SortKey.compare_rows_preorder later
  have parts : compareRows nulls (key :: rest) = fun a b =>
      (compareRows nulls [key] a b).then (compareRows nulls rest a b) :=
    funext₂ (SortKey.compare_rows_append nulls [key] rest)
  rw [parts]
  exact congrArg (Table.mk table.name) (merge_sort_then first second)

theorem sort_by_eq_foldr {nulls : NullOrder}
    (unmixed : ∀ key ∈ keys, Unmixed (table.columnValues key.column)) :
    table.sortBy (compareRows nulls keys) =
      keys.foldr (fun key sorted => sorted.sortBy (compareRows nulls [key])) table := by
  induction keys with
  | nil => exact sort_by_of_ascending (List.pairwise_of_forall fun _ _ => rfl)
  | cons key rest ih =>
    rw [sort_by_cons unmixed, ih (List.forall_mem_cons.mp unmixed).2, List.foldr_cons]

/-- To sort by several keys is to sort by each of them in turn, the last one first.
Sorting again by the same keys changes nothing, and neither does a column that the
keys list again, whichever way it is to be sorted there. -/
theorem sort_by_keys_in_turn (keys : List SortKey) (nulls : NullOrder)
    (unmixed : ∀ key ∈ keys, Unmixed (table.columnValues key.column)) :
    (∀ key rest, keys = key :: rest → table.sortBy (compareRows nulls keys) =
      (table.sortBy (compareRows nulls rest)).sortBy (compareRows nulls [key])) ∧
    table.sortBy (compareRows nulls keys) =
      keys.foldr (fun key sorted => sorted.sortBy (compareRows nulls [key])) table ∧
    (table.sortBy (compareRows nulls keys)).sortBy (compareRows nulls keys) =
      table.sortBy (compareRows nulls keys) ∧
    ∀ front key between again behind, keys = front ++ key :: between ++ again :: behind →
      again.column = key.column → table.sortBy (compareRows nulls keys) =
        table.sortBy (compareRows nulls (front ++ key :: between ++ behind)) := by
  have arranged : Arranges (compareRows nulls keys) table.rows _ :=
    sort_by_arranges (SortKey.compare_rows_preorder unmixed)
  refine ⟨?_, sort_by_eq_foldr unmixed, sort_by_of_ascending arranged.ascending, ?_⟩
  · rintro key rest rfl
    exact sort_by_cons unmixed
  · rintro front key between again behind rfl same
    rw [SortKey.compare_rows_again between same]

def byTeamLevelTeam : List SortKey := [⟨"team", true⟩, ⟨"level", false⟩, ⟨"team", false⟩]

theorem shifts_sorted_in_turn :
    (∀ key ∈ byTeamLevelTeam, Unmixed (shifts.columnValues key.column)) ∧
    shifts.sortBy (compareRows .first byTeamLevelTeam) =
      shifts.sortBy (compareRows .first byTeamAndLevel) ∧
    shifts.sortBy (compareRows .first byTeamLevelTeam) =
      ((shifts.sortBy (compareRows .first [⟨"team", false⟩])).sortBy
        (compareRows .first [⟨"level", false⟩])).sortBy (compareRows .first [⟨"team", true⟩]) := by
  have unmixed : ∀ key ∈ byTeamLevelTeam, Unmixed (shifts.columnValues key.column) := by decide
  obtain ⟨-, inTurn, -, again⟩ := sort_by_keys_in_turn byTeamLevelTeam .first unmixed
  exact ⟨unmixed, again [] _ [⟨"level", false⟩] _ [] rfl rfl, inTurn⟩

end Table
end TableAlgebra
