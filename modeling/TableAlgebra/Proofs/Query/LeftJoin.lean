import TableAlgebra.Proofs.Blocks
import TableAlgebra.Proofs.Outcome
import TableAlgebra.Proofs.Pairs
import TableAlgebra.Query.Join

/-!
The left join against two nested loops. The join fills one bucket for each left
row from the whole product; what it gives back is what the loops say: the pairs
of the first left row that satisfy the predicate, then those of the second, and
one padding row wherever there are none.
-/
namespace TableAlgebra
namespace Table

def pairsOf (a b : Table) (i : Nat) (x : Row) : List Row :=
  b.rows.zipIdx.map fun (y, j) => pairRow a b i j x y

/-- A null in every qualified column of the first row. -/
def nullCells (table : Table) : List (String × Value) :=
  (table.firstRowColumns?.getD []).map fun column => (table.qualify column, .null)

def paddedLeft (a b : Table) (i : Nat) (x : Row) : Row where
  cells := (Entries.ofList (a.qualifiedCells x)).insertAll b.nullCells
  provenance := some (.leftOnly i)
  members := none

/-- What the nested loops give for one left row. -/
def leftBlock (a b : Table) (matching : Predicate) (i : Nat) (x : Row) : List Row :=
  match (pairsOf a b i x).filter matching with
  | [] => [paddedLeft a b i x]
  | found => found

variable {a b : Table} {matching : Predicate} {policy : PaddingPolicy}

@[simp] theorem left_origin_pair (i j : Nat) (x y : Row) :
    leftOrigin? (pairRow a b i j x y) = some i := rfl

@[simp] theorem right_origin_pair (i j : Nat) (x y : Row) :
    rightOrigin? (pairRow a b i j x y) = some j := rfl

@[simp] theorem left_origin_padded_left (i : Nat) (x : Row) :
    leftOrigin? (paddedLeft a b i x) = some i := rfl

theorem mem_pairs_of {i : Nat} {x row : Row} :
    row ∈ pairsOf a b i x ↔ ∃ j y, b.rows[j]? = some y ∧ row = pairRow a b i j x y := by
  simp only [pairsOf, List.mem_map, Prod.exists, List.mem_zipIdx_iff_getElem?]
  constructor
  · rintro ⟨y, j, place, rfl⟩
    exact ⟨j, y, place, rfl⟩
  · rintro ⟨j, y, place, rfl⟩
    exact ⟨y, j, place, rfl⟩

theorem pairs_left_origin {i : Nat} {x row : Row} (member : row ∈ pairsOf a b i x) :
    leftOrigin? row = some i := by
  obtain ⟨j, y, -, rfl⟩ := mem_pairs_of.mp member
  exact left_origin_pair i j x y

theorem pairs_provenance (i : Nat) (x : Row) :
    (pairsOf a b i x).map Row.provenance =
      (List.range b.size).map fun j => some (.pair i j) := by
  rw [size, ← positions_eq_range, pairsOf, List.map_map, List.map_map]
  rfl

theorem product_of_position {i : Nat} {x : Row} (place : a.rows[i]? = some x) :
    (crossJoin a b).rows.filter (fun row => leftOrigin? row == some i) = pairsOf a b i x :=
  block_of_position (fun _ _ _ => pairs_left_origin) place

section Buckets

def goesTo (matching : Predicate) (i : Nat) (row : Row) : Bool :=
  leftOrigin? row == some i && matching row

theorem bucket_row (buckets : List (List Row)) (row : Row) (i : Nat) :
    (bucketRow matching buckets row)[i]? =
      buckets[i]?.map (· ++ [row].filter (goesTo matching i)) := by
  rw [bucketRow, List.filter_singleton, goesTo]
  cases origin : leftOrigin? row with
  | none => simp
  | some k =>
    by_cases holds : matching row = true
    · simp only [if_pos holds, List.getElem?_modify]
      by_cases here : k = i
      · simp [here, holds]
      · have other : (k == i) = false := beq_false_of_ne here
        simp [here, other]
    · simp [holds]

theorem scatter_eq (count : Nat) (rows : List Row) :
    scatter count matching rows =
      (List.range count).map fun i => rows.filter (goesTo matching i) := by
  have start : List.replicate count [] =
      (List.range count).map fun i => [].filter (goesTo matching i) := by
    simp only [List.filter_nil, List.map_const', List.length_range]
  rw [scatter, start]
  exact fold_by_position (fun i rows => rows.filter (goesTo matching i)) bucket_row
    (fun _ _ _ => List.filter_append _ _) count rows

theorem bucket_of_position {i : Nat} {x : Row} (place : a.rows[i]? = some x) :
    (crossJoin a b).rows.filter (goesTo matching i) = (pairsOf a b i x).filter matching := by
  rw [← product_of_position place, List.filter_filter]
  apply List.filter_congr
  intro row _
  exact Bool.and_comm _ _

end Buckets

theorem padding_cells_ok {table : Table} {cells : List (String × Value)}
    (given : table.paddingCells policy = .ok cells) : cells = table.nullCells := by
  rw [nullCells]
  unfold paddingCells at given
  split at given
  · rename_i columns present
    cases given
    rw [present, Option.getD_some]
  · rename_i missing
    cases given
    rw [missing, Option.getD_none, List.map_nil]
  · cases given

theorem left_padding_row_ok {i : Nat} {x row : Row}
    (given : leftPaddingRow a b policy i x = .ok row) : row = paddedLeft a b i x := by
  obtain ⟨cells, padding, made⟩ := bind_eq_ok_iff.mp given
  rw [padding_cells_ok padding] at made
  cases made
  rfl

theorem left_rows_ok {i : Nat} {x : Row} {block : List Row}
    (given : leftRows a b policy i x ((pairsOf a b i x).filter matching) = .ok block) :
    block = leftBlock a b matching i x := by
  rw [leftBlock]
  cases found : (pairsOf a b i x).filter matching with
  | nil =>
    rw [found] at given
    obtain ⟨row, padded, made⟩ := bind_eq_ok_iff.mp given
    rw [left_padding_row_ok padded] at made
    cases made
    rfl
  | cons first rest =>
    rw [found] at given
    cases given
    rfl

theorem left_join_eq {out : Table} (joined : leftJoin a b matching policy = .ok out) :
    out = ⟨"", a.rows.zipIdx.flatMap fun (x, i) => leftBlock a b matching i x⟩ := by
  obtain ⟨blocks, run, made⟩ := bind_eq_ok_iff.mp joined
  rw [scatter_eq, size, zip_positions, mapM_eq_ok_iff, List.forall₂_map_left_iff] at run
  have same : a.rows.zipIdx.map (fun (x, i) => leftBlock a b matching i x) = blocks.map id := by
    refine map_eq_of_pairs (pairs_imp run ?_)
    intro (x, i) place block _ given
    change leftRows a b policy i x ((crossJoin a b).rows.filter (goesTo matching i)) = _ at given
    rw [bucket_of_position (List.mem_zipIdx_iff_getElem?.mp place)] at given
    exact (left_rows_ok given).symm
  rw [List.map_id] at same
  rw [← same] at made
  cases made
  rw [List.flatMap_def]

theorem block_left_origin {i : Nat} {x row : Row} (member : row ∈ leftBlock a b matching i x) :
    leftOrigin? row = some i := by
  rw [leftBlock] at member
  split at member
  · rw [List.mem_singleton.mp member]
    exact left_origin_padded_left i x
  · exact pairs_left_origin (List.mem_of_mem_filter member)

theorem block_without_padding (i : Nat) (x : Row) :
    (leftBlock a b matching i x).filter (fun row => (rightOrigin? row).isSome) =
      (pairsOf a b i x).filter matching := by
  rw [leftBlock]
  split
  · rename_i none_found
    rw [none_found]
    rfl
  · rw [List.filter_eq_self]
    intro row member
    obtain ⟨j, y, -, rfl⟩ := mem_pairs_of.mp (List.mem_of_mem_filter member)
    rfl

def Unmatched (a b : Table) (matching : Predicate) (i : Nat) (x : Row) : Prop :=
  ∀ j y, b.rows[j]? = some y → matching (pairRow a b i j x y) = false

theorem no_pairs_iff {i : Nat} {x : Row} :
    (pairsOf a b i x).filter matching = [] ↔ Unmatched a b matching i x := by
  rw [List.filter_eq_nil_iff]
  constructor
  · intro none_holds j y place
    exact Bool.eq_false_iff.mpr (none_holds _ (mem_pairs_of.mpr ⟨j, y, place, rfl⟩))
  · intro unmatched row member
    obtain ⟨j, y, place, rfl⟩ := mem_pairs_of.mp member
    exact Bool.eq_false_iff.mp (unmatched j y place)

theorem mem_left_block {i : Nat} {x row : Row} :
    row ∈ leftBlock a b matching i x ↔
      (∃ j y, b.rows[j]? = some y ∧ matching (pairRow a b i j x y) = true ∧
        row = pairRow a b i j x y) ∨
      (Unmatched a b matching i x ∧ row = paddedLeft a b i x) := by
  have pairs : row ∈ (pairsOf a b i x).filter matching ↔
      ∃ j y, b.rows[j]? = some y ∧ matching (pairRow a b i j x y) = true ∧
        row = pairRow a b i j x y := by
    rw [List.mem_filter, mem_pairs_of]
    constructor
    · rintro ⟨⟨j, y, place, rfl⟩, holds⟩
      exact ⟨j, y, place, holds, rfl⟩
    · rintro ⟨j, y, place, holds, rfl⟩
      exact ⟨⟨j, y, place, rfl⟩, holds⟩
  rw [← pairs, ← no_pairs_iff, leftBlock]
  cases (pairsOf a b i x).filter matching with
  | nil => simp
  | cons first rest => simp

theorem inner_join_rows : (innerJoin a b matching).rows =
    a.rows.zipIdx.flatMap fun (x, i) => (pairsOf a b i x).filter matching :=
  List.filter_flatMap

theorem blocks_without_padding :
    (a.rows.zipIdx.flatMap fun (x, i) => leftBlock a b matching i x).filter
        (fun row => (rightOrigin? row).isSome) =
      (innerJoin a b matching).rows := by
  rw [inner_join_rows, List.filter_flatMap]
  simp only [block_without_padding]

/-- The left join is the nested loops: what it gives is unnamed, and its rows are
the blocks of the left rows in turn. The pairs of a left row are those rows of
the product that carry its position, one for each right row in order. The block
of a left row is what of the result carries its position, and without the
padding rows the inner join is left. -/
theorem left_join_nested_loops {out : Table} (joined : leftJoin a b matching policy = .ok out) :
    out.name = "" ∧
    out.rows = (a.rows.zipIdx.flatMap fun (x, i) => leftBlock a b matching i x) ∧
    (∀ i x, a.rows[i]? = some x →
      (crossJoin a b).rows.filter (fun row => leftOrigin? row == some i) = pairsOf a b i x ∧
      (pairsOf a b i x).map Row.provenance =
        (List.range b.size).map (fun j => some (.pair i j)) ∧
      out.rows.filter (fun row => leftOrigin? row == some i) = leftBlock a b matching i x) ∧
    out.rows.filter (fun row => (rightOrigin? row).isSome) = (innerJoin a b matching).rows := by
  rw [left_join_eq joined]
  refine ⟨rfl, rfl, ?_, ?_⟩
  · intro i x place
    refine ⟨product_of_position place, pairs_provenance i x, ?_⟩
    exact block_of_position (fun _ _ _ => block_left_origin) place
  · exact blocks_without_padding

def guest : Row := .ofCells (.ofList [("id", .int 1)])

def stranger : Row := .ofCells (.ofList [("id", .int 2)])

def guests : Table := ⟨"g", [guest, stranger, guest]⟩

def visits : Table := ⟨"v", [.ofCells (.ofList [("id", .int 3)]), guest, guest]⟩

def sameId (row : Row) : Bool := row.value "g.id" == row.value "v.id"

theorem left_join_of_guests_and_visits :
    ∃ out, leftJoin guests visits sameId .error = .ok out ∧ out.name = "" ∧
      (out.rows.filter fun row => leftOrigin? row == some 0).map Row.provenance =
        [some (.pair 0 1), some (.pair 0 2)] ∧
      (out.rows.filter fun row => leftOrigin? row == some 1) =
        [paddedLeft guests visits 1 stranger] ∧
      (paddedLeft guests visits 1 stranger).cells.toList = [("g.id", .int 2), ("v.id", .null)] ∧
      (out.rows.filter fun row => (rightOrigin? row).isSome).map Row.provenance =
        [some (.pair 0 1), some (.pair 0 2), some (.pair 2 1), some (.pair 2 2)] := by
  refine ⟨_, rfl, ?_⟩
  obtain ⟨name, -, places, pairs⟩ := left_join_nested_loops
    (rfl : leftJoin guests visits sameId .error = .ok _)
  refine ⟨name, ?_, ?_, rfl, ?_⟩
  · rw [(places 0 guest rfl).2.2]
    decide
  · exact (places 1 stranger rfl).2.2
  · rw [pairs]
    decide

end Table
end TableAlgebra
