import TableAlgebra.Proofs.Query.LeftJoin

/-!
The full join covers both sides. Which right rows are in a pair is read off the
rows of the left join, where pairs and padding rows are mixed; the marks set in
this way say the same as the predicate on the product. So each right row that
is in no pair is padded once, and no other is.
-/
namespace TableAlgebra
namespace Table

def unmatchedRight (a b : Table) (matching : Predicate) (j : Nat) : Bool :=
  !(crossJoin a b).rows.any fun row => rightOrigin? row == some j && matching row

def paddedRight (a b : Table) (j : Nat) (y : Row) : Row where
  cells := (Entries.ofList a.nullCells).insertAll (b.qualifiedCells y)
  provenance := some (.rightOnly j)
  members := none

def rightPadding (a b : Table) (matching : Predicate) : List Row :=
  (b.rows.zipIdx.filter fun (_, j) => unmatchedRight a b matching j).map fun (y, j) =>
    paddedRight a b j y

/-- Some row was made from these positions. -/
def Records (rows : List Row) (origin : Provenance) : Prop :=
  some origin ∈ rows.map Row.provenance

instance (rows : List Row) (origin : Provenance) : Decidable (Records rows origin) :=
  inferInstanceAs (Decidable (some origin ∈ rows.map Row.provenance))

variable {a b : Table} {matching : Predicate} {policy : PaddingPolicy}

section Marks

theorem mark_right (seen : List Bool) (row : Row) (j : Nat) :
    (markRight seen row)[j]? = seen[j]?.map (· || rightOrigin? row == some j) := by
  rw [markRight]
  cases origin : rightOrigin? row with
  | none => simp
  | some k =>
    simp only [List.getElem?_set]
    by_cases here : k = j
    · subst here
      by_cases inside : k < seen.length
      · simp [inside]
      · simp [inside]
    · have other : (k == j) = false := beq_false_of_ne here
      simp [here, other]

theorem rights_seen_eq (count : Nat) (rows : List Row) :
    rightsSeen count rows =
      (List.range count).map fun j => rows.any fun row => rightOrigin? row == some j := by
  have start : List.replicate count false =
      (List.range count).map fun j => [].any fun row => rightOrigin? row == some j := by
    simp only [List.any_nil, List.map_const', List.length_range]
  have grows (j : Nat) (rows : List Row) (row : Row) :
      (rows ++ [row]).any (fun row => rightOrigin? row == some j) =
        (rows.any (fun row => rightOrigin? row == some j) || rightOrigin? row == some j) := by
    rw [List.any_append, List.any_cons, List.any_nil, Bool.or_false]
  rw [rightsSeen, start]
  exact fold_by_position (fun j rows => rows.any fun row => rightOrigin? row == some j) mark_right
    grows count rows

end Marks

theorem seen_iff_matched (j : Nat) :
    (a.rows.zipIdx.flatMap fun (x, i) => leftBlock a b matching i x).any
        (fun row => rightOrigin? row == some j) =
      !unmatchedRight a b matching j := by
  have pairs : (crossJoin a b).rows.any (fun row => rightOrigin? row == some j && matching row) =
      (innerJoin a b matching).rows.any fun row => rightOrigin? row == some j := by
    simp only [innerJoin, filter, List.any_filter, Bool.and_comm]
  rw [unmatchedRight, Bool.not_not, pairs, ← blocks_without_padding, List.any_filter]
  congr 1
  funext row
  cases rightOrigin? row <;> simp

theorem right_padding_row_ok {j : Nat} {y row : Row}
    (given : rightPaddingRow a b policy j y = .ok row) : row = paddedRight a b j y := by
  obtain ⟨cells, padding, made⟩ := bind_eq_ok_iff.mp given
  rw [padding_cells_ok padding] at made
  cases made
  rfl

theorem full_join_eq {out : Table} (joined : fullJoin a b matching policy = .ok out) :
    ∃ left, leftJoin a b matching policy = .ok left ∧
      out = ⟨"", left.rows ++ rightPadding a b matching⟩ := by
  obtain ⟨left, leftJoined, rest⟩ := bind_eq_ok_iff.mp joined
  obtain ⟨padded, run, made⟩ := bind_eq_ok_iff.mp rest
  refine ⟨left, leftJoined, ?_⟩
  have unseen : (b.rows.zipIdx.filter fun p => !(rightsSeen b.size left.rows).getD p.2 false) =
      b.rows.zipIdx.filter fun p => unmatchedRight a b matching p.2 := by
    apply List.filter_congr
    intro (y, j) place
    have inside : j < b.size := (List.mem_zipIdx' place).1
    rw [rights_seen_eq, left_join_eq leftJoined, List.getD_eq_getElem?_getD, List.getElem?_map,
      List.getElem?_range inside, Option.map_some, Option.getD_some, seen_iff_matched, Bool.not_not]
  have same : rightPadding a b matching = padded.map id := by
    rw [mapM_eq_ok_iff, unseen] at run
    refine map_eq_of_pairs (pairs_imp run ?_)
    intro (y, j) _ row _ given
    exact (right_padding_row_ok given).symm
  rw [List.map_id] at same
  rw [same]
  cases made
  rfl

section Coverage

theorem unmatched_right_iff {j : Nat} : unmatchedRight a b matching j = true ↔
    ∀ i x y, a.rows[i]? = some x → b.rows[j]? = some y →
      matching (pairRow a b i j x y) = false := by
  rw [unmatchedRight, Bool.not_eq_true', List.any_eq_false]
  constructor
  · intro none_holds i x y placeX placeY
    have member : pairRow a b i j x y ∈ (crossJoin a b).rows :=
      List.mem_flatMap.mpr ⟨(x, i), List.mem_zipIdx_iff_getElem?.mpr placeX,
        mem_pairs_of.mpr ⟨j, y, placeY, rfl⟩⟩
    simpa using none_holds _ member
  · intro unmatched row member
    obtain ⟨⟨x, i⟩, placeX, pair⟩ := List.mem_flatMap.mp member
    obtain ⟨k, y, placeY, rfl⟩ := mem_pairs_of.mp pair
    rw [right_origin_pair]
    by_cases here : k = j
    · subst here
      simp [unmatched i x y (List.mem_zipIdx_iff_getElem?.mp placeX) placeY]
    · simp [here]

theorem records_append {rows others : List Row} {origin : Provenance} :
    Records (rows ++ others) origin ↔ Records rows origin ∨ Records others origin := by
  rw [Records, List.map_append, List.mem_append]
  rfl

theorem row_of_left {rows : List Row} {origin : Provenance} {i : Nat}
    (recorded : Records rows origin) (side : origin.left = some i) :
    ∃ row ∈ rows, leftOrigin? row = some i := by
  obtain ⟨row, member, same⟩ := List.mem_map.mp recorded
  refine ⟨row, member, ?_⟩
  rw [leftOrigin?, same]
  exact side

theorem row_of_right {rows : List Row} {origin : Provenance} {j : Nat}
    (recorded : Records rows origin) (side : origin.right = some j) :
    ∃ row ∈ rows, rightOrigin? row = some j := by
  obtain ⟨row, member, same⟩ := List.mem_map.mp recorded
  refine ⟨row, member, ?_⟩
  rw [rightOrigin?, same]
  exact side

theorem right_padding_provenance : (rightPadding a b matching).map Row.provenance =
    ((List.range b.size).filter (unmatchedRight a b matching)).map fun j =>
      some (.rightOnly j) := by
  rw [size, ← positions_eq_range, List.filter_map, List.map_map, rightPadding, List.map_map]
  rfl

theorem right_padding_records {origin : Provenance} :
    Records (rightPadding a b matching) origin ↔
      ∃ j, j < b.size ∧ unmatchedRight a b matching j = true ∧ origin = .rightOnly j := by
  rw [Records, right_padding_provenance]
  simp only [List.mem_map, List.mem_filter, List.mem_range, Option.some.injEq]
  constructor
  · rintro ⟨j, ⟨inside, unmatched⟩, same⟩
    exact ⟨j, inside, unmatched, same.symm⟩
  · rintro ⟨j, inside, unmatched, same⟩
    exact ⟨j, ⟨inside, unmatched⟩, same.symm⟩

theorem left_records {origin : Provenance} :
    Records (a.rows.zipIdx.flatMap fun (x, i) => leftBlock a b matching i x) origin ↔
      (∃ i j x y, a.rows[i]? = some x ∧ b.rows[j]? = some y ∧
        matching (pairRow a b i j x y) = true ∧ origin = .pair i j) ∨
      (∃ i x, a.rows[i]? = some x ∧ Unmatched a b matching i x ∧ origin = .leftOnly i) := by
  have blocks : Records (a.rows.zipIdx.flatMap fun (x, i) => leftBlock a b matching i x) origin ↔
      ∃ i x, a.rows[i]? = some x ∧
        ∃ row ∈ leftBlock a b matching i x, row.provenance = some origin := by
    simp only [Records, List.mem_map, List.mem_flatMap, Prod.exists, List.mem_zipIdx_iff_getElem?]
    constructor
    · rintro ⟨row, ⟨x, i, place, member⟩, same⟩
      exact ⟨i, x, place, row, member, same⟩
    · rintro ⟨i, x, place, row, member, same⟩
      exact ⟨row, ⟨x, i, place, member⟩, same⟩
  rw [blocks]
  constructor
  · rintro ⟨i, x, place, row, member, same⟩
    rcases mem_left_block.mp member with ⟨j, y, placeY, holds, rfl⟩ | ⟨unmatched, rfl⟩
    · exact .inl ⟨i, j, x, y, place, placeY, holds, (Option.some.inj same).symm⟩
    · exact .inr ⟨i, x, place, unmatched, (Option.some.inj same).symm⟩
  · rintro (⟨i, j, x, y, place, placeY, holds, rfl⟩ | ⟨i, x, place, unmatched, rfl⟩)
    · exact ⟨i, x, place, _, mem_left_block.mpr (.inl ⟨j, y, placeY, holds, rfl⟩), rfl⟩
    · exact ⟨i, x, place, _, mem_left_block.mpr (.inr ⟨unmatched, rfl⟩), rfl⟩

variable {out : Table} {i j : Nat}

theorem full_join_records (joined : fullJoin a b matching policy = .ok out)
    {origin : Provenance} : Records out.rows origin ↔
      (∃ i j x y, a.rows[i]? = some x ∧ b.rows[j]? = some y ∧
        matching (pairRow a b i j x y) = true ∧ origin = .pair i j) ∨
      (∃ i x, a.rows[i]? = some x ∧ Unmatched a b matching i x ∧ origin = .leftOnly i) ∨
      (∃ j, j < b.size ∧ unmatchedRight a b matching j = true ∧ origin = .rightOnly j) := by
  obtain ⟨left, leftJoined, rfl⟩ := full_join_eq joined
  rw [left_join_eq leftJoined, records_append, left_records, right_padding_records, or_assoc]

theorem full_join_records_pair (joined : fullJoin a b matching policy = .ok out) :
    Records out.rows (.pair i j) ↔ ∃ x y, a.rows[i]? = some x ∧ b.rows[j]? = some y ∧
      matching (pairRow a b i j x y) = true := by
  rw [full_join_records joined]
  simp [Provenance.pair, Provenance.leftOnly, Provenance.rightOnly]

theorem full_join_records_left (joined : fullJoin a b matching policy = .ok out) :
    Records out.rows (.leftOnly i) ↔ ∃ x, a.rows[i]? = some x ∧ Unmatched a b matching i x := by
  rw [full_join_records joined]
  simp [Provenance.pair, Provenance.leftOnly, Provenance.rightOnly]

theorem full_join_records_right (joined : fullJoin a b matching policy = .ok out) :
    Records out.rows (.rightOnly j) ↔ j < b.size ∧ unmatchedRight a b matching j = true := by
  rw [full_join_records joined]
  simp [Provenance.pair, Provenance.leftOnly, Provenance.rightOnly]

theorem left_padding_iff_no_pair (joined : fullJoin a b matching policy = .ok out)
    (inside : i < a.size) :
    Records out.rows (.leftOnly i) ↔ ∀ j, ¬ Records out.rows (.pair i j) := by
  have place : a.rows[i]? = some a.rows[i] := List.getElem?_eq_getElem inside
  simp only [full_join_records_left joined, full_join_records_pair joined]
  constructor
  · rintro ⟨x, placeX, unmatched⟩ j ⟨x', y, placeX', placeY, holds⟩
    rw [placeX] at placeX'
    cases placeX'
    exact absurd holds (Bool.eq_false_iff.mp (unmatched j y placeY))
  · intro no_pair
    refine ⟨_, place, fun j y placeY => ?_⟩
    rw [Bool.eq_false_iff]
    exact fun holds => no_pair j ⟨_, y, place, placeY, holds⟩

theorem left_covered (joined : fullJoin a b matching policy = .ok out) (inside : i < a.size) :
    ∃ row ∈ out.rows, leftOrigin? row = some i := by
  by_cases padded : Records out.rows (.leftOnly i)
  · exact row_of_left padded rfl
  · obtain ⟨j, pair⟩ := not_forall_not.mp (mt (left_padding_iff_no_pair joined inside).mpr padded)
    exact row_of_left pair rfl

theorem right_padding_iff_no_pair (joined : fullJoin a b matching policy = .ok out)
    (inside : j < b.size) :
    Records out.rows (.rightOnly j) ↔ ∀ i, ¬ Records out.rows (.pair i j) := by
  simp only [full_join_records_right joined, full_join_records_pair joined, unmatched_right_iff]
  constructor
  · rintro ⟨-, unmatched⟩ i ⟨x, y, placeX, placeY, holds⟩
    exact absurd holds (Bool.eq_false_iff.mp (unmatched i x y placeX placeY))
  · intro no_pair
    refine ⟨inside, fun i x y placeX placeY => ?_⟩
    rw [Bool.eq_false_iff]
    exact fun holds => no_pair i ⟨x, y, placeX, placeY, holds⟩

theorem right_covered (joined : fullJoin a b matching policy = .ok out) (inside : j < b.size) :
    ∃ row ∈ out.rows, rightOrigin? row = some j := by
  by_cases padded : Records out.rows (.rightOnly j)
  · exact row_of_right padded rfl
  · obtain ⟨i, pair⟩ := not_forall_not.mp (mt (right_padding_iff_no_pair joined inside).mpr padded)
    exact row_of_right pair rfl

theorem block_origins_distinct (i : Nat) (x : Row) :
    ((leftBlock a b matching i x).map Row.provenance).Nodup := by
  rw [leftBlock]
  split
  · simp
  · have all : ((pairsOf a b i x).map Row.provenance).Nodup := by
      rw [pairs_provenance]
      exact List.nodup_range.map fun j k same => by simpa [Provenance.pair] using same
    exact all.sublist (List.filter_sublist.map _)

theorem full_join_origins_distinct (joined : fullJoin a b matching policy = .ok out) :
    (out.rows.map Row.provenance).Nodup := by
  obtain ⟨left, leftJoined, rfl⟩ := full_join_eq joined
  rw [left_join_eq leftJoined, List.map_append, List.nodup_append]
  refine ⟨?_, ?_, ?_⟩
  · exact nodup_blocks (fun origin => origin.bind (·.left))
      (fun _ _ _ => block_left_origin) (fun x i => block_origins_distinct i x) _
  · rw [right_padding_provenance]
    exact (List.nodup_range.filter _).map fun j k same => by
      simpa [Provenance.rightOnly] using same
  -- right padding has no left side, and everything before it has one
  · rw [right_padding_provenance]
    intro origin left padded right same
    obtain ⟨row, member, rfl⟩ := List.mem_map.mp left
    obtain ⟨⟨x, i⟩, -, inside⟩ := List.mem_flatMap.mp member
    obtain ⟨j, -, rfl⟩ := List.mem_map.mp right
    have side := block_left_origin inside
    rw [leftOrigin?, same] at side
    cases side

end Coverage

/-- The full join covers both sides. Its rows are those of the left join, and
behind them one padding row for each right row that is in no pair of the
product, in order. Every position of either side is in the origin of some row,
no origin occurs twice, and a position is padded exactly where it is in no pair.
The marks are as many as the right rows, so none is looked up past the end. -/
theorem full_join_covers_both_sides {out : Table}
    (joined : fullJoin a b matching policy = .ok out) :
    (∃ left, leftJoin a b matching policy = .ok left ∧
      out = ⟨"", left.rows ++ rightPadding a b matching⟩ ∧
      ∀ j < b.size, j < (rightsSeen b.size left.rows).length) ∧
    (∀ i < a.size, ∃ row ∈ out.rows, leftOrigin? row = some i) ∧
    (∀ j < b.size, ∃ row ∈ out.rows, rightOrigin? row = some j) ∧
    (out.rows.map Row.provenance).Nodup ∧
    (∀ i < a.size, Records out.rows (.leftOnly i) ↔ ∀ j, ¬ Records out.rows (.pair i j)) ∧
    (∀ j < b.size, Records out.rows (.rightOnly j) ↔ ∀ i, ¬ Records out.rows (.pair i j)) := by
  refine ⟨?_, fun i => left_covered joined, fun j => right_covered joined,
    full_join_origins_distinct joined, fun i => left_padding_iff_no_pair joined,
    fun j => right_padding_iff_no_pair joined⟩
  obtain ⟨left, leftJoined, same⟩ := full_join_eq joined
  refine ⟨left, leftJoined, same, fun j inside => ?_⟩
  rw [rights_seen_eq, List.length_map, List.length_range]
  exact inside

theorem full_join_of_guests_and_visits :
    ∃ out, fullJoin guests visits sameId .error = .ok out ∧
      out.rows.map Row.provenance =
        [some (.pair 0 1), some (.pair 0 2), some (.leftOnly 1), some (.pair 2 1),
          some (.pair 2 2), some (.rightOnly 0)] ∧
      (∃ row ∈ out.rows, rightOrigin? row = some 0) ∧
      ¬ Records out.rows (.rightOnly 1) ∧ ¬ Records out.rows (.leftOnly 2) ∧
      (rightPadding guests visits sameId).map (·.cells.toList) =
        [[("g.id", .null), ("v.id", .int 3)]] := by
  refine ⟨_, rfl, by decide, ?_⟩
  obtain ⟨-, -, rights, -, leftPadding, rightPadding⟩ := full_join_covers_both_sides
    (rfl : fullJoin guests visits sameId .error = .ok _)
  refine ⟨rights 0 (by decide), fun padded => ?_, fun padded => ?_, rfl⟩
  · exact (rightPadding 1 (by decide)).mp padded 0 (by decide)
  · exact (leftPadding 2 (by decide)).mp padded 1 (by decide)

end Table
end TableAlgebra
