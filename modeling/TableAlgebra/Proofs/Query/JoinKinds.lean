import TableAlgebra.Proofs.Query.JoinedRows

/-!
All kinds of join select the same pairs. A right join pairs its rows the other
way round, and so the predicate sees them with their cells in another order; but
if the tables share no qualified name, the cells read the same by name. What a
join shows is then told by the matched positions alone, and by the sides that it
pads.
-/
namespace TableAlgebra

namespace Provenance

def exchange (origin : Provenance) : Provenance := ⟨origin.right, origin.left⟩

end Provenance

/-- What of a joined row does not depend on the order of its cells. -/
abbrev Reading := (String → Option Value) × Option Provenance

namespace Reading

def exchange (reading : Reading) : Reading := (reading.1, reading.2.map Provenance.exchange)

theorem exchange_exchange : Function.Involutive exchange := by
  rintro ⟨cells, _ | origin⟩ <;> rfl

end Reading

namespace Row

def reading (row : Row) : Reading := (row.get?, row.provenance)

def exchange (row : Row) : Row := { row with provenance := row.provenance.map Provenance.exchange }

theorem readings_exchange (rows : List Row) :
    (rows.map exchange).map reading = (rows.map reading).map Reading.exchange := by
  rw [List.map_map, List.map_map]
  rfl

end Row

/-- The answer depends on the values that are found under the names, and on
nothing else of a row. -/
def ReadsByName (matching : Predicate) : Prop :=
  ∀ r q : Row, (∀ column, r.get? column = q.get? column) → matching r = matching q

namespace Table

def NamesApart (a b : Table) : Prop :=
  ∀ x ∈ a.rows, ∀ y ∈ b.rows, ∀ c ∈ x.columns, ∀ d ∈ y.columns, a.qualify c ≠ b.qualify d

instance (a b : Table) : Decidable (NamesApart a b) :=
  inferInstanceAs (Decidable
    (∀ x ∈ a.rows, ∀ y ∈ b.rows, ∀ c ∈ x.columns, ∀ d ∈ y.columns, a.qualify c ≠ b.qualify d))

variable {a b : Table} {matching : Predicate} {policy : PaddingPolicy} {i j : Nat} {x y : Row}

theorem names_apart_symm (apart : NamesApart a b) : NamesApart b a :=
  fun y hy x hx d hd c hc same => apart x hx y hy c hc d hd same.symm

section Sides

theorem pair_exchange (apart : NamesApart a b) (hx : x ∈ a.rows) (hy : y ∈ b.rows) :
    (pairRow a b i j x y).reading = (pairRow b a j i y x).reading.exchange := by
  have cells : (pairRow a b i j x y).get? = (pairRow b a j i y x).get? := by
    funext name
    rw [get?_pair, get?_pair]
    refine lookup_or_comm fun right left => ?_
    rw [names_qualified] at left right
    obtain ⟨d, hd, rfl⟩ := List.mem_map.mp right
    obtain ⟨c, hc, same⟩ := List.mem_map.mp left
    exact apart x hx y hy c hc d hd same
  rw [Row.reading, Row.reading, cells]
  rfl

theorem padded_exchange (apart : NamesApart a b) (hx : x ∈ a.rows) :
    (paddedLeft a b i x).reading = (paddedRight b a i x).reading.exchange := by
  have cells : (paddedLeft a b i x).get? = (paddedRight b a i x).get? := by
    funext name
    rw [get?_padded_left, get?_padded_right]
    refine lookup_or_comm fun right left => ?_
    rw [names_null_cells, paddedColumns, firstRowColumns?] at right
    rw [names_qualified] at left
    obtain ⟨c, hc, same⟩ := List.mem_map.mp left
    obtain ⟨d, hd, rfl⟩ := List.mem_map.mp right
    -- the padding is that of some row of the other table
    cases rows : b.rows with
    | nil => simp [rows] at hd
    | cons first rest =>
      rw [rows] at hd
      exact apart x hx first (by simp [rows]) c hc d hd same
  rw [Row.reading, Row.reading, cells]
  rfl

def Matched (a b : Table) (matching : Predicate) (i j : Nat) : Prop :=
  ∃ row, IsMatch a b matching i j row

theorem matched_iff (hx : a.rows[i]? = some x) (hy : b.rows[j]? = some y) :
    Matched a b matching i j ↔ matching (pairRow a b i j x y) = true := by
  constructor
  · rintro ⟨-, x', y', hx', hy', holds, -⟩
    rw [hx] at hx'
    rw [hy] at hy'
    cases hx'
    cases hy'
    exact holds
  · exact fun holds => ⟨_, x, y, hx, hy, holds, rfl⟩

theorem pair_matching (apart : NamesApart a b) (reads : ReadsByName matching) (hx : x ∈ a.rows)
    (hy : y ∈ b.rows) : matching (pairRow a b i j x y) = matching (pairRow b a j i y x) :=
  reads _ _ fun column => congrFun (congrArg Prod.fst (pair_exchange apart hx hy)) column

theorem matched_exchange (apart : NamesApart a b) (reads : ReadsByName matching)
    (matched : Matched a b matching i j) : Matched b a matching j i := by
  obtain ⟨-, x, y, hx, hy, holds, -⟩ := matched
  refine ⟨_, y, x, hy, hx, ?_, rfl⟩
  rw [← pair_matching apart reads (List.mem_of_getElem? hx) (List.mem_of_getElem? hy)]
  exact holds

theorem unmatched_iff (hx : a.rows[i]? = some x) :
    Unmatched a b matching i x ↔ ∀ j, ¬ Matched a b matching i j := by
  constructor
  · rintro unmatched j ⟨-, x', y, hx', hy, holds, -⟩
    rw [hx] at hx'
    cases hx'
    exact absurd holds (Bool.eq_false_iff.mp (unmatched j y hy))
  · intro none j y hy
    exact Bool.eq_false_iff.mpr (mt (matched_iff hx hy).mpr (none j))

theorem unmatched_right_iff_none :
    unmatchedRight a b matching j = true ↔ ∀ i, ¬ Matched a b matching i j := by
  rw [unmatched_right_iff]
  constructor
  · rintro unmatched i ⟨-, x, y, hx, hy, holds, -⟩
    exact absurd holds (Bool.eq_false_iff.mp (unmatched i x y hx hy))
  · intro none i x y hx hy
    exact Bool.eq_false_iff.mpr (mt (matched_iff hx hy).mpr (none i))

end Sides

section Shown

/-- What a join shows that pads these sides: its pairs, and the rows of the
padded sides that are in none. -/
def Shows (a b : Table) (matching : Predicate) (left right : Bool) (reading : Reading) : Prop :=
  (∃ i j row, IsMatch a b matching i j row ∧ reading = row.reading) ∨
  (left = true ∧ ∃ i x, a.rows[i]? = some x ∧ (∀ j, ¬ Matched a b matching i j) ∧
    reading = (paddedLeft a b i x).reading) ∨
  (right = true ∧ ∃ j y, b.rows[j]? = some y ∧ (∀ i, ¬ Matched a b matching i j) ∧
    reading = (paddedRight a b j y).reading)

def ShownBy (a b : Table) (matching : Predicate) (left right : Bool) (rows : List Row) : Prop :=
  ∀ reading, reading ∈ rows.map Row.reading ↔ Shows a b matching left right reading

variable {left right : Bool}

theorem shows_exchange (apart : NamesApart a b) (reads : ReadsByName matching) {reading : Reading}
    (shown : Shows a b matching left right reading) :
    Shows b a matching right left reading.exchange := by
  have none_exchange : ∀ {i j}, Matched b a matching j i → Matched a b matching i j :=
    fun matched => matched_exchange (names_apart_symm apart) reads matched
  rcases shown with ⟨i, j, -, ⟨x, y, hx, hy, holds, rfl⟩, rfl⟩ | ⟨pads, i, x, hx, none, rfl⟩ |
      ⟨pads, j, y, hy, none, rfl⟩
  · have inA := List.mem_of_getElem? hx
    have inB := List.mem_of_getElem? hy
    rw [pair_matching apart reads inA inB] at holds
    refine .inl ⟨j, i, _, ⟨y, x, hy, hx, holds, rfl⟩, ?_⟩
    rw [pair_exchange apart inA inB, Reading.exchange_exchange]
  · refine .inr (.inr ⟨pads, i, x, hx, fun j matched => none j (none_exchange matched), ?_⟩)
    rw [padded_exchange apart (List.mem_of_getElem? hx), Reading.exchange_exchange]
  · refine .inr (.inl ⟨pads, j, y, hy, fun i matched => none i (none_exchange matched), ?_⟩)
    rw [padded_exchange (names_apart_symm apart) (List.mem_of_getElem? hy)]

theorem shown_by_exchange (apart : NamesApart a b) (reads : ReadsByName matching) {rows : List Row}
    (shown : ShownBy b a matching right left rows) :
    ShownBy a b matching left right (rows.map Row.exchange) := by
  intro reading
  rw [Row.readings_exchange, List.mem_map]
  constructor
  · rintro ⟨other, member, rfl⟩
    exact shows_exchange (names_apart_symm apart) reads ((shown other).mp member)
  · intro shows
    exact ⟨reading.exchange, (shown _).mpr (shows_exchange apart reads shows),
      Reading.exchange_exchange reading⟩

theorem inner_join_shown : ShownBy a b matching false false (innerJoin a b matching).rows := by
  intro reading
  simp only [List.mem_map, mem_inner_join, Shows, Bool.false_eq_true, false_and, or_false]
  constructor
  · rintro ⟨row, ⟨i, j, pair⟩, rfl⟩
    exact ⟨i, j, row, pair, rfl⟩
  · rintro ⟨i, j, row, pair, rfl⟩
    exact ⟨row, ⟨i, j, pair⟩, rfl⟩

theorem full_join_shown {out : Table} (joined : fullJoin a b matching policy = .ok out) :
    ShownBy a b matching true true out.rows := by
  intro reading
  simp only [List.mem_map, mem_full_join joined, Shows, true_and]
  constructor
  · rintro ⟨row, ⟨i, j, pair⟩ | ⟨i, x, hx, none, rfl⟩ | ⟨j, y, hy, none, rfl⟩, rfl⟩
    · exact .inl ⟨i, j, row, pair, rfl⟩
    · exact .inr (.inl ⟨i, x, hx, (unmatched_iff hx).mp none, rfl⟩)
    · exact .inr (.inr ⟨j, y, hy, unmatched_right_iff_none.mp none, rfl⟩)
  · rintro (⟨i, j, row, pair, rfl⟩ | ⟨i, x, hx, none, rfl⟩ | ⟨j, y, hy, none, rfl⟩)
    · exact ⟨row, .inl ⟨i, j, pair⟩, rfl⟩
    · exact ⟨_, .inr (.inl ⟨i, x, hx, (unmatched_iff hx).mpr none, rfl⟩), rfl⟩
    · exact ⟨_, .inr (.inr ⟨j, y, hy, unmatched_right_iff_none.mpr none, rfl⟩), rfl⟩

theorem left_join_shown {out : Table} (joined : leftJoin a b matching policy = .ok out) :
    ShownBy a b matching true false out.rows := by
  intro reading
  simp only [List.mem_map, mem_left_join joined, Shows, true_and, Bool.false_eq_true, false_and,
    or_false]
  constructor
  · rintro ⟨row, ⟨i, j, pair⟩ | ⟨i, x, hx, none, rfl⟩, rfl⟩
    · exact .inl ⟨i, j, row, pair, rfl⟩
    · exact .inr ⟨i, x, hx, (unmatched_iff hx).mp none, rfl⟩
  · rintro (⟨i, j, row, pair, rfl⟩ | ⟨i, x, hx, none, rfl⟩)
    · exact ⟨row, .inl ⟨i, j, pair⟩, rfl⟩
    · exact ⟨_, .inr ⟨i, x, hx, (unmatched_iff hx).mpr none, rfl⟩, rfl⟩

end Shown

section Agreement

/-- The rows record the pairs of the inner join, each with the same cells, and
beside them the positions of the padded sides that are in no pair. -/
structure AgreesWithInner (a b : Table) (matching : Predicate) (left right : Bool)
    (rows : List Row) : Prop where
  pairs : ∀ i j, Records rows (.pair i j) ↔ Records (innerJoin a b matching).rows (.pair i j)
  cells : ∀ row ∈ rows, ∀ pair ∈ (innerJoin a b matching).rows,
    row.provenance = pair.provenance → ∀ column, row.get? column = pair.get? column
  left_padding : ∀ i, Records rows (.leftOnly i) ↔
    left = true ∧ i < a.size ∧ ∀ j, ¬ Records (innerJoin a b matching).rows (.pair i j)
  right_padding : ∀ j, Records rows (.rightOnly j) ↔
    right = true ∧ j < b.size ∧ ∀ i, ¬ Records (innerJoin a b matching).rows (.pair i j)
  no_other : ∀ row ∈ rows, ∃ origin, row.provenance = some origin ∧
    ((∃ i j, origin = .pair i j) ∨ (∃ i, origin = .leftOnly i) ∨ ∃ j, origin = .rightOnly j)

variable {left right : Bool} {rows : List Row}

theorem match_unique {row other : Row} (one : IsMatch a b matching i j row)
    (two : IsMatch a b matching i j other) : row = other := by
  obtain ⟨x, y, hx, hy, -, rfl⟩ := one
  obtain ⟨x', y', hx', hy', -, rfl⟩ := two
  rw [hx] at hx'
  rw [hy] at hy'
  cases hx'
  cases hy'
  rfl

theorem shows_cases {reading : Reading} (shown : Shows a b matching left right reading) :
    (∃ i j row, IsMatch a b matching i j row ∧ reading = row.reading ∧
      reading.2 = some (.pair i j)) ∨
    (∃ i, (left = true ∧ i < a.size ∧ ∀ j, ¬ Matched a b matching i j) ∧
      reading.2 = some (.leftOnly i)) ∨
    (∃ j, (right = true ∧ j < b.size ∧ ∀ i, ¬ Matched a b matching i j) ∧
      reading.2 = some (.rightOnly j)) := by
  rcases shown with ⟨i, j, -, ⟨x, y, hx, hy, holds, rfl⟩, rfl⟩ | ⟨pads, i, x, hx, none, rfl⟩ |
      ⟨pads, j, y, hy, none, rfl⟩
  · exact .inl ⟨i, j, _, ⟨x, y, hx, hy, holds, rfl⟩, rfl, rfl⟩
  · exact .inr (.inl ⟨i, ⟨pads, (List.getElem?_eq_some_iff.mp hx).1, none⟩, rfl⟩)
  · exact .inr (.inr ⟨j, ⟨pads, (List.getElem?_eq_some_iff.mp hy).1, none⟩, rfl⟩)

theorem records_iff_reading {origin : Provenance} :
    Records rows origin ↔ ∃ reading ∈ rows.map Row.reading, reading.2 = some origin := by
  rw [Records, List.mem_map]
  constructor
  · rintro ⟨row, member, same⟩
    exact ⟨row.reading, List.mem_map_of_mem member, same⟩
  · rintro ⟨reading, member, same⟩
    obtain ⟨row, inside, rfl⟩ := List.mem_map.mp member
    exact ⟨row, inside, same⟩

theorem records_iff (shown : ShownBy a b matching left right rows) {origin : Provenance} :
    Records rows origin ↔
      (∃ i j, Matched a b matching i j ∧ origin = .pair i j) ∨
      (∃ i, (left = true ∧ i < a.size ∧ ∀ j, ¬ Matched a b matching i j) ∧
        origin = .leftOnly i) ∨
      ∃ j, (right = true ∧ j < b.size ∧ ∀ i, ¬ Matched a b matching i j) ∧
        origin = .rightOnly j := by
  rw [records_iff_reading]
  constructor
  · rintro ⟨reading, member, same⟩
    rcases shows_cases ((shown reading).mp member) with ⟨i, j, row, pair, -, here⟩ |
        ⟨i, none, here⟩ | ⟨j, none, here⟩
    · exact .inl ⟨i, j, ⟨row, pair⟩, Option.some.inj (same.symm.trans here)⟩
    · exact .inr (.inl ⟨i, none, Option.some.inj (same.symm.trans here)⟩)
    · exact .inr (.inr ⟨j, none, Option.some.inj (same.symm.trans here)⟩)
  · rintro (⟨i, j, ⟨row, pair⟩, rfl⟩ | ⟨i, ⟨pads, inside, none⟩, rfl⟩ |
        ⟨j, ⟨pads, inside, none⟩, rfl⟩)
    · refine ⟨row.reading, (shown _).mpr (.inl ⟨i, j, row, pair, rfl⟩), ?_⟩
      obtain ⟨x, y, -, -, -, rfl⟩ := pair
      rfl
    · exact ⟨_, (shown _).mpr
        (.inr (.inl ⟨pads, i, _, List.getElem?_eq_getElem inside, none, rfl⟩)), rfl⟩
    · exact ⟨_, (shown _).mpr
        (.inr (.inr ⟨pads, j, _, List.getElem?_eq_getElem inside, none, rfl⟩)), rfl⟩

theorem records_pair_iff (shown : ShownBy a b matching left right rows) :
    Records rows (.pair i j) ↔ Matched a b matching i j := by
  rw [records_iff shown]
  simp [Provenance.pair, Provenance.leftOnly, Provenance.rightOnly]

theorem records_left_iff (shown : ShownBy a b matching left right rows) :
    Records rows (.leftOnly i) ↔ left = true ∧ i < a.size ∧ ∀ j, ¬ Matched a b matching i j := by
  rw [records_iff shown]
  simp [Provenance.pair, Provenance.leftOnly, Provenance.rightOnly]

theorem records_right_iff (shown : ShownBy a b matching left right rows) :
    Records rows (.rightOnly j) ↔
      right = true ∧ j < b.size ∧ ∀ i, ¬ Matched a b matching i j := by
  rw [records_iff shown]
  simp [Provenance.pair, Provenance.leftOnly, Provenance.rightOnly]

theorem shown_pair_cells (shown : ShownBy a b matching left right rows) {row pair : Row}
    (member : row ∈ rows) (isPair : IsMatch a b matching i j pair)
    (same : row.provenance = pair.provenance) : row.get? = pair.get? := by
  have origin : row.reading.2 = some (.pair i j) := by
    obtain ⟨x, y, -, -, -, rfl⟩ := isPair
    exact same
  rcases shows_cases ((shown row.reading).mp (List.mem_map_of_mem member)) with
      ⟨k, l, other, isOther, cells, here⟩ | ⟨k, -, here⟩ | ⟨l, -, here⟩
  · rw [here] at origin
    cases origin
    rw [match_unique isPair isOther]
    exact congrArg Prod.fst cells
  · rw [here] at origin
    cases origin
  · rw [here] at origin
    cases origin

theorem agrees_of_shown (shown : ShownBy a b matching left right rows) :
    AgreesWithInner a b matching left right rows where
  pairs i j := (records_pair_iff shown).trans (records_pair_iff inner_join_shown).symm
  cells row member pair inside same column := by
    obtain ⟨i, j, isPair⟩ := mem_inner_join.mp inside
    exact congrFun (shown_pair_cells shown member isPair same) column
  left_padding i := by
    simp only [records_pair_iff inner_join_shown]
    exact records_left_iff shown
  right_padding j := by
    simp only [records_pair_iff inner_join_shown]
    exact records_right_iff shown
  no_other row member := by
    rcases shows_cases ((shown row.reading).mp (List.mem_map_of_mem member)) with
        ⟨i, j, -, -, -, here⟩ | ⟨i, -, here⟩ | ⟨j, -, here⟩
    · exact ⟨_, here, .inl ⟨i, j, rfl⟩⟩
    · exact ⟨_, here, .inr (.inl ⟨i, rfl⟩)⟩
    · exact ⟨_, here, .inr (.inr ⟨j, rfl⟩)⟩

end Agreement

theorem full_join_readings_distinct {out : Table}
    (joined : fullJoin a b matching policy = .ok out) : (out.rows.map Row.reading).Nodup := by
  refine List.Nodup.of_map Prod.snd ?_
  rw [List.map_map]
  exact full_join_origins_distinct joined

/-- All kinds of join select the pairs of the inner join. The left, the right and
the full join pad the positions that are in no pair, on the left, the right or
both sides; the origins of a right join are read from the other table. A full
join with the tables exchanged shows the same rows in another order. -/
theorem join_kinds_select_same_pairs (apart : NamesApart a b) (reads : ReadsByName matching) :
    (∀ policy out, leftJoin a b matching policy = .ok out →
      AgreesWithInner a b matching true false out.rows) ∧
    (∀ policy out, rightJoin a b matching policy = .ok out →
      AgreesWithInner a b matching false true (out.rows.map Row.exchange)) ∧
    (∀ policy out, fullJoin a b matching policy = .ok out →
      AgreesWithInner a b matching true true out.rows) ∧
    (∀ policy out policy' out', fullJoin a b matching policy = .ok out →
      fullJoin b a matching policy' = .ok out' →
      ((out'.rows.map Row.exchange).map Row.reading).Perm (out.rows.map Row.reading)) := by
  refine ⟨?_, ?_, ?_, ?_⟩
  · intro policy out joined
    exact agrees_of_shown (left_join_shown joined)
  · intro policy out joined
    exact agrees_of_shown (shown_by_exchange apart reads (left_join_shown joined))
  · intro policy out joined
    exact agrees_of_shown (full_join_shown joined)
  · intro policy out policy' out' joined joined'
    have shown := shown_by_exchange apart reads (full_join_shown joined')
    have distinct : ((out'.rows.map Row.exchange).map Row.reading).Nodup := by
      rw [Row.readings_exchange]
      exact (full_join_readings_distinct joined').map Reading.exchange_exchange.injective
    refine (List.perm_ext_iff_of_nodup distinct (full_join_readings_distinct joined)).mpr ?_
    intro reading
    exact (shown reading).trans (full_join_shown joined reading).symm

theorem same_id_reads_by_name : ReadsByName sameId := by
  intro r q same
  simp only [sameId, Row.value, same]

theorem joins_of_guests_and_visits :
    NamesApart guests visits ∧ ReadsByName sameId ∧
    ∃ left right full swapped, leftJoin guests visits sameId .error = .ok left ∧
      rightJoin guests visits sameId .leftOnly = .ok right ∧
      fullJoin guests visits sameId .error = .ok full ∧
      fullJoin visits guests sameId .leftOnly = .ok swapped ∧
      Records left.rows (.leftOnly 1) ∧ ¬ Records left.rows (.rightOnly 0) ∧
      Records (right.rows.map Row.exchange) (.pair 2 1) ∧
      Records (right.rows.map Row.exchange) (.rightOnly 0) ∧
      Records full.rows (.leftOnly 1) ∧ Records full.rows (.rightOnly 0) ∧
      ((swapped.rows.map Row.exchange).map Row.reading).Perm (full.rows.map Row.reading) := by
  have apart : NamesApart guests visits := by decide
  refine ⟨apart, same_id_reads_by_name, _, _, _, _, rfl, rfl, rfl, rfl, ?_⟩
  obtain ⟨leftJoined, rightJoined, fullJoined, exchanged⟩ :=
    join_kinds_select_same_pairs apart same_id_reads_by_name
  have left := leftJoined .error _ rfl
  have right := rightJoined .leftOnly _ rfl
  have full := fullJoined .error _ rfl
  have origins : (innerJoin guests visits sameId).rows.map Row.provenance =
      [some (.pair 0 1), some (.pair 0 2), some (.pair 2 1), some (.pair 2 2)] := by decide
  have stranger (j : Nat) : ¬ Records (innerJoin guests visits sameId).rows (.pair 1 j) := by
    simp [Records, origins, Provenance.pair]
  have nobody (i : Nat) : ¬ Records (innerJoin guests visits sameId).rows (.pair i 0) := by
    simp [Records, origins, Provenance.pair]
  refine ⟨(left.left_padding 1).mpr ⟨rfl, by decide, stranger⟩, fun padded => ?_,
    (right.pairs 2 1).mpr (by decide), (right.right_padding 0).mpr ⟨rfl, by decide, nobody⟩,
    (full.left_padding 1).mpr ⟨rfl, by decide, stranger⟩,
    (full.right_padding 0).mpr ⟨rfl, by decide, nobody⟩, exchanged .error _ .leftOnly _ rfl rfl⟩
  cases ((left.right_padding 0).mp padded).1

end Table
end TableAlgebra
