import TableAlgebra.Proofs.Query.HiddenState
import TableAlgebra.Proofs.Query.JoinedRows

/-!
The cross product of three tables. It does not matter which two are joined
first: the rows come in the same order, and their cells are those of the three
rows laid over each other from left to right, since the product of two tables is
unnamed and leaves its columns as they are. Only the positions that the rows
carry tell the two ways apart.
-/
namespace TableAlgebra
namespace Table

variable {a b c : Table} {i j k : Nat} {x y z : Row}

theorem qualified_unnamed {table : Table} (unnamed : table.name = "") (row : Row) :
    table.qualifiedCells row = row.cells.toList := by
  have bare : table.qualify = id := by
    funext column
    rw [qualify, if_pos unnamed]
    rfl
  rw [qualifiedCells, bare]
  exact List.map_id _

theorem cross_join_cells (a b : Table) :
    (crossJoin a b).rows.map Row.cells = a.rows.flatMap fun x => b.rows.map fun y =>
      (Entries.ofList (a.qualifiedCells x)).insertAll (b.qualifiedCells y) := by
  have right (x : Row) : (b.rows.map fun y =>
        (Entries.ofList (a.qualifiedCells x)).insertAll (b.qualifiedCells y)) =
      b.rows.zipIdx.map fun entry =>
        (Entries.ofList (a.qualifiedCells x)).insertAll (b.qualifiedCells entry.1) := by
    conv_lhs => rw [← List.zipIdx_map_fst 0 b.rows, List.map_map]
    rfl
  simp only [right]
  conv_rhs => rw [← List.zipIdx_map_fst 0 a.rows, List.flatMap_map]
  simp only [crossJoin, List.map_flatMap, List.map_map]
  rfl

theorem cross_join_size (a b : Table) : (crossJoin a b).size = a.size * b.size := by
  have cells : (crossJoin a b).size = ((crossJoin a b).rows.map Row.cells).length := by
    rw [List.length_map]
    rfl
  rw [cells, cross_join_cells, List.length_flatMap]
  simp [size]

theorem cross_join_at (placeX : a.rows[i]? = some x) (placeY : b.rows[j]? = some y) :
    (crossJoin a b).rows[i * b.size + j]? = some (pairRow a b i j x y) := by
  have inside : j < b.size := (List.getElem?_eq_some_iff.mp placeY).1
  have each (entry : Row × Nat) : (pairsOf a b entry.2 entry.1).length = b.size := by
    rw [pairsOf, List.length_map, List.length_zipIdx]
    rfl
  have placed : a.rows.zipIdx[i]? = some (x, i) := by simp [placeX]
  have found : (crossJoin a b).rows[i * b.size + j]? = (pairsOf a b i x)[j]? :=
    place_in_blocks each placed inside
  rw [found, pairsOf]
  simp [placeY]

section Three

/-- The cells of three rows laid over each other. -/
def tripleCells (a b c : Table) (x y z : Row) : Entries Value :=
  Entries.ofList (a.qualifiedCells x ++ b.qualifiedCells y ++ c.qualifiedCells z)

theorem triple_cells_eq (a b c : Table) (x y z : Row) : tripleCells a b c x y z =
    ((Entries.ofList (a.qualifiedCells x)).insertAll (b.qualifiedCells y)).insertAll
      (c.qualifiedCells z) := by
  rw [tripleCells, Entries.ofList, Entries.insertAll_append, Entries.insertAll_append]
  rfl

theorem names_triple (a b c : Table) (x y z : Row) :
    (tripleCells a b c x y z).names =
      (x.columns.map a.qualify ++ y.columns.map b.qualify ++ z.columns.map c.qualify).eraseDups := by
  rw [tripleCells, Entries.names_ofList, List.map_append, List.map_append, names_qualified,
    names_qualified, names_qualified]

theorem get?_triple (a b c : Table) (x y z : Row) (name : String) :
    (tripleCells a b c x y z).get? name =
      ((c.qualifiedCells z).lookup name).or
        (((b.qualifiedCells y).lookup name).or ((a.qualifiedCells x).lookup name)) := by
  rw [triple_cells_eq, Entries.get?_insertAll, lookup_reverse (c.qualified_distinct z),
    Entries.get?_overlay (a.qualified_distinct x) (b.qualified_distinct y)]

def tripleRow (a b c : Table) (origin : Provenance) (x y z : Row) : Row where
  cells := tripleCells a b c x y z
  provenance := some origin
  members := none

theorem over_pair (base : Entries Value) (b c : Table) (y z : Row) :
    base.insertAll ((Entries.ofList (b.qualifiedCells y)).insertAll (c.qualifiedCells z)).toList =
      (base.insertAll (b.qualifiedCells y)).insertAll (c.qualifiedCells z) := by
  rw [Entries.insertAll_assoc, Entries.toList_ofList (b.qualified_distinct y)]

theorem pair_of_left_pair (a b c : Table) (i j k n : Nat) (x y z : Row) :
    pairRow (crossJoin a b) c n k (pairRow a b i j x y) z =
      tripleRow a b c (.pair n k) x y z := by
  have bare : (crossJoin a b).qualifiedCells (pairRow a b i j x y) =
      (pairRow a b i j x y).cells.toList := qualified_unnamed rfl _
  rw [pairRow, tripleRow, bare, Entries.ofList_toList, triple_cells_eq]
  rfl

theorem pair_of_right_pair (a b c : Table) (i j k n : Nat) (x y z : Row) :
    pairRow a (crossJoin b c) i n x (pairRow b c j k y z) =
      tripleRow a b c (.pair i n) x y z := by
  have bare : (crossJoin b c).qualifiedCells (pairRow b c j k y z) =
      (pairRow b c j k y z).cells.toList := qualified_unnamed rfl _
  rw [pairRow, tripleRow, bare, triple_cells_eq]
  simp only [pairRow, over_pair]

theorem left_product_at (placeX : a.rows[i]? = some x) (placeY : b.rows[j]? = some y)
    (placeZ : c.rows[k]? = some z) :
    (crossJoin (crossJoin a b) c).rows[(i * b.size + j) * c.size + k]? =
      some (tripleRow a b c (.pair (i * b.size + j) k) x y z) := by
  rw [cross_join_at (cross_join_at placeX placeY) placeZ, pair_of_left_pair]

theorem right_product_at (placeX : a.rows[i]? = some x) (placeY : b.rows[j]? = some y)
    (placeZ : c.rows[k]? = some z) :
    (crossJoin a (crossJoin b c)).rows[(i * b.size + j) * c.size + k]? =
      some (tripleRow a b c (.pair i (j * c.size + k)) x y z) := by
  have place : (i * b.size + j) * c.size + k =
      i * (crossJoin b c).size + (j * c.size + k) := by
    rw [cross_join_size, Nat.add_mul, Nat.mul_assoc, Nat.add_assoc]
  rw [place, cross_join_at placeX (cross_join_at placeY placeZ), pair_of_right_pair]

theorem products_same_cells (a b c : Table) :
    SameCells (crossJoin (crossJoin a b) c) (crossJoin a (crossJoin b c)) := by
  refine ⟨rfl, ?_⟩
  -- the row of a pair matters by its cells alone
  have bare (a b : Table) (row : Row) :
      (crossJoin a b).qualifiedCells row = row.cells.toList := qualified_unnamed rfl row
  have left : (crossJoin (crossJoin a b) c).rows.map Row.cells =
      ((crossJoin a b).rows.map Row.cells).flatMap fun cells => c.rows.map fun z =>
        cells.insertAll (c.qualifiedCells z) := by
    simp only [cross_join_cells (crossJoin a b) c, bare, Entries.ofList_toList, List.flatMap_map]
  have right : (crossJoin a (crossJoin b c)).rows.map Row.cells = a.rows.flatMap fun x =>
      ((crossJoin b c).rows.map Row.cells).map fun cells =>
        (Entries.ofList (a.qualifiedCells x)).insertAll cells.toList := by
    simp only [cross_join_cells a (crossJoin b c), bare, List.map_map]
    rfl
  rw [left, right, cross_join_cells, cross_join_cells]
  simp only [List.flatMap_assoc, List.flatMap_map, List.map_flatMap, List.map_map,
    Function.comp_def, over_pair]

/-- The cross product is associative up to the positions that its rows carry.
Both ways give one row for every three rows, the last table varying fastest, with
the same cells: those of the three rows laid over each other, so that a name
stands where it first occurs and has the value of the last row that has it. -/
theorem cross_join_assoc (a b c : Table) :
    SameCells (crossJoin (crossJoin a b) c) (crossJoin a (crossJoin b c)) ∧
    (crossJoin (crossJoin a b) c).name = "" ∧ (crossJoin a (crossJoin b c)).name = "" ∧
    (crossJoin (crossJoin a b) c).size = a.size * b.size * c.size ∧
    (crossJoin a (crossJoin b c)).size = a.size * b.size * c.size ∧
    (∀ i j k x y z, a.rows[i]? = some x → b.rows[j]? = some y → c.rows[k]? = some z →
      (crossJoin (crossJoin a b) c).rows[(i * b.size + j) * c.size + k]? =
        some (tripleRow a b c (.pair (i * b.size + j) k) x y z) ∧
      (crossJoin a (crossJoin b c)).rows[(i * b.size + j) * c.size + k]? =
        some (tripleRow a b c (.pair i (j * c.size + k)) x y z)) ∧
    ∀ origin x y z,
      (tripleRow a b c origin x y z).columns = (x.columns.map a.qualify ++
        y.columns.map b.qualify ++ z.columns.map c.qualify).eraseDups ∧
      ∀ name, (tripleRow a b c origin x y z).get? name =
        ((c.qualifiedCells z).lookup name).or
          (((b.qualifiedCells y).lookup name).or ((a.qualifiedCells x).lookup name)) := by
  refine ⟨products_same_cells a b c, rfl, rfl, ?_, ?_, ?_, ?_⟩
  · rw [cross_join_size, cross_join_size]
  · rw [cross_join_size, cross_join_size, Nat.mul_assoc]
  · intro i j k x y z placeX placeY placeZ
    exact ⟨left_product_at placeX placeY placeZ, right_product_at placeX placeY placeZ⟩
  · intro origin x y z
    exact ⟨names_triple a b c x y z, get?_triple a b c x y z⟩

def frontRow : Row := .ofCells (.ofList [("x", .int 1), ("y", .int 2)])

def oneColumn (name : String) (number : Int64) : Row := .ofCells (.ofList [(name, .int number)])

def front : Table := ⟨"t", [frontRow]⟩

def middle : Table := ⟨"", [oneColumn "t.z" 3, oneColumn "t.x" 4]⟩

def back : Table := ⟨"t", [oneColumn "y" 5, oneColumn "x" 6]⟩

theorem cross_join_of_colliding_names :
    front.rows[0]? = some frontRow ∧ middle.rows[1]? = some (oneColumn "t.x" 4) ∧
    back.rows[1]? = some (oneColumn "x" 6) ∧
    ∃ row row', (crossJoin (crossJoin front middle) back).rows[3]? = some row ∧
      (crossJoin front (crossJoin middle back)).rows[3]? = some row' ∧
      row.provenance = some (.pair 1 1) ∧ row'.provenance = some (.pair 0 3) ∧
      row.cells = row'.cells ∧ row.columns = ["t.x", "t.y"] ∧
      (row.get? "t.x").map Value.display = some "6" := by
  obtain ⟨-, -, -, -, -, placed, read⟩ := cross_join_assoc front middle back
  obtain ⟨left, right⟩ := placed 0 1 1 frontRow (oneColumn "t.x" 4) (oneColumn "x" 6) rfl rfl rfl
  refine ⟨rfl, rfl, rfl, _, _, left, right, rfl, rfl, rfl, ?_, ?_⟩
  · rw [(read _ _ _ _).1]
    decide
  · rw [(read _ _ _ _).2]
    decide

end Three

end Table
end TableAlgebra
