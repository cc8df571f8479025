import TableAlgebra.Query.Error
import TableAlgebra.Query.Select
import TableAlgebra.Settings

/-!
Joins. Every join starts from the cross product, whose rows carry the positions
of the pair they were made from. An outer join finds the rows without a match
by these positions and never by values, and pads each of them with nulls in the
columns of the other table's first row.
-/
namespace TableAlgebra

inductive JoinKind where
  | cross
  | inner
  | left
  | right
  | full
deriving DecidableEq, Repr

namespace JoinKind

def operation : JoinKind → String
  | cross => "cross_join"
  | inner => "inner_join"
  | left => "left_join"
  | right => "right_join"
  | full => "full_join"

def choice : JoinKind → String
  | cross => "Cross"
  | inner => "Inner"
  | left => "Left"
  | right => "Right"
  | full => "Full"

def ofDocument? (d : Document) : Option JoinKind :=
  match d.choice? with
  | some "Cross" => some cross
  | some "Inner" => some inner
  | some "Left" => some left
  | some "Right" => some right
  | some "Full" => some full
  | _ => none

end JoinKind

namespace Table

def qualifiedCells (table : Table) (row : Row) : List (String × Value) :=
  row.cells.toList.map fun (column, value) => (table.qualify column, value)

/-- The pair of a left and a right row: the left cells, then the right ones,
which win where the names collide. -/
def pairRow (a b : Table) (i j : Nat) (x y : Row) : Row where
  cells := (Entries.ofList (a.qualifiedCells x)).insertAll (b.qualifiedCells y)
  provenance := some (.pair i j)
  members := none

def crossJoin (a b : Table) : Table where
  name := ""
  rows := a.rows.zipIdx.flatMap fun (x, i) =>
    b.rows.zipIdx.map fun (y, j) => pairRow a b i j x y

def innerJoin (a b : Table) (matching : Predicate) : Table := (crossJoin a b).filter matching

/-- Nulls for the columns of the first row, under their qualified names. An
empty table has no columns to pad with. -/
def paddingCells (table : Table) (policy : PaddingPolicy) :
    Except QueryError (List (String × Value)) :=
  match table.firstRowColumns?, policy with
  | some columns, _ => .ok (columns.map fun column => (table.qualify column, .null))
  | none, .leftOnly => .ok []
  | none, .error => .error (.emptyPadding table.name)

def leftPaddingRow (a b : Table) (policy : PaddingPolicy) (i : Nat) (x : Row) :
    Except QueryError Row := do
  let padding ← b.paddingCells policy
  return {
    cells := (Entries.ofList (a.qualifiedCells x)).insertAll padding
    provenance := some (.leftOnly i)
    members := none }

def rightPaddingRow (a b : Table) (policy : PaddingPolicy) (j : Nat) (y : Row) :
    Except QueryError Row := do
  let padding ← a.paddingCells policy
  return {
    cells := (Entries.ofList padding).insertAll (b.qualifiedCells y)
    provenance := some (.rightOnly j)
    members := none }

def leftOrigin? (row : Row) : Option Nat := row.provenance.bind (·.left)

def rightOrigin? (row : Row) : Option Nat := row.provenance.bind (·.right)

/-- Adds a row that satisfies the predicate to the bucket of its left row. A row
without a left row, or with one that has no bucket, is passed over. -/
def bucketRow (matching : Predicate) (buckets : List (List Row)) (row : Row) : List (List Row) :=
  match leftOrigin? row with
  | none => buckets
  | some i => if matching row then buckets.modify i (· ++ [row]) else buckets

def scatter (count : Nat) (matching : Predicate) (rows : List Row) : List (List Row) :=
  rows.foldl (bucketRow matching) (List.replicate count [])

def leftRows (a b : Table) (policy : PaddingPolicy) (i : Nat) (x : Row) (found : List Row) :
    Except QueryError (List Row) :=
  match found with
  | [] => do return [← leftPaddingRow a b policy i x]
  | found => .ok found

def leftJoin (a b : Table) (matching : Predicate) (policy : PaddingPolicy) :
    Except QueryError Table := do
  let buckets := scatter a.size matching (crossJoin a b).rows
  let blocks ← (a.rows.zipIdx.zip buckets).mapM fun ((x, i), found) =>
    leftRows a b policy i x found
  return ⟨"", blocks.flatten⟩

def rightJoin (a b : Table) (matching : Predicate) (policy : PaddingPolicy) :
    Except QueryError Table :=
  leftJoin b a matching policy

def markRight (seen : List Bool) (row : Row) : List Bool :=
  match rightOrigin? row with
  | none => seen
  | some j => seen.set j true

def rightsSeen (count : Nat) (rows : List Row) : List Bool :=
  rows.foldl markRight (List.replicate count false)

/-- The left join, and behind it one padding row for every right row that is in
none of its pairs. -/
def fullJoin (a b : Table) (matching : Predicate) (policy : PaddingPolicy) :
    Except QueryError Table := do
  let left ← leftJoin a b matching policy
  let seen := rightsSeen b.size left.rows
  let unmatched := b.rows.zipIdx.filter fun (_, j) => !seen.getD j false
  let padded ← unmatched.mapM fun (y, j) => rightPaddingRow a b policy j y
  return ⟨"", left.rows ++ padded⟩

def join (kind : JoinKind) (a b : Table) (matching : Predicate) (policy : PaddingPolicy) :
    Except QueryError Table :=
  match kind with
  | .cross => .ok (crossJoin a b)
  | .inner => .ok (innerJoin a b matching)
  | .left => leftJoin a b matching policy
  | .right => rightJoin a b matching policy
  | .full => fullJoin a b matching policy

end Table
end TableAlgebra
