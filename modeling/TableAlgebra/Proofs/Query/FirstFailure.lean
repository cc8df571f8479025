import TableAlgebra.Proofs.Query.Annotation
import TableAlgebra.Proofs.Query.Errors

namespace TableAlgebra

def QueryError.of (f : Aggregate) : QueryError → QueryError
  | emptyGroup _ column => emptyGroup f column
  | notGrouped _ column row => notGrouped f column row
  | nonNumeric _ column kind display => nonNumeric f column kind display
  | incomparable _ column left right => incomparable f column left right
  | emptyPadding table => emptyPadding table

namespace Aggregate

inductive FailsAt (f : Aggregate) (column : String) (i : Nat) (row : Row) : QueryError → Prop where
  | notGrouped (bare : row.members = none) : FailsAt f column i row (.notGrouped f column i)
  | values {members : List Row} {e : QueryError} (grouped : row.members = some members)
      (fails : FailsOn f column (members.map (·.value column)) e) : FailsAt f column i row e

variable {f g : Aggregate} {column : String} {values : List Value} {e : QueryError}

theorem of_row_error_iff {i : Nat} {row : Row} :
    f.ofRow column i row = .error e ↔ FailsAt f column i row e := by
  rw [ofRow]
  cases grouped : row.members with
  | none =>
    constructor
    · intro failed
      cases failed
      exact .notGrouped grouped
    · rintro (bare | ⟨some_members, -⟩)
      · rfl
      · rw [grouped] at some_members
        cases some_members
  | some members =>
    constructor
    · exact fun failed => .values grouped (compute_error_iff.mp failed)
    · rintro (bare | ⟨some_members, fails⟩)
      · rw [grouped] at bare
        cases bare
      · rw [grouped] at some_members
        cases some_members
        exact compute_error_iff.mpr fails

section Directions

variable (compares : f = max ∨ f = min) (compares' : g = max ∨ g = min)
include compares compares'

theorem fails_on_of_other (fails : FailsOn f column values e) :
    FailsOn g column values (e.of g) := by
  cases fails with
  | nonNumeric adds => rcases compares with rfl | rfl <;> simp at adds
  | incomparable _ split same other => exact .incomparable compares' split same other
  | empty _ none => exact .empty (.inr compares') none

theorem fails_at_of_other {i : Nat} {row : Row} (fails : FailsAt f column i row e) :
    FailsAt g column i row (e.of g) := by
  cases fails with
  | notGrouped bare => exact .notGrouped bare
  | values grouped fails => exact .values grouped (fails_on_of_other compares compares' fails)

end Directions

end Aggregate

namespace Table

open InPlace (annotate)

variable {table : Table} {f g : Aggregate} {column : String} {e : QueryError}

/-- A row fails by itself, and none before it does. -/
def FirstFails (table : Table) (f : Aggregate) (column : String) (e : QueryError) : Prop :=
  ∃ i row, table.rows[i]? = some row ∧ f.FailsAt column i row e ∧
    ∀ k < i, ∀ other, table.rows[k]? = some other → ∀ e', ¬ f.FailsAt column k other e'

theorem aggregate_error_iff :
    table.aggregate f column = .error e ↔ table.FirstFails f column e := by
  have passes {k : Nat} {row : Row} :
      (∃ v, f.ofRow column k row = .ok v) ↔ ∀ e', ¬ f.FailsAt column k row e' := by
    simp only [← Aggregate.of_row_error_iff]
    cases f.ofRow column k row <;> simp
  rw [aggregate, bind_pure_eq_error_iff, mapM_positions_error_iff]
  simp only [Aggregate.of_row_error_iff, passes]
  rfl

theorem annotate_fails_iff :
    ((annotate f column).on table).1 = .error e ↔ table.FirstFails f column e := by
  rw [← aggregate_error_iff, InPlace.on_annotate]
  cases table.aggregate f column <;> simp

theorem some_row_fails_iff : (∃ e, table.FirstFails f column e) ↔
    ∃ i row e, table.rows[i]? = some row ∧ f.FailsAt column i row e := by
  constructor
  · rintro ⟨e, i, row, place, fails, -⟩
    exact ⟨i, row, e, place, fails⟩
  · rintro ⟨i, row, e, place, fails⟩
    simp only [← aggregate_error_iff]
    cases outcome : table.aggregate f column with
    | error found => exact ⟨found, rfl⟩
    | ok out =>
      obtain ⟨computed, -⟩ := (@aggregate_ok_iff _ _ (f, column)).mp outcome
      have has := computed row (List.mem_of_getElem? place) _ (List.mem_singleton_self _)
      obtain ⟨v, found⟩ := Option.isSome_iff_exists.mp has
      have given : f.ofRow column i row = .ok v := (@Row.of_row_ok_iff _ (f, column) _ i).mpr found
      rw [Aggregate.of_row_error_iff.mpr fails] at given
      cases given

theorem first_fails_of_other (compares : f = .max ∨ f = .min) (compares' : g = .max ∨ g = .min)
    (fails : table.FirstFails f column e) : table.FirstFails g column (e.of g) := by
  obtain ⟨i, row, place, here, before⟩ := fails
  refine ⟨i, row, place, Aggregate.fails_at_of_other compares compares' here, ?_⟩
  intro k earlier other placed e' fails
  exact before k earlier other placed _ (Aggregate.fails_at_of_other compares' compares fails)

/-- An aggregate of a column fails as soon as some row fails by itself, and with the
error of the first such row. MIN and MAX fail on the same tables, and their errors
differ in the name of the aggregate alone. -/
theorem annotate_fails_at_first_row (table : Table) (f : Aggregate) (column : String) :
    (∀ e, ((annotate f column).on table).1 = .error e ↔ table.FirstFails f column e) ∧
    ((∃ e, ((annotate f column).on table).1 = .error e) ↔
      ∃ i row e, table.rows[i]? = some row ∧ f.FailsAt column i row e) ∧
    (∀ e, ((annotate .max column).on table).1 = .error e →
      ((annotate .min column).on table).1 = .error (e.of .min)) ∧
    ∀ e, ((annotate .min column).on table).1 = .error e →
      ((annotate .max column).on table).1 = .error (e.of .max) := by
  refine ⟨fun e => annotate_fails_iff, ?_, fun e failed => ?_, fun e failed => ?_⟩
  · simp only [annotate_fails_iff, some_row_fails_iff]
  · rw [annotate_fails_iff] at failed ⊢
    exact first_fails_of_other (.inl rfl) (.inr rfl) failed
  · rw [annotate_fails_iff] at failed ⊢
    exact first_fails_of_other (.inr rfl) (.inl rfl) failed

def score (points : Value) : Row := .ofCells (.ofList [("points", points)])

def scoresByTeam : Table :=
  ⟨"scores", [⟨.empty, none, some [score (.int 4), .empty]⟩,
    ⟨.empty, none, some [score .null, score (.int 1), score (.float .zero), score (.str "a"),
      score (.bool true)]⟩,
    ⟨.empty, none, none⟩]⟩

/-- The minimum fails on the numbers and the text of the second team, so the maximum
does. A count passes it and fails on the third. -/
theorem extremes_of_scores :
    ((annotate .min "points").on scoresByTeam).1 =
      .error (.incomparable .min "points" .number .string) ∧
    ((annotate .max "points").on scoresByTeam).1 =
      .error (.incomparable .max "points" .number .string) ∧
    scoresByTeam.FirstFails .count "points" (.notGrouped .count "points" 2) := by
  obtain ⟨first, -, -, turned⟩ := annotate_fails_at_first_row scoresByTeam .count "points"
  have least : ((annotate .min "points").on scoresByTeam).1 =
      .error (.incomparable .min "points" .number .string) := by decide +kernel
  exact ⟨least, turned _ least, (first _).mp rfl⟩

end Table
end TableAlgebra
