import Mathlib.Algebra.Ring.Int.Defs
import Mathlib.Data.List.Infix
import TableAlgebra.Proofs.Query.Errors
import TableAlgebra.Proofs.Value.Preorder

/-!
The sum that SUM finds. While there are only integers and no sum of the first few
of them leaves the range of words, the running total is the mathematical sum. The
first value that ends this, wherever it stands, makes the total so far worthless:
all values are then added up anew as binary64 numbers, from the first one on.
-/
namespace TableAlgebra

def IsWord (n : Int) : Prop := -0x8000000000000000 ≤ n ∧ n < 0x8000000000000000

instance (n : Int) : Decidable (IsWord n) := inferInstanceAs (Decidable (_ ∧ _))

theorem is_word_of_word (w : Int64) : IsWord w.toInt := ⟨w.le_toInt, w.toInt_lt⟩

theorem word_exists {n : Int} (fits : IsWord n) : ∃ w : Int64, w.toInt = n :=
  ⟨Int64.ofInt n, Int64.toInt_ofInt_of_le fits.1 fits.2⟩

namespace Aggregate

/-- The values that the members have in a column, in their order. A null is no
value, and neither is a missing cell. -/
def foundIn (column : String) (members : List Row) : List Value :=
  members.filterMap fun row => (row.get? column).filter (!·.isNull)

theorem present_of_members (column : String) (members : List Row) :
    present (members.map (·.value column)) = foundIn column members := by
  induction members with
  | nil => rfl
  | cons row rest ih =>
    rw [present] at ih
    rw [present, foundIn, List.map_cons, List.filterMap_cons, Row.value]
    cases row.get? column with
    | none => exact ih
    | some v =>
      rw [Option.filter_some, Option.getD_some, List.filter_cons, ih]
      cases v.isNull <;> rfl

def exactSum (ints : List Int64) : Int := (ints.map Int64.toInt).sum

/-- No sum of the first few integers leaves the range of words. -/
def StaysInRange (ints : List Int64) : Prop := ∀ front ∈ ints.inits, IsWord (exactSum front)

instance (ints : List Int64) : Decidable (StaysInRange ints) :=
  inferInstanceAs (Decidable (∀ front ∈ ints.inits, IsWord (exactSum front)))

section Exact

variable {start : Int} {total out i : Int64} {values rest : List Value} {ints : List Int64}

theorem exact_sum_cons (start : Int) (i : Int64) (ints : List Int64) :
    start + exactSum (i :: ints) = (start + i.toInt) + exactSum ints := by
  rw [exactSum, List.map_cons, List.sum_cons, ← Int.add_assoc]
  rfl

theorem sums_in_range_cons :
    (∀ front ∈ (i :: ints).inits, IsWord (start + exactSum front)) ↔
      IsWord start ∧ ∀ front ∈ ints.inits, IsWord (start + i.toInt + exactSum front) := by
  have none : start + exactSum [] = start := Int.add_zero start
  simp only [List.inits_cons, List.forall_mem_cons, List.forall_mem_map, none, exact_sum_cons]

theorem int_sum_cons : intSum? total (.int i :: rest) = some out ↔
    ∃ next : Int64, next.toInt = total.toInt + i.toInt ∧ intSum? next rest = some out := by
  rw [intSum?]
  constructor
  · intro done
    split at done
    · rename_i next found
      exact ⟨next, toInt_of_int64? found, done⟩
    · cases done
  · rintro ⟨next, value, done⟩
    rw [← value, int64?_toInt]
    exact done

theorem int_sum_eq_some_iff : intSum? total values = some out ↔
    ∃ ints, values = ints.map .int ∧
      (∀ front ∈ ints.inits, IsWord (total.toInt + exactSum front)) ∧
      out.toInt = total.toInt + exactSum ints := by
  induction values generalizing total with
  | nil =>
    constructor
    · intro done
      cases done
      exact ⟨[], rfl, by simpa [exactSum] using is_word_of_word _, (Int.add_zero _).symm⟩
    · rintro ⟨ints, split, -, value⟩
      rw [List.map_eq_nil_iff.mp split.symm] at value
      exact congrArg some (Int64.toInt_inj.mp (value.trans (Int.add_zero _)).symm)
  | cons v rest ih =>
    constructor
    · intro done
      cases v with
      | int i =>
        obtain ⟨next, value, done⟩ := int_sum_cons.mp done
        obtain ⟨ints, rfl, fits, sum⟩ := ih.mp done
        rw [value] at fits sum
        refine ⟨i :: ints, rfl, sums_in_range_cons.mpr ⟨is_word_of_word total, fits⟩, ?_⟩
        rw [exact_sum_cons, sum]
      | _ => cases done
    · rintro ⟨ints, split, fits, sum⟩
      cases ints with
      | nil => cases split
      | cons i ints =>
        cases split
        have later := (sums_in_range_cons.mp fits).2
        -- the empty front asks that the next total is a word
        obtain ⟨next, value⟩ := word_exists (later [] ((List.mem_inits _ _).mpr List.nil_prefix))
        rw [exactSum, List.map_nil, List.sum_nil, Int.add_zero] at value
        rw [exact_sum_cons, ← value] at sum
        rw [← value] at later
        exact int_sum_cons.mpr ⟨next, value, ih.mpr ⟨ints, rfl, later, sum⟩⟩

theorem sum_of_eq_int_iff : sumOf values = .int total ↔
    ∃ ints, values = ints.map .int ∧ StaysInRange ints ∧ total.toInt = exactSum ints := by
  have whole : sumOf values = .int total ↔ intSum? 0 values = some total := by
    rw [sumOf]
    cases intSum? 0 values <;> simp
  rw [whole, int_sum_eq_some_iff, Int64.toInt_zero]
  simp only [Int.zero_add]
  rfl

theorem sum_of_eq_float (broken : ¬ ∃ ints, values = ints.map .int ∧ StaysInRange ints) :
    sumOf values = .float (realSum values) := by
  cases reached : intSum? 0 values with
  | none => rw [sumOf, reached]
  | some total =>
    have whole : sumOf values = .int total := by rw [sumOf, reached]
    obtain ⟨ints, split, fits, -⟩ := sum_of_eq_int_iff.mp whole
    exact absurd ⟨ints, split, fits⟩ broken

end Exact

section Sum

variable {values : List Value}

theorem reals_of_numbers (numbers : ∀ v ∈ values, v.kind = .number) :
    values.map Value.toReal? = (values.filterMap Value.toReal?).map some := by
  induction values with
  | nil => rfl
  | cons v rest ih =>
    obtain ⟨here, later⟩ := List.forall_mem_cons.mp numbers
    obtain ⟨x, real⟩ := Value.real_of_number here
    rw [List.map_cons, List.filterMap_cons_some real, List.map_cons, real, ih later]

theorem numbers_of_present {f : Aggregate} {column : String}
    (numbers : ∀ v ∈ present values, v.kind = .number) (some_value : present values ≠ []) :
    f.numbers column values = .ok (present values) := by
  have none_other : (present values).find? (!·.isNumber) = none := by
    simpa [List.find?_eq_none, Value.isNumber] using numbers
  rw [Aggregate.numbers, none_other]
  simp [some_value]

/-- SUM over a group that has values in the column, all of them numbers. The result
is an integer exactly when there are only integers and no sum of the first few
leaves the range of words, and it is then the mathematical sum. Otherwise it is the
sum of all values as binary64 numbers, from minus zero and the first value on.
Nulls and missing cells leave no trace in it. -/
theorem sum_is_exact_or_real (column : String) (members : List Row)
    (numbers : ∀ v ∈ foundIn column members, v.kind = .number)
    (some_value : foundIn column members ≠ []) :
    ((∃ total, sum.compute column (members.map (·.value column)) = .ok (.int total)) ↔
      ∃ ints, foundIn column members = ints.map .int ∧ StaysInRange ints) ∧
    (∀ total ints, sum.compute column (members.map (·.value column)) = .ok (.int total) →
      foundIn column members = ints.map .int → total.toInt = exactSum ints) ∧
    ((¬ ∃ ints, foundIn column members = ints.map .int ∧ StaysInRange ints) →
      ∃ reals : List Binary64, (foundIn column members).map Value.toReal? = reals.map some ∧
        sum.compute column (members.map (·.value column)) =
          .ok (.float (reals.foldl (· + ·) .negativeZero))) ∧
    ∀ others, foundIn column others = foundIn column members →
      sum.compute column (others.map (·.value column)) =
        sum.compute column (members.map (·.value column)) := by
  have computed (rows : List Row) (same : foundIn column rows = foundIn column members) :
      sum.compute column (rows.map (·.value column)) = .ok (sumOf (foundIn column members)) := by
    rw [compute, numbers_of_present] <;> rw [present_of_members, same]
    · rfl
    · exact numbers
    · exact some_value
  rw [computed members rfl]
  simp only [Except.ok.injEq, sum_of_eq_int_iff]
  refine ⟨?_, ?_, ?_, computed⟩
  · constructor
    · rintro ⟨total, ints, split, fits, -⟩
      exact ⟨ints, split, fits⟩
    · rintro ⟨ints, split, fits⟩
      obtain ⟨total, value⟩ := word_exists (fits ints ((List.mem_inits _ _).mpr List.prefix_rfl))
      exact ⟨total, ints, split, fits, value⟩
  · rintro total ints ⟨others, split, -, value⟩ split'
    have same : others = ints :=
      List.map_injective_iff.mpr (fun _ _ => Value.int.inj) (split.symm.trans split')
    rw [value, same]
  · intro broken
    exact ⟨_, reals_of_numbers numbers, sum_of_eq_float broken⟩

example :
    StaysInRange [9223372036854775807, -1, 1] ∧ ¬ StaysInRange [9223372036854775807, 1, -1] := by
  decide

def posting (cells : List (String × Value)) : Row := .ofCells (.ofList cells)

/-- The units come to the greatest word. The last amount is a binary64 number, so
they are rounded from the first one on, and the two ones are lost. -/
def postings : List Row :=
  [posting [("units", .int 9223372036854775807), ("amount", .int 9007199254740992)],
    posting [("units", .null), ("amount", .int 1)], posting [("units", .int (-1))],
    posting [("amount", .int 1), ("units", .int 1)], posting [("amount", .float .zero)]]

theorem sums_of_postings :
    sum.compute "units" (postings.map (·.value "units")) = .ok (.int 9223372036854775807) ∧
    foundIn "units" postings = [9223372036854775807, -1, 1].map .int ∧
    StaysInRange [9223372036854775807, -1, 1] ∧
    foundIn "amount" postings =
      [.int 9007199254740992, .int 1, .int 1, .float .zero] ∧
    sum.compute "amount" (postings.map (·.value "amount")) =
      .ok (.float ⟨0x4340000000000000⟩) := by
  have units : foundIn "units" postings = [9223372036854775807, -1, 1].map .int := rfl
  have amounts : foundIn "amount" postings =
      [.int 9007199254740992, .int 1, .int 1, .float .zero] := rfl
  have fits : StaysInRange [9223372036854775807, -1, 1] := by decide
  have broken : ¬ ∃ ints, foundIn "amount" postings = ints.map .int ∧ StaysInRange ints := by
    rintro ⟨ints, split, -⟩
    have last : Value.float .zero ∈ ints.map Value.int := by
      rw [← split, amounts]
      simp
    simp at last
  obtain ⟨whole, exact, -⟩ :=
    sum_is_exact_or_real "units" postings (by rw [units]; decide) (by simp [units])
  obtain ⟨-, -, real, -⟩ :=
    sum_is_exact_or_real "amount" postings (by rw [amounts]; decide) (by simp [amounts])
  obtain ⟨total, done⟩ := whole.mpr ⟨_, units, fits⟩
  have greatest : total = 9223372036854775807 := Int64.toInt_inj.mp (exact _ _ done units)
  obtain ⟨reals, listed, rounded⟩ := real broken
  have added : reals = [.ofInt 9007199254740992, .ofInt 1, .ofInt 1, .zero] :=
    List.map_injective_iff.mpr (fun _ _ => Option.some.inj) (listed.symm.trans rfl)
  have value : reals.foldl (· + ·) .negativeZero = (⟨0x4340000000000000⟩ : Binary64) := by
    rw [added]
    decide +kernel
  refine ⟨greatest ▸ done, units, fits, amounts, ?_⟩
  rw [rounded, value]

end Sum

end Aggregate
end TableAlgebra
