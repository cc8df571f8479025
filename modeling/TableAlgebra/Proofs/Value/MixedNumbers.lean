import TableAlgebra.Proofs.Number.ExactValue
import TableAlgebra.Proofs.Value.Preorder

namespace TableAlgebra

/-- The answer of a comparison is right as far as it goes: a difference that it
sees is there, and one that it misses has an excuse. -/
structure SeesDifference (answer : Ordering) (left right : Extended) (excused : Prop) : Prop where
  less : answer = .lt → left < right
  greater : answer = .gt → right < left
  level : answer = .eq → left ≠ right → excused

theorem SeesDifference.swap {answer : Ordering} {left right : Extended} {excused : Prop}
    (sees : SeesDifference answer left right excused) :
    SeesDifference answer.swap right left excused := by
  constructor
  · intro less
    exact sees.greater (Ordering.swap_eq_lt.mp less)
  · intro greater
    exact sees.less (Ordering.swap_eq_gt.mp greater)
  · intro level differ
    exact sees.level (Ordering.swap_eq_eq.mp level) differ.symm

namespace Value

variable {x : Binary64}

theorem int_equals_float_iff (i : Int64) (x : Binary64) :
    (int i == float x) = true ↔ x.exactInt? = some i := by
  have test : (int i == float x) = (x.exactInt? == some i) := rfl
  rw [test, beq_iff_eq]

theorem equality_is_exact (number : x.isNaN = false) (i : Int64) :
    (int i == float x) = true ↔ x.value = whole i.toInt := by
  rw [int_equals_float_iff, Binary64.exact_int_eq_some_iff, Binary64.value_eq_whole_iff number]

theorem rounded_order (number : x.isNaN = false) (i : Int64) :
    (int i).order (float x) = compare (Binary64.ofInt i.toInt).units x.units := by
  rw [order, Binary64.order, Binary64.of_int_not_nan, number]

theorem order_sees_difference (number : x.isNaN = false) (i : Int64) :
    SeesDifference ((int i).order (float x)) (whole i.toInt) x.value
      (0x20000000000000 < i.toInt.natAbs) := by
  obtain ⟨up, down⟩ := Binary64.integer_rounded_beside number i.toInt
  obtain ⟨above, below⟩ := Binary64.word_beside_value number i
  rw [rounded_order number]
  constructor
  · intro less
    rw [Std.compare_eq_lt] at less
    exact above.mpr (by omega)
  · intro greater
    rw [Std.compare_eq_gt] at greater
    exact below.mpr (by omega)
  · intro level differ
    rw [Std.compare_eq_iff_eq] at level
    by_contra small
    rw [Binary64.of_small_int (by omega)] at level
    exact differ ((Binary64.value_eq_whole_iff number i).mpr level.symm).symm

/-- An integer and a binary64 number, both taken by their exact value, are equal
exactly when they are one number. Comparing them, in either order of the operands,
gives only differences that are there and misses one only beyond 2^53. At the ends
of the words 2^63 equals no integer and -2^63 the least one. -/
theorem mixed_numbers_compare_exactly (i : Int64) {x : Binary64} (number : x.isNaN = false) :
    ((int i == float x) = true ↔ x.value = whole i.toInt) ∧
    ((float x == int i) = true ↔ x.value = whole i.toInt) ∧
    SeesDifference ((int i).order (float x)) (whole i.toInt) x.value
      (0x20000000000000 < i.toInt.natAbs) ∧
    SeesDifference ((float x).order (int i)) x.value (whole i.toInt)
      (0x20000000000000 < i.toInt.natAbs) ∧
    (int i).compare? (float x) = some ((int i).order (float x)) ∧
    (float x).compare? (int i) = some ((float x).order (int i)) ∧
    (int i == float ⟨0x43e0000000000000⟩) = false ∧
    ((int i == float ⟨0xc3e0000000000000⟩) = true ↔ i = Int64.minValue) := by
  have exact := equality_is_exact number i
  have turned : (float x == int i) = (int i == float x) := rfl
  have sees := order_sees_difference number i
  refine ⟨exact, turned ▸ exact, sees, ?_, rfl, rfl, ?_, ?_⟩
  · rw [← order_swap]
    exact sees.swap
  · have beyond : (⟨0x43e0000000000000⟩ : Binary64).exactInt? = none := by decide +kernel
    rw [Bool.eq_false_iff, ne_eq, int_equals_float_iff, beyond]
    exact Option.some_ne_none i ∘ Eq.symm
  · have least : (⟨0xc3e0000000000000⟩ : Binary64).exactInt? = some Int64.minValue := by
      decide +kernel
    rw [int_equals_float_iff, least, Option.some_inj, eq_comm]

/-- The first integer that binary64 numbers do not hold is level with the number it
is rounded to, which is less, and next to the greatest word stands 2^63. -/
theorem rounded_integers_compared :
    (⟨0x4340000000000000⟩ : Binary64).isNaN = false ∧
    (⟨0x43e0000000000000⟩ : Binary64).isNaN = false ∧
    (int 9007199254740993).order (float ⟨0x4340000000000000⟩) = .eq ∧
    (⟨0x4340000000000000⟩ : Binary64).value ≠ whole (9007199254740993 : Int64).toInt ∧
    (int 9007199254740994).order (float ⟨0x4340000000000000⟩) = .gt ∧
    (⟨0x4340000000000000⟩ : Binary64).value < whole (9007199254740994 : Int64).toInt ∧
    (int Int64.maxValue).order (float ⟨0x43e0000000000000⟩) = .eq ∧
    (⟨0x43e0000000000000⟩ : Binary64).value ≠ whole Int64.maxValue.toInt := by
  have number : (⟨0x4340000000000000⟩ : Binary64).isNaN = false := by decide
  have number' : (⟨0x43e0000000000000⟩ : Binary64).isNaN = false := by decide
  have greater : (int 9007199254740994).order (float ⟨0x4340000000000000⟩) = .gt := by
    decide +kernel
  obtain ⟨rounded, -⟩ := mixed_numbers_compare_exactly 9007199254740993 number
  obtain ⟨-, -, sees, -⟩ := mixed_numbers_compare_exactly 9007199254740994 number
  obtain ⟨greatest, -⟩ := mixed_numbers_compare_exactly Int64.maxValue number'
  refine ⟨number, number', by decide +kernel, ?_, greater, sees.greater greater,
    by decide +kernel, ?_⟩
  · rw [ne_eq, ← rounded]
    decide +kernel
  · rw [ne_eq, ← greatest]
    decide +kernel

end Value
end TableAlgebra
