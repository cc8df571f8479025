import Mathlib.Algebra.Order.Field.Power
import Mathlib.Algebra.Order.Field.Rat
import Mathlib.Order.WithBot
import TableAlgebra.Proofs.Number.Rounding

/-!
The exact value of a binary64 number, read off its sign, exponent and fraction,
on the rational line with an end on both sides for the infinities. What the units
of a number say about a signed word is true of these values, and rounding an
integer never carries it across a number on either side.
-/
namespace TableAlgebra

abbrev Extended := WithBot (WithTop ℚ)

def whole (i : Int) : Extended := ((i : ℚ) : WithTop ℚ)

namespace Binary64

section Fields

/-- The absolute value for the bits below the sign. Without an exponent the
fraction stands alone, and with one it stands behind a leading one. -/
def fieldsValue (m : Nat) : ℚ :=
  let exponent : Nat := m / fractionCount
  let fraction : Nat := m % fractionCount
  if exponent = 0 then fraction * 2 ^ (-1074 : ℤ)
  else (fractionCount + fraction : Nat) * 2 ^ (exponent - 1075 : ℤ)

def finiteValue (x : Binary64) : ℚ :=
  if x.isNegative then -fieldsValue x.magnitude else fieldsValue x.magnitude

def value (x : Binary64) : Extended :=
  if x.isFinite then (x.finiteValue : WithTop ℚ)
  else if x.isNegative then ⊥
  else (⊤ : WithTop ℚ)

theorem shifted_one (n : Nat) : ((1 <<< n : Nat) : ℚ) = 2 ^ (n : ℤ) := by
  rw [Nat.one_shiftLeft, Nat.cast_pow, zpow_natCast]
  rfl

theorem scaled_power (e : ℤ) : (2 : ℚ) ^ e * unitsPerOne = 2 ^ (e + 1074) := by
  have unit : (unitsPerOne : ℚ) = 2 ^ (1074 : ℤ) := shifted_one 1074
  rw [unit, ← zpow_add₀ (by decide)]

theorem fields_value_units (m : Nat) : fieldsValue m * unitsPerOne = magnitudeUnits m := by
  unfold fieldsValue
  by_cases small : m < 0x10000000000000
  · have exponent : m / fractionCount = 0 := Nat.div_eq_of_lt small
    have fraction : m % fractionCount = m := Nat.mod_eq_of_lt small
    rw [if_pos exponent, units_below small, fraction, mul_assoc, scaled_power]
    norm_num
  · have large : 0x10000000000000 ≤ m := Nat.not_lt.mp small
    have positive : 0 < m / fractionCount := Nat.div_pos large (by decide)
    have power : (m / fractionCount : Nat) - 1075 + (1074 : ℤ) =
        ((m / fractionCount - 1 : Nat) : ℤ) := by omega
    rw [if_neg positive.ne', units_above large, mul_assoc, scaled_power, power, zpow_natCast]
    norm_num [fractionCount]

theorem finite_value_units (x : Binary64) : x.finiteValue * unitsPerOne = x.units := by
  unfold finiteValue units
  split
  · rw [neg_mul, fields_value_units]
    push_cast
    rfl
  · rw [fields_value_units]
    push_cast
    rfl

end Fields

section Line

variable {x : Binary64}

theorem units_per_one_rational_pos : (0 : ℚ) < unitsPerOne := by
  exact_mod_cast units_per_one_pos

theorem value_cases (number : x.isNaN = false) :
    x.value = (x.finiteValue : WithTop ℚ) ∨
    (x.value = (⊤ : WithTop ℚ) ∧ (wordCount * unitsPerOne : Nat) ≤ x.units) ∨
    (x.value = ⊥ ∧ x.units ≤ -(wordCount * unitsPerOne : Nat)) := by
  cases finite : x.isFinite with
  | true =>
    refine .inl ?_
    rw [value, if_pos finite]
  | false =>
    simp only [isFinite, isNaN, decide_eq_false_iff_not] at finite number
    have large := words_below_infinite
    have infinity : x.magnitude = infinite := by omega
    have not_finite : x.isFinite = false := by
      simp [isFinite, infinity]
    cases sign : x.isNegative with
    | true =>
      refine .inr (.inr ⟨?_, ?_⟩)
      · simp [value, not_finite, sign]
      · rw [units, if_pos sign, infinity]
        omega
    | false =>
      refine .inr (.inl ⟨?_, ?_⟩)
      · simp [value, not_finite, sign]
      · rw [units, if_neg (by simp [sign]), infinity]
        omega

theorem scaled_lt (p q : ℚ) : p < q ↔ p * unitsPerOne < q * unitsPerOne :=
  (mul_lt_mul_iff_of_pos_right units_per_one_rational_pos).symm

theorem word_units_between (word : Int64) :
    -(wordCount * unitsPerOne : Nat) < word.toInt * unitsPerOne ∧
      word.toInt * unitsPerOne < (wordCount * unitsPerOne : Nat) := by
  have low := word.le_toInt
  have high := word.toInt_lt
  have positive : (0 : Int) < unitsPerOne := by exact_mod_cast units_per_one_pos
  rw [Nat.cast_mul, ← Int.neg_mul]
  constructor
  · refine Int.mul_lt_mul_of_pos_right ?_ positive
    simp only [wordCount]
    omega
  · refine Int.mul_lt_mul_of_pos_right ?_ positive
    simp only [wordCount]
    omega

theorem word_beside_value (number : x.isNaN = false) (word : Int64) :
    (whole word.toInt < x.value ↔ word.toInt * unitsPerOne < x.units) ∧
    (x.value < whole word.toInt ↔ x.units < word.toInt * unitsPerOne) := by
  have between := word_units_between word
  rcases value_cases number with finite | ⟨top, above⟩ | ⟨bottom, below⟩
  · rw [finite, whole, WithBot.coe_lt_coe, WithTop.coe_lt_coe, WithBot.coe_lt_coe,
      WithTop.coe_lt_coe, scaled_lt (word.toInt : ℚ) x.finiteValue,
      scaled_lt x.finiteValue word.toInt, finite_value_units]
    norm_cast
  · rw [top, whole, WithBot.coe_lt_coe, WithBot.coe_lt_coe]
    have less : word.toInt * unitsPerOne < x.units := by omega
    have not_greater : ¬ x.units < word.toInt * unitsPerOne := by omega
    exact ⟨iff_of_true (WithTop.coe_lt_top _) less, iff_of_false not_top_lt not_greater⟩
  · rw [bottom, whole]
    have greater : x.units < word.toInt * unitsPerOne := by omega
    have not_less : ¬ word.toInt * unitsPerOne < x.units := by omega
    exact ⟨iff_of_false not_lt_bot not_less, iff_of_true (WithBot.bot_lt_coe _) greater⟩

theorem value_eq_whole_iff (number : x.isNaN = false) (word : Int64) :
    x.value = whole word.toInt ↔ x.units = word.toInt * unitsPerOne := by
  obtain ⟨less, greater⟩ := word_beside_value number word
  constructor
  · intro same
    rw [same] at less greater
    have not_less := mt less.mpr (lt_irrefl _)
    have not_greater := mt greater.mpr (lt_irrefl _)
    omega
  · intro same
    rw [same] at less greater
    have not_less := mt less.mp (lt_irrefl _)
    have not_greater := mt greater.mp (lt_irrefl _)
    exact le_antisymm (not_lt.mp not_less) (not_lt.mp not_greater)

end Line

section Rounding

variable {x : Binary64} {m n : Nat}

/-- A magnitude that is not below a number of units is not below what they are
rounded to, and likewise from above. -/
theorem rounded_beside (bounded : m ≤ infinite) (n : Nat) :
    (n ≤ magnitudeUnits m → magnitudeUnits (nearestMagnitude n 1) ≤ magnitudeUnits m) ∧
    (magnitudeUnits m ≤ n → magnitudeUnits m ≤ magnitudeUnits (nearestMagnitude n 1)) := by
  constructor
  · intro above
    exact units_strict_mono.monotone (nearest_le above)
  · intro below
    exact units_strict_mono.monotone (le_nearest bounded below)

theorem integer_rounded_beside (number : x.isNaN = false) (i : Int) :
    (i * unitsPerOne ≤ x.units → (ofInt i).units ≤ x.units) ∧
    (x.units ≤ i * unitsPerOne → x.units ≤ (ofInt i).units) := by
  have bounded : x.magnitude ≤ infinite := by simpa [isNaN] using number
  obtain ⟨up, down⟩ := rounded_beside bounded (i.natAbs * unitsPerOne)
  have size : ((i.natAbs * unitsPerOne : Nat) : Int) = |i * unitsPerOne| := by
    rw [Nat.cast_mul, Int.natCast_natAbs, abs_mul, Nat.abs_cast]
  have positive : (0 : Int) < unitsPerOne := by exact_mod_cast units_per_one_pos
  rw [of_int_signed, units]
  generalize magnitudeUnits x.magnitude = m at *
  generalize magnitudeUnits (nearestMagnitude (i.natAbs * unitsPerOne) 1) = r at *
  generalize i.natAbs * unitsPerOne = n at *
  by_cases negative : i < 0
  · have below : i * unitsPerOne < 0 := Int.mul_neg_of_neg_of_pos negative positive
    rw [abs_of_neg below] at size
    rw [if_pos negative]
    split <;> omega
  · have above : 0 ≤ i * unitsPerOne := Int.mul_nonneg (Int.not_lt.mp negative) positive.le
    rw [abs_of_nonneg above] at size
    rw [if_neg negative]
    split <;> omega

end Rounding

end Binary64
end TableAlgebra
