import Mathlib.Algebra.Ring.Nat
import Mathlib.Order.Monotone.Basic
import TableAlgebra.Number.Binary64

namespace TableAlgebra
namespace Binary64

theorem units_below {m : Nat} (small : m < 0x10000000000000) : magnitudeUnits m = m :=
  if_pos small

theorem units_above {m : Nat} (large : 0x10000000000000 ≤ m) :
    magnitudeUnits m =
      (0x10000000000000 + m % 0x10000000000000) * 2 ^ (m / 0x10000000000000 - 1) :=
  (if_neg (Nat.not_lt.mpr large)).trans (Nat.shiftLeft_eq _ _)

/-- The last step below each power of two is as wide as the steps before it, so
the next magnitude is greater across the powers too. -/
theorem units_step (m : Nat) : magnitudeUnits m < magnitudeUnits (m + 1) := by
  by_cases below : m + 1 < 0x10000000000000
  · rw [units_below below, units_below (by omega)]
    omega
  rw [@units_above (m + 1) (by omega)]
  by_cases first : m < 0x10000000000000
  · have last : m + 1 = 0x10000000000000 := by omega
    rw [units_below first, last]
    omega
  rw [units_above (by omega)]
  by_cases inside : m % 0x10000000000000 + 1 < 0x10000000000000
  · have exponent : (m + 1) / 0x10000000000000 = m / 0x10000000000000 := by omega
    have fraction : (m + 1) % 0x10000000000000 = m % 0x10000000000000 + 1 := by omega
    rw [exponent, fraction]
    exact Nat.mul_lt_mul_of_pos_right (by omega) (Nat.two_pow_pos _)
  · have exponent : (m + 1) / 0x10000000000000 - 1 = m / 0x10000000000000 - 1 + 1 := by omega
    have fraction : (m + 1) % 0x10000000000000 = 0 := by omega
    rw [exponent, fraction, Nat.pow_succ', ← Nat.mul_assoc]
    exact Nat.mul_lt_mul_of_pos_right (by omega) (Nat.two_pow_pos _)

theorem units_strict_mono : StrictMono magnitudeUnits := strictMono_nat_of_lt_succ units_step

theorem magnitude_units_inj {m n : Nat} : magnitudeUnits m = magnitudeUnits n ↔ m = n :=
  units_strict_mono.injective.eq_iff

theorem eq_of_bits {x y : Binary64} (same : x.bits.toNat = y.bits.toNat) : x = y :=
  congrArg Binary64.mk (UInt64.toNat_inj.mp same)

theorem eq_of_parts {x y : Binary64} (sign : x.isNegative = y.isNegative)
    (size : x.magnitude = y.magnitude) : x = y := by
  have hx := x.bits.toNat_lt
  have hy := y.bits.toNat_lt
  have half : 0x8000000000000000 ≤ x.bits.toNat ↔ 0x8000000000000000 ≤ y.bits.toNat :=
    decide_eq_decide.mp sign
  simp only [magnitude, signBit] at size
  exact eq_of_bits (by omega)

theorem eq_of_units {x y : Binary64} (same : x.units = y.units) (nonzero : x.units ≠ 0) :
    x = y := by
  simp only [units] at same nonzero
  have sign : x.isNegative = y.isNegative := by
    cases hx : x.isNegative with
    | false =>
      cases hy : y.isNegative with
      | false => rfl
      | true =>
        simp only [hx, hy, Bool.false_eq_true, if_true, if_false] at same nonzero
        omega
    | true =>
      cases hy : y.isNegative with
      | false =>
        simp only [hx, hy, Bool.false_eq_true, if_true, if_false] at same nonzero
        omega
      | true => rfl
  refine eq_of_parts sign (magnitude_units_inj.mp ?_)
  rw [sign] at same
  split at same <;> omega

theorem units_per_one_pos : 0 < unitsPerOne := by decide +kernel

theorem words_below_infinite : wordCount * unitsPerOne ≤ magnitudeUnits infinite := by
  decide +kernel

theorem exact_int_eq_some_iff {x : Binary64} {i : Int64} :
    x.exactInt? = some i ↔ x.units = i.toInt * unitsPerOne := by
  have positive : (0 : Int) < unitsPerOne := by exact_mod_cast units_per_one_pos
  simp only [exactInt?]
  constructor
  · intro found
    split at found
    · rename_i whole
      rw [← whole, int64?_eq_some_iff.mp found]
    · cases found
  · intro value
    have quotient : x.units / unitsPerOne = i.toInt := by
      rw [value]
      exact Int.mul_ediv_cancel _ (by omega)
    rw [quotient, if_pos value.symm]
    exact int64?_toInt i

theorem exact_int_of_units {x y : Binary64} (same : x.units = y.units) :
    x.exactInt? = y.exactInt? := by
  simp only [exactInt?, same]

theorem finite_of_exact_int {x : Binary64} {i : Int64} (found : x.exactInt? = some i) :
    x.isFinite = true := by
  have value := exact_int_eq_some_iff.mp found
  have large := words_below_infinite
  have low := i.le_toInt
  have high := i.toInt_lt
  have size : (magnitudeUnits x.magnitude : Int) = i.toInt.natAbs * unitsPerOne := by
    have absolute := congrArg Int.natAbs value
    rw [Int.natAbs_mul, Int.natAbs_natCast] at absolute
    rw [← Int.natCast_mul, ← absolute]
    simp only [units]
    split <;> omega
  have small : i.toInt.natAbs * unitsPerOne < wordCount * unitsPerOne :=
    Nat.mul_lt_mul_of_pos_right (by simp only [wordCount]; omega) units_per_one_pos
  have below : magnitudeUnits x.magnitude < magnitudeUnits infinite := by omega
  simpa [isFinite] using units_strict_mono.lt_iff_lt.mp below

theorem not_nan_of_exact_int {x : Binary64} {i : Int64} (found : x.exactInt? = some i) :
    x.isNaN = false := by
  have finite := finite_of_exact_int found
  simp only [isFinite, isNaN, decide_eq_true_eq, decide_eq_false_iff_not] at finite ⊢
  omega

theorem equal_iff {x y : Binary64} :
    x.equal y = true ↔ x.isNaN = false ∧ y.isNaN = false ∧ x.units = y.units := by
  simp [equal, and_assoc]

end Binary64
end TableAlgebra
