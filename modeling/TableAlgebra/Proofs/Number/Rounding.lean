import TableAlgebra.Proofs.Number.Units

/-!
Rounding keeps the order of a whole number of units and the magnitudes: what is
at most as large as a magnitude is rounded to one that is at most as large, and
likewise from below. So a number that a magnitude stands for is kept, and so is
every integer of at most 2^53; and of two integers the smaller one is never rounded
beyond the larger one.
-/
namespace TableAlgebra
namespace Binary64

/-- The steps between neighbouring magnitudes at this number of units, as a power
of two. -/
def spacing (n : Nat) : Nat := n.log2 - 52

/-- The greatest magnitude that stands for at most this number of units, were
there no infinity. -/
def floorMagnitude (n : Nat) : Nat := spacing n * 0x10000000000000 + n / 2 ^ spacing n

theorem units_of_steps {s q : Nat} (few : q ≤ 0x20000000000000)
    (normal : s = 0 ∨ 0x10000000000000 ≤ q) :
    magnitudeUnits (s * 0x10000000000000 + q) = q * 2 ^ s := by
  by_cases subnormal : q < 0x10000000000000
  · have zero : s = 0 := by omega
    subst zero
    rw [units_below (by omega)]
    omega
  rw [units_above (by omega)]
  by_cases last : q = 0x20000000000000
  · -- one step more than the exponent has fractions: the first of the next exponent
    have exponent : (s * 0x10000000000000 + q) / 0x10000000000000 - 1 = s + 1 := by omega
    have fraction : (s * 0x10000000000000 + q) % 0x10000000000000 = 0 := by omega
    rw [exponent, fraction, last, Nat.pow_succ']
    omega
  · have exponent : (s * 0x10000000000000 + q) / 0x10000000000000 - 1 = s := by omega
    have fraction : (s * 0x10000000000000 + q) % 0x10000000000000 = q - 0x10000000000000 := by
      omega
    rw [exponent, fraction, Nat.add_sub_cancel' (by omega)]

theorem quotient_few (n : Nat) : n / 2 ^ spacing n < 0x20000000000000 := by
  have width : n.log2 + 1 ≤ 53 + spacing n := by
    simp only [spacing]
    omega
  refine Nat.div_lt_of_lt_mul ?_
  calc n < 2 ^ (n.log2 + 1) := Nat.lt_log2_self
    _ ≤ 2 ^ (53 + spacing n) := Nat.pow_le_pow_right (by decide) width
    _ = 2 ^ spacing n * 0x20000000000000 := by rw [Nat.pow_add, Nat.mul_comm]

theorem quotient_normal (n : Nat) : spacing n = 0 ∨ 0x10000000000000 ≤ n / 2 ^ spacing n := by
  by_cases none : spacing n = 0
  · exact .inl none
  refine .inr ((Nat.le_div_iff_mul_le (Nat.two_pow_pos _)).mpr ?_)
  have width : 52 + spacing n = n.log2 := by
    simp only [spacing] at none ⊢
    omega
  have positive : n ≠ 0 := by
    intro zero
    simp [zero, spacing] at none
  calc 0x10000000000000 * 2 ^ spacing n = 2 ^ (52 + spacing n) := by rw [Nat.pow_add]
    _ ≤ n := by
      rw [width]
      exact Nat.log2_self_le positive

theorem floor_units (n : Nat) :
    magnitudeUnits (floorMagnitude n) = n / 2 ^ spacing n * 2 ^ spacing n :=
  units_of_steps (quotient_few n).le (quotient_normal n)

theorem floor_le (n : Nat) : magnitudeUnits (floorMagnitude n) ≤ n := by
  rw [floor_units]
  exact Nat.div_mul_le_self _ _

theorem lt_next (n : Nat) : n < magnitudeUnits (floorMagnitude n + 1) := by
  have next : magnitudeUnits (floorMagnitude n + 1) =
      (n / 2 ^ spacing n + 1) * 2 ^ spacing n := by
    rw [floorMagnitude, Nat.add_assoc]
    exact units_of_steps (quotient_few n) ((quotient_normal n).imp_right fun normal => by omega)
  rw [next]
  exact Nat.lt_mul_of_div_lt (Nat.lt_succ_self _) (Nat.two_pow_pos _)

theorem round_quotient_between (num den : Nat) :
    num / den ≤ roundQuotient num den ∧ roundQuotient num den ≤ num / den + 1 := by
  simp only [roundQuotient]
  split
  · omega
  split <;> omega

theorem round_quotient_exact {num den : Nat} (exact : num % den = 0) (positive : 0 < den) :
    roundQuotient num den = num / den := by
  simp only [roundQuotient, exact]
  rw [if_pos (by omega)]

theorem nearest_eq (n : Nat) :
    nearestMagnitude n 1 =
      min infinite (spacing n * 0x10000000000000 + roundQuotient n (2 ^ spacing n)) := by
  simp only [nearestMagnitude, Nat.div_one, Nat.shiftLeft_eq, Nat.one_mul]
  rfl

theorem le_nearest {m n : Nat} (bounded : m ≤ infinite) (below : magnitudeUnits m ≤ n) :
    m ≤ nearestMagnitude n 1 := by
  have floor : m < floorMagnitude n + 1 :=
    units_strict_mono.lt_iff_lt.mp (below.trans_lt (lt_next n))
  have kept := (round_quotient_between n (2 ^ spacing n)).1
  simp only [floorMagnitude] at floor
  rw [nearest_eq]
  omega

theorem nearest_le {m n : Nat} (above : n ≤ magnitudeUnits m) : nearestMagnitude n 1 ≤ m := by
  rw [nearest_eq]
  refine (Nat.min_le_right _ _).trans ?_
  by_cases exact : n % 2 ^ spacing n = 0
  · have floor : floorMagnitude n ≤ m :=
      units_strict_mono.le_iff_le.mp ((floor_le n).trans above)
    rw [round_quotient_exact exact (Nat.two_pow_pos _)]
    exact floor
  · -- a remainder is left over, so the magnitude is beyond the floor
    have between : magnitudeUnits (floorMagnitude n) < n := by
      rw [floor_units]
      have split := Nat.div_add_mod' n (2 ^ spacing n)
      omega
    have floor : floorMagnitude n < m :=
      units_strict_mono.lt_iff_lt.mp (between.trans_le above)
    have kept := (round_quotient_between n (2 ^ spacing n)).2
    simp only [floorMagnitude] at floor
    omega

theorem nearest_of_units {m : Nat} (bounded : m ≤ infinite) :
    nearestMagnitude (magnitudeUnits m) 1 = m :=
  Nat.le_antisymm (nearest_le (Nat.le_refl _)) (le_nearest bounded (Nat.le_refl _))

theorem round_quotient_mono {m n : Nat} (den : Nat) (le : m ≤ n) :
    roundQuotient m den ≤ roundQuotient n den := by
  by_cases apart : m / den < n / den
  · calc roundQuotient m den ≤ m / den + 1 := (round_quotient_between m den).2
      _ ≤ n / den := apart
      _ ≤ roundQuotient n den := (round_quotient_between n den).1
  · -- with one quotient the remainders compare as the numbers do
    have same : m / den = n / den :=
      Nat.le_antisymm (Nat.div_le_div_right le) (Nat.not_lt.mp apart)
    have splitM := Nat.div_add_mod m den
    have splitN := Nat.div_add_mod n den
    have remainders : m % den ≤ n % den := by
      rw [same] at splitM
      omega
    simp only [roundQuotient, same]
    split_ifs <;> omega

theorem spacing_of_floor {m n : Nat} (same : floorMagnitude m = floorMagnitude n) :
    spacing m = spacing n := by
  have fewM := quotient_few m
  have fewN := quotient_few n
  have normalM := quotient_normal m
  have normalN := quotient_normal n
  simp only [floorMagnitude] at same
  generalize m / 2 ^ spacing m = stepsM at *
  generalize n / 2 ^ spacing n = stepsN at *
  omega

theorem nearest_mono {m n : Nat} (le : m ≤ n) : nearestMagnitude m 1 ≤ nearestMagnitude n 1 := by
  have floors : floorMagnitude m < floorMagnitude n + 1 :=
    units_strict_mono.lt_iff_lt.mp ((floor_le m).trans_lt (le.trans_lt (lt_next n)))
  have upper := (round_quotient_between m (2 ^ spacing m)).2
  have lower := (round_quotient_between n (2 ^ spacing n)).1
  rw [nearest_eq, nearest_eq]
  refine Nat.le_min.mpr ⟨Nat.min_le_left _ _, (Nat.min_le_right _ _).trans ?_⟩
  rcases Nat.lt_or_eq_of_le (Nat.le_of_lt_succ floors) with apart | same
  · simp only [floorMagnitude] at apart
    omega
  · have alike := spacing_of_floor same
    have step := round_quotient_mono (2 ^ spacing n) le
    rw [alike]
    omega

section Integers

theorem nearest_le_infinite (n : Nat) : nearestMagnitude n 1 ≤ infinite := by
  rw [nearest_eq]
  exact Nat.min_le_left _ _

theorem magnitude_of_magnitude {m : Nat} (negative : Bool) (bounded : m ≤ infinite) :
    (ofMagnitude negative m).magnitude = m := by
  simp only [ofMagnitude, magnitude, signBit, infinite, UInt64.toNat_ofNat'] at bounded ⊢
  split <;> omega

theorem sign_of_magnitude {m : Nat} (negative : Bool) (bounded : m ≤ infinite) :
    (ofMagnitude negative m).isNegative = negative := by
  simp only [ofMagnitude, isNegative, signBit, infinite, UInt64.toNat_ofNat'] at bounded ⊢
  cases negative
  · simp only [Bool.false_eq_true, if_false, decide_eq_false_iff_not]
    omega
  · simp only [if_true, decide_eq_true_eq]
    omega

theorem of_int_not_nan (i : Int) : (ofInt i).isNaN = false := by
  have bounded := nearest_le_infinite (i.natAbs * unitsPerOne)
  rw [isNaN, ofInt, magnitude_of_magnitude _ bounded, decide_eq_false_iff_not]
  exact Nat.not_lt.mpr bounded

theorem of_int_units {i : Int} {m : Nat} (bounded : m ≤ infinite)
    (exact : magnitudeUnits m = i.natAbs * unitsPerOne) :
    (ofInt i).units = i * unitsPerOne := by
  have size : (magnitudeUnits m : Int) = i.natAbs * unitsPerOne := by exact_mod_cast exact
  rw [units, ofInt, ← exact, nearest_of_units bounded, magnitude_of_magnitude _ bounded,
    sign_of_magnitude _ bounded, size]
  by_cases negative : i < 0
  · have sign : (i.natAbs : Int) = -i := by omega
    rw [if_pos (decide_eq_true negative), sign, Int.neg_mul, Int.neg_neg]
  · have sign : (i.natAbs : Int) = i := by omega
    rw [if_neg (by simpa using negative), sign]

/-- A number that equals a word is what the word is rounded to, but for the sign
of a zero. -/
theorem of_int_of_exact {x : Binary64} {i : Int64} (found : x.exactInt? = some i) :
    (ofInt i.toInt).units = x.units := by
  have value := exact_int_eq_some_iff.mp found
  have bounded : x.magnitude ≤ infinite := by
    have finite := finite_of_exact_int found
    simp only [isFinite, decide_eq_true_eq] at finite
    exact finite.le
  rw [value]
  refine of_int_units bounded ?_
  have absolute := congrArg Int.natAbs value
  rw [Int.natAbs_mul, Int.natAbs_natCast] at absolute
  rw [← absolute, units]
  split <;> omega

theorem spacing_of_whole {k : Nat} (small : k < 0x20000000000000) (e : Nat) :
    spacing (k * 2 ^ e) ≤ e := by
  by_cases zero : k = 0
  · simp [zero, spacing]
  have positive : k * 2 ^ e ≠ 0 := Nat.mul_ne_zero zero (Nat.two_pow_pos e).ne'
  have below : k * 2 ^ e < 2 ^ (53 + e) := by
    rw [Nat.pow_add]
    exact Nat.mul_lt_mul_of_pos_right small (Nat.two_pow_pos e)
  have width := (Nat.log2_lt positive).mpr below
  simp only [spacing]
  omega

theorem spacing_divides {k : Nat} (small : k < 0x20000000000000) (e : Nat) :
    2 ^ spacing (k * (1 <<< e)) ∣ k * (1 <<< e) := by
  rw [Nat.one_shiftLeft]
  exact Nat.dvd_mul_left_of_dvd (Nat.pow_dvd_pow 2 (spacing_of_whole small e)) k

theorem magnitude_of_whole {k : Nat} (small : k ≤ 0x20000000000000) :
    ∃ m ≤ infinite, magnitudeUnits m = k * unitsPerOne := by
  rcases Nat.lt_or_eq_of_le small with below | rfl
  · have divides : 2 ^ spacing (k * unitsPerOne) ∣ k * unitsPerOne := spacing_divides below 1074
    have kept : magnitudeUnits (floorMagnitude (k * unitsPerOne)) = k * unitsPerOne := by
      rw [floor_units, Nat.div_mul_cancel divides]
    refine ⟨_, ?_, kept⟩
    have inside : k * unitsPerOne ≤ wordCount * unitsPerOne :=
      Nat.mul_le_mul_right _ (by simp only [wordCount]; omega)
    rw [← units_strict_mono.le_iff_le, kept]
    exact inside.trans words_below_infinite
  · exact ⟨0x4340000000000000, by decide, by decide +kernel⟩

theorem of_small_int {i : Int} (small : i.natAbs ≤ 0x20000000000000) :
    (ofInt i).units = i * unitsPerOne := by
  obtain ⟨m, bounded, exact⟩ := magnitude_of_whole small
  exact of_int_units bounded exact

theorem of_int_signed (i : Int) : (ofInt i).units =
    if i < 0 then -(magnitudeUnits (nearestMagnitude (i.natAbs * unitsPerOne) 1) : Int)
    else magnitudeUnits (nearestMagnitude (i.natAbs * unitsPerOne) 1) := by
  have bounded := nearest_le_infinite (i.natAbs * unitsPerOne)
  rw [units, ofInt, sign_of_magnitude _ bounded, magnitude_of_magnitude _ bounded]
  simp only [decide_eq_true_eq]

theorem of_int_mono {i j : Int} (le : i ≤ j) : (ofInt i).units ≤ (ofInt j).units := by
  have rounded {m n : Nat} (le : m ≤ n) :
      (magnitudeUnits (nearestMagnitude (m * unitsPerOne) 1) : Int) ≤
        magnitudeUnits (nearestMagnitude (n * unitsPerOne) 1) := by
    exact_mod_cast units_strict_mono.monotone (nearest_mono (Nat.mul_le_mul_right _ le))
  rw [of_int_signed, of_int_signed]
  by_cases negative : j < 0
  · rw [if_pos negative, if_pos (by omega)]
    exact Int.neg_le_neg (rounded (by omega))
  · rw [if_neg negative]
    by_cases below : i < 0
    · rw [if_pos below]
      omega
    · rw [if_neg below]
      exact rounded (by omega)

end Integers

end Binary64
end TableAlgebra
