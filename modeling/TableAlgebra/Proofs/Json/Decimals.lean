import Mathlib.Algebra.Ring.Nat
import Mathlib.Tactic.DefEqTransformations
import TableAlgebra.Proofs.Json.Numbers
import TableAlgebra.Proofs.Number.Units

/-!
Binary64 numbers as they are written. The shortest decimal of a number other than
zero has a digit other than zero in front, so its layout, positional or with an
exponent, is always a number of the grammar, and the reader takes all of it. What
the number read has for a value is another question.
-/
namespace TableAlgebra

namespace Decimal

variable {d : Decimal} {tie : Tie} {magnitude : Nat} {exponent : Int}

theorem on_grid_reads_back (found : onGrid? tie magnitude exponent = some d) :
    d.readsBack magnitude = true := by
  -- the definition is opened before it has arguments: with them, checking that the two
  -- sides agree would evaluate the test in unary
  generalize opened : @onGrid? = search at found
  delta onGrid? at opened
  rw [← opened] at found
  beta_reduce at found
  extract_lets num den below above at found
  clear_value num den below above
  generalize low : below.readsBack magnitude = first at found
  generalize high : above.readsBack magnitude = second at found
  cases first with
  | false =>
    cases second with
    | false => cases found
    | true => exact Option.some.inj found ▸ high
  | true =>
    cases second with
    | false => exact Option.some.inj found ▸ low
    | true =>
      dsimp only at found
      split at found
      · exact Option.some.inj found ▸ low
      · exact Option.some.inj found ▸ high
      · cases tie with
        | up => exact Option.some.inj found ▸ high
        | even =>
          have same := Option.some.inj found
          split at same
          · exact same ▸ low
          · exact same ▸ high

theorem digits_of_reads_back (back : d.readsBack magnitude = true) (nonzero : magnitude ≠ 0) :
    d.digits ≠ 0 := by
  intro zero
  rw [readsBack, zero, beq_iff_eq, Nat.zero_mul, Nat.zero_mul] at back
  refine nonzero (back.symm.trans ?_)
  simp [Binary64.nearestMagnitude, Binary64.roundQuotient]

theorem strip_zeros_digits (fuel : Nat) (nonzero : d.digits ≠ 0) :
    (stripZeros fuel d).digits ≠ 0 := by
  induction fuel generalizing d with
  | zero => exact nonzero
  | succ fuel ih =>
    rw [stripZeros]
    split
    · rename_i divisible
      exact ih (by dsimp only; omega)
    · exact nonzero

theorem shortest_digits (tie : Tie) (nonzero : magnitude ≠ 0) :
    (shortest tie magnitude).digits ≠ 0 := by
  generalize same : shortest tie magnitude = d
  rw [shortest, if_neg nonzero] at same
  extract_lets found exact chosen at same
  have some : chosen.digits ≠ 0 := by
    subst chosen
    cases here : found with
    | some d =>
      obtain ⟨n, -, here⟩ := List.exists_of_findSome?_eq_some here
      exact digits_of_reads_back (on_grid_reads_back here) nonzero
    | none =>
      have units : 0 < Binary64.magnitudeUnits magnitude :=
        Binary64.units_strict_mono (Nat.pos_of_ne_zero nonzero)
      refine Nat.ne_of_gt (Nat.mul_pos units ?_)
      generalize 1074 = places
      exact Nat.pow_pos (by decide)
  clear_value chosen
  rw [← same]
  exact strip_zeros_digits _ some

def Plain (d : Decimal) : Prop := d.digits = 0 → d.exponent = 0

theorem shortest_plain (tie : Tie) (magnitude : Nat) : (shortest tie magnitude).Plain := by
  intro zero
  by_cases nothing : magnitude = 0
  · rw [shortest, if_pos nothing]
  · exact absurd zero (shortest_digits tie nothing)

end Decimal

namespace Document

section Grammar

variable {cs rest text : List Char}

def Digits (cs : List Char) : Prop := cs ≠ [] ∧ ∀ c ∈ cs, c.isDigit = true

def EndsDigits (rest : List Char) : Prop := ∀ c ∈ rest.head?, c.isDigit = false

inductive Whole : List Char → Prop where
  | zero : Whole ['0']
  | digits {c : Char} {cs : List Char} (nonzero : c ≠ '0') (digits : Digits (c :: cs)) :
      Whole (c :: cs)

inductive Fraction : List Char → Prop where
  | none : Fraction []
  | point {cs : List Char} (digits : Digits cs) : Fraction ('.' :: cs)

inductive Exponent : List Char → Prop where
  | none : Exponent []
  | mark {sign : Char} {cs : List Char} (signs : sign = '+' ∨ sign = '-') (digits : Digits cs) :
      Exponent ('e' :: sign :: cs)

/-- A number without its sign, as the grammar has it. -/
inductive Unsigned : List Char → Prop where
  | intro {whole fraction exponent : List Char} (first : Whole whole)
      (second : Fraction fraction) (last : Exponent exponent) :
      Unsigned (whole ++ (fraction ++ exponent))

theorem Exponent.ends_digits (exponent : Exponent rest) : EndsDigits rest := by
  intro c first
  cases exponent <;> cases first
  rfl

theorem Fraction.ends_digits (fraction : Fraction cs) (exponent : Exponent rest) :
    EndsDigits (cs ++ rest) := by
  cases fraction with
  | none => exact exponent.ends_digits
  | point digits =>
    intro c first
    cases first
    rfl

theorem read_digits_stop (digits : ∀ c ∈ cs, c.isDigit = true) (ends : EndsDigits rest) :
    readDigits (cs ++ rest) = (cs.map fun c => c.toNat - '0'.toNat, rest) := by
  have stop : rest.takeWhile Char.isDigit = [] ∧ rest.dropWhile Char.isDigit = rest := by
    cases rest with
    | nil => exact ⟨rfl, rfl⟩
    | cons c rest => simp [ends c rfl]
  rw [readDigits, List.takeWhile_append_of_pos digits, List.dropWhile_append_of_pos digits,
    stop.1, stop.2, List.append_nil]

theorem read_some_digits (digits : Digits cs) (ends : EndsDigits rest) :
    ∃ found, readSomeDigits (cs ++ rest) = some (found, rest) := by
  rw [readSomeDigits, read_digits_stop digits.2 ends, if_neg (by simpa using digits.1)]
  exact ⟨_, rfl⟩

theorem Whole.read (whole : Whole cs) (ends : EndsDigits rest) :
    ∃ found, readWhole (cs ++ rest) = some (found, rest) := by
  cases whole with
  | zero =>
    have alone : rest.head?.any Char.isDigit = false := by
      cases rest with
      | nil => rfl
      | cons c rest => exact ends c rfl
    exact ⟨[0], by rw [List.singleton_append, read_whole_zero, alone]; rfl⟩
  | digits nonzero digits =>
    rw [List.cons_append, read_whole_other nonzero, ← List.cons_append]
    exact read_some_digits digits ends

theorem Fraction.read (fraction : Fraction cs) (exponent : Exponent rest) :
    ∃ found, readFraction (cs ++ rest) = some (found, rest) := by
  cases fraction with
  | none =>
    refine ⟨.none, read_fraction_none fun c first => ?_⟩
    cases exponent <;> cases first
    decide
  | point digits =>
    obtain ⟨found, read⟩ := read_some_digits digits exponent.ends_digits
    exact ⟨some found, by rw [List.cons_append, read_fraction_point, read]; rfl⟩

theorem Exponent.read (exponent : Exponent cs) :
    ∃ found, readExponent cs = some (found, []) := by
  cases exponent with
  | none => exact ⟨_, rfl⟩
  | @mark sign cs signs digits =>
    have nothing : EndsDigits [] := fun c first => by cases first
    obtain ⟨found, read⟩ := read_some_digits digits nothing
    rw [List.append_nil] at read
    have behind : (readSign (sign :: cs)).2 = cs := by
      rcases signs with rfl | rfl <;> rfl
    rw [read_exponent_mark (.inl rfl), readSigned, behind, read]
    exact ⟨_, rfl⟩

theorem Unsigned.read (number : Unsigned text) (negative : Bool) :
    ∃ n, readUnsigned negative text = some (n, []) := by
  obtain ⟨first, second, last⟩ := number
  obtain ⟨whole, wholeRead⟩ := first.read (second.ends_digits last)
  obtain ⟨fraction, fractionRead⟩ := second.read last
  obtain ⟨exponent, exponentRead⟩ := last.read
  refine ⟨{ negative, whole, fraction, exponent }, ?_⟩
  rw [readUnsigned, wholeRead]
  dsimp only [Option.bind_eq_bind, Option.bind_some]
  rw [fractionRead]
  dsimp only [Option.bind_some]
  rw [exponentRead]
  rfl

theorem Unsigned.read_signed (number : Unsigned text) (negative : Bool) :
    ∃ n, readNumeral ((if negative then ['-'] else []) ++ text) = some (n, []) := by
  obtain ⟨n, read⟩ := number.read negative
  cases negative with
  | true => exact ⟨n, read⟩
  | false =>
    refine ⟨n, ?_⟩
    cases text with
    | nil => cases read
    | cons c cs =>
      refine Eq.trans (read_numeral_plain ?_ cs) read
      obtain ⟨whole, wholeRead, -⟩ := Option.bind_eq_some_iff.mp read
      have digit := digit_of_read_whole wholeRead
      rintro rfl
      exact absurd digit (by decide)

end Grammar

end Document

section Layout

open Document (Digits Whole Fraction Exponent Unsigned)

theorem digits_of_nat (n : Nat) : Digits (Nat.toDigits 10 n) :=
  ⟨Nat.toDigits_ne_nil, digits_are_digits n⟩

theorem zeros_are_digits (n : Nat) : ∀ c ∈ NumberFormat.zeros n, c.isDigit = true := by
  intro c member
  rw [List.eq_of_mem_replicate member]
  rfl

theorem positional_unsigned {c : Char} {cs : List Char} (format : NumberFormat) (nonzero : c ≠ '0')
    (plain : Digits (c :: cs)) (before : Int) :
    Unsigned (format.positionalDigits (c :: cs) before) := by
  rw [NumberFormat.positionalDigits]
  split
  · -- a zero, and all digits behind the point
    have behind : Digits (NumberFormat.zeros (-before).toNat ++ c :: cs) :=
      ⟨by simp, List.forall_mem_append.mpr ⟨zeros_are_digits _, plain.2⟩⟩
    simpa using Unsigned.intro .zero (.point behind) .none
  · split
    · -- all digits before the point
      have front : Digits (c :: cs ++ NumberFormat.zeros (before.toNat - (c :: cs).length)) :=
        ⟨by simp, List.forall_mem_append.mpr ⟨plain.2, zeros_are_digits _⟩⟩
      have single : Digits ['0'] := digits_of_nat 0
      split
      · simpa using Unsigned.intro (.digits nonzero front) (.point single) .none
      · simpa using Unsigned.intro (.digits nonzero front) .none .none
    · -- some digits on either side
      rename_i after inside
      obtain ⟨places, shift⟩ : ∃ places, before.toNat = places + 1 :=
        Nat.exists_eq_add_one_of_ne_zero (by omega)
      rw [shift] at inside ⊢
      have front : Digits (c :: cs.take places) :=
        ⟨by simp, fun d member => plain.2 d (List.mem_of_mem_take (i := places + 1) member)⟩
      have behind : Digits (cs.drop places) := by
        constructor
        · rw [Ne, List.drop_eq_nil_iff]
          simpa using inside
        · intro d member
          exact plain.2 d (List.mem_cons_of_mem c (List.mem_of_mem_drop member))
      simpa using Unsigned.intro (.digits nonzero front) (.point behind) .none

theorem exponent_unsigned {c : Char} {cs : List Char} (first : Whole [c])
    (plain : Digits (c :: cs)) (exponent : Int) :
    Unsigned (NumberFormat.exponentDigits (c :: cs) exponent) := by
  have fraction : Fraction (if cs.isEmpty then [] else '.' :: cs) := by
    split
    · exact .none
    · rename_i some
      exact .point ⟨by simpa using some, fun d member => plain.2 d (List.mem_cons_of_mem c member)⟩
  have sign : (if exponent < 0 then '-' else '+') = '+' ∨
      (if exponent < 0 then '-' else '+') = '-' := by
    split
    · exact .inr rfl
    · exact .inl rfl
  have size := digits_of_nat exponent.natAbs
  simpa [NumberFormat.exponentDigits] using Unsigned.intro first fraction (.mark sign size)

theorem zero_unsigned (format : NumberFormat) : Unsigned (format.positionalDigits ['0'] 1) := by
  have single : Digits ['0'] := digits_of_nat 0
  cases point : format.pointZero with
  | true =>
    simpa [NumberFormat.positionalDigits, NumberFormat.zeros, point] using
      Unsigned.intro .zero (.point single) .none
  | false =>
    simpa [NumberFormat.positionalDigits, NumberFormat.zeros, point] using
      Unsigned.intro .zero .none .none

/-- However it is laid out, a plain decimal is a number of the grammar. -/
theorem decimal_unsigned (format : NumberFormat) {d : Decimal} (plain : d.Plain) :
    Unsigned (format.decimal d) := by
  rw [NumberFormat.decimal]
  by_cases zero : d.digits = 0
  · rw [zero, plain zero]
    exact iteInduction (fun _ => zero_unsigned format)
      (fun _ => exponent_unsigned .zero (digits_of_nat 0) _)
  · obtain ⟨c, cs, leading, other⟩ := leading_digit (Nat.pos_of_ne_zero zero)
    have digits := digits_of_nat d.digits
    rw [leading] at digits ⊢
    have single : Whole [c] := .digits other ⟨by simp, fun d member =>
      digits.2 d (List.mem_cons.mpr (.inl (List.mem_singleton.mp member)))⟩
    exact iteInduction (fun _ => positional_unsigned format other digits _)
      (fun _ => exponent_unsigned single digits _)

theorem numeral_of_real {x : Binary64} (finite : x.isFinite) :
    ∃ n, Document.readNumeral (writeReal x) = some (n, []) := by
  have size : x.magnitude < Binary64.infinite := by simpa [Binary64.isFinite] using finite
  have number : ¬x.isNaN = true := by simp [Binary64.isNaN, Nat.le_of_lt size]
  have bounded : ¬x.isInfinite = true := by simp [Binary64.isInfinite, Nat.ne_of_lt size]
  rw [writeReal, if_pos finite, NumberFormat.write, if_neg number, if_neg bounded]
  exact (decimal_unsigned _ (Decimal.shortest_plain _ _)).read_signed _

theorem numeral_of_int (i : Int) : ∃ n, Document.readNumeral (writeInt i) = some (n, []) := by
  cases i with
  | ofNat n =>
    rw [Int.ofNat_eq_natCast, write_natural, read_natural, read_unsigned_digits]
    exact ⟨_, rfl⟩
  | negSucc n =>
    rw [write_negative, Document.read_numeral_minus, read_unsigned_digits]
    exact ⟨_, rfl⟩

end Layout

end TableAlgebra
