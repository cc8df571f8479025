import Mathlib.Algebra.Ring.Nat
import Mathlib.Data.List.TakeWhile
import Mathlib.Data.Option.Basic
import TableAlgebra.Json.Writer

/-!
Numbers in a longer text. The reader of a number stops at the first character
that cannot carry it on, so a text that is a number is read as that number with
a comma or a closing bracket behind it. What the writer makes of an integer is
read as that integer.
-/
namespace TableAlgebra
namespace Document

def EndsNumber (rest : List Char) : Prop :=
  ∀ c ∈ rest.head?, c.isDigit = false ∧ c ≠ '.' ∧ c ≠ 'e' ∧ c ≠ 'E'

variable {cs left rest : List Char}

theorem ends_number_nil : EndsNumber [] := fun c first => by cases first

theorem ends_number_cons {c : Char} (other : c.isDigit = false ∧ c ≠ '.' ∧ c ≠ 'e' ∧ c ≠ 'E') :
    EndsNumber (c :: rest) := by
  intro d first
  cases first
  exact other

/-- A reader that leaves alone what cannot carry a number on. -/
def Stops {α : Type} (read : List Char → Option (α × List Char)) : Prop :=
  ∀ cs a left rest, EndsNumber rest → read cs = some (a, left) →
    read (cs ++ rest) = some (a, left ++ rest)

theorem read_digits_append (cs : List Char) (ends : EndsNumber rest) :
    readDigits (cs ++ rest) = ((readDigits cs).1, (readDigits cs).2 ++ rest) := by
  have taken : (cs ++ rest).takeWhile Char.isDigit = cs.takeWhile Char.isDigit ∧
      (cs ++ rest).dropWhile Char.isDigit = cs.dropWhile Char.isDigit ++ rest := by
    induction cs with
    | nil =>
      cases rest with
      | nil => exact ⟨rfl, rfl⟩
      | cons c rest => simp [(ends c rfl).1]
    | cons c cs ih =>
      by_cases digit : c.isDigit = true
      · simp [digit, ih]
      · simp [digit]
  rw [readDigits, taken.1, taken.2, readDigits]

def readSomeDigits (cs : List Char) : Option (List Nat × List Char) :=
  if (readDigits cs).1 = [] then none else some (readDigits cs)

theorem read_some_digits_stops : Stops readSomeDigits := by
  intro cs digits left rest ends found
  rw [readSomeDigits] at found
  rw [readSomeDigits, read_digits_append cs ends]
  split at found
  · cases found
  · rename_i some_digit
    rw [if_neg some_digit, Option.some_inj.mp found]

theorem read_whole_zero (cs : List Char) :
    readWhole ('0' :: cs) = if cs.head?.any Char.isDigit then none else some ([0], cs) := rfl

theorem read_whole_other {c : Char} (other : c ≠ '0') (cs : List Char) :
    readWhole (c :: cs) = readSomeDigits (c :: cs) := by
  unfold readWhole readSomeDigits
  split
  · rename_i same
    cases same
    exact absurd rfl other
  · cases readDigits (c :: cs) with
    | mk digits left => cases digits <;> rfl

theorem read_whole_stops : Stops readWhole := by
  intro cs digits left rest ends found
  cases cs with
  | nil => cases found
  | cons c cs =>
    by_cases zero : c = '0'
    · subst zero
      rw [read_whole_zero] at found
      rw [List.cons_append, read_whole_zero]
      have next : (cs ++ rest).head?.any Char.isDigit = cs.head?.any Char.isDigit := by
        cases cs with
        | cons d cs => rfl
        | nil =>
          cases rest with
          | nil => rfl
          | cons d rest => exact (ends d rfl).1
      rw [next]
      split at found
      · cases found
      · rename_i alone
        cases found
        rw [if_neg alone]
    · rw [read_whole_other zero] at found
      rw [List.cons_append, read_whole_other zero, ← List.cons_append]
      exact read_some_digits_stops _ _ _ _ ends found

theorem read_fraction_point (cs : List Char) : readFraction ('.' :: cs) =
    (readSomeDigits cs).map fun found => (some found.1, found.2) := by
  rw [readFraction, readSomeDigits]
  cases readDigits cs with
  | mk digits left => cases digits <;> rfl

theorem read_fraction_none (none : ∀ c ∈ cs.head?, c ≠ '.') :
    readFraction cs = some (.none, cs) := by
  unfold readFraction
  split
  · exact absurd rfl (none _ rfl)
  · rfl

theorem read_fraction_stops : Stops readFraction := by
  intro cs fraction left rest ends found
  by_cases point : cs.head? = some '.'
  · obtain ⟨cs, rfl⟩ := List.head?_eq_some_iff.mp point
    rw [read_fraction_point, Option.map_eq_some_iff] at found
    obtain ⟨⟨digits, left⟩, digitsFound, same⟩ := found
    cases same
    rw [List.cons_append, read_fraction_point, read_some_digits_stops _ _ _ _ ends digitsFound]
    rfl
  · have no_point : ∀ c ∈ cs.head?, c ≠ '.' := fun c first same => point (same ▸ first)
    rw [read_fraction_none no_point] at found
    cases found
    refine read_fraction_none fun c first => ?_
    cases cs with
    | nil => exact (ends c first).2.1
    | cons d cs => exact no_point c first

theorem read_sign_append {cs : List Char} (some : cs ≠ []) (rest : List Char) :
    readSign (cs ++ rest) = ((readSign cs).1, (readSign cs).2 ++ rest) := by
  cases cs with
  | nil => exact absurd rfl some
  | cons c cs =>
    rw [List.cons_append]
    unfold readSign
    split
    · rename_i same
      cases same
      rfl
    · rename_i same
      cases same
      rfl
    · rename_i no_plus no_minus
      split
      · rename_i same
        cases same
        exact absurd rfl (no_plus _)
      · rename_i same
        cases same
        exact absurd rfl (no_minus _)
      · rfl

def readSigned (cs : List Char) : Option (Int × List Char) :=
  (readSomeDigits (readSign cs).2).map fun found =>
    (if (readSign cs).1 then -(Numeral.ofDigits found.1 : Int) else Numeral.ofDigits found.1,
      found.2)

theorem read_signed_stops : Stops readSigned := by
  intro cs size left rest ends found
  have some : cs ≠ [] := by
    intro none
    subst none
    cases found
  rw [readSigned, Option.map_eq_some_iff] at found
  obtain ⟨digits, found, same⟩ := found
  cases same
  rw [readSigned, read_sign_append some, read_some_digits_stops _ _ _ _ ends found]
  rfl

theorem read_exponent_mark {c : Char} (mark : c = 'e' ∨ c = 'E') (cs : List Char) :
    readExponent (c :: cs) = (readSigned cs).map fun found => (some found.1, found.2) := by
  have marked : (decide (c = 'e') || decide (c = 'E')) = true := by simpa using mark
  rw [readExponent, if_pos marked, readSigned, readSomeDigits]
  cases readSign cs with
  | mk negative cs =>
    dsimp only
    cases readDigits cs with
    | mk digits left => cases digits <;> rfl

theorem read_exponent_none (none : ∀ c ∈ cs.head?, ¬(c = 'e' ∨ c = 'E')) :
    readExponent cs = some (.none, cs) := by
  cases cs with
  | nil => rfl
  | cons c cs =>
    have unmarked : ¬(decide (c = 'e') || decide (c = 'E')) = true := by
      simpa using none c rfl
    rw [readExponent, if_neg unmarked]

theorem read_exponent_stops : Stops readExponent := by
  intro cs exponent left rest ends found
  cases cs with
  | nil =>
    cases found
    exact read_exponent_none fun c first mark =>
      mark.elim (ends c first).2.2.1 (ends c first).2.2.2
  | cons c cs =>
    by_cases mark : c = 'e' ∨ c = 'E'
    · rw [read_exponent_mark mark, Option.map_eq_some_iff] at found
      obtain ⟨⟨size, left⟩, found, same⟩ := found
      cases same
      rw [List.cons_append, read_exponent_mark mark, read_signed_stops _ _ _ _ ends found]
      rfl
    · have unmarked : ∀ d ∈ (c :: cs).head?, ¬(d = 'e' ∨ d = 'E') := by
        intro d first
        cases first
        exact mark
      rw [read_exponent_none unmarked] at found
      cases found
      exact read_exponent_none unmarked

def readUnsigned (negative : Bool) (cs : List Char) : Option (Numeral × List Char) := do
  let (whole, cs) ← readWhole cs
  let (fraction, cs) ← readFraction cs
  let (exponent, cs) ← readExponent cs
  some ({ negative, whole, fraction, exponent }, cs)

theorem read_unsigned_stops (negative : Bool) : Stops (readUnsigned negative) := by
  intro cs n left rest ends found
  obtain ⟨⟨whole, first⟩, wholeFound, found⟩ := Option.bind_eq_some_iff.mp found
  obtain ⟨⟨fraction, second⟩, fractionFound, found⟩ := Option.bind_eq_some_iff.mp found
  obtain ⟨⟨exponent, last⟩, exponentFound, same⟩ := Option.bind_eq_some_iff.mp found
  cases same
  rw [readUnsigned, read_whole_stops _ _ _ _ ends wholeFound]
  dsimp only [Option.bind_eq_bind, Option.bind_some]
  rw [read_fraction_stops _ _ _ _ ends fractionFound]
  dsimp only [Option.bind_some]
  rw [read_exponent_stops _ _ _ _ ends exponentFound]
  rfl

theorem read_numeral_minus (cs : List Char) : readNumeral ('-' :: cs) = readUnsigned true cs := rfl

theorem read_numeral_plain {c : Char} (plain : c ≠ '-') (cs : List Char) :
    readNumeral (c :: cs) = readUnsigned false (c :: cs) := by
  unfold readNumeral
  split
  · rename_i same
    split at same
    · rename_i minus
      cases minus
      exact absurd rfl plain
    · cases same
      rfl

theorem read_numeral_stops : Stops readNumeral := by
  intro cs n left rest ends found
  cases cs with
  | nil => cases found
  | cons c cs =>
    by_cases minus : c = '-'
    · subst minus
      exact read_unsigned_stops true _ _ _ _ ends found
    · rw [read_numeral_plain minus] at found
      rw [List.cons_append, read_numeral_plain minus]
      exact read_unsigned_stops false _ _ _ _ ends found

theorem digit_of_read_whole {c : Char} {found : List Nat × List Char}
    (read : readWhole (c :: cs) = some found) : c.isDigit = true := by
  by_cases zero : c = '0'
  · subst zero
    rfl
  · rw [read_whole_other zero, readSomeDigits] at read
    by_contra other
    rw [if_pos (by simp [readDigits, other])] at read
    cases read

theorem sign_or_digit_of_read {c : Char} {found : Numeral × List Char}
    (read : readNumeral (c :: cs) = some found) : c = '-' ∨ c.isDigit = true := by
  by_cases minus : c = '-'
  · exact .inl minus
  · rw [read_numeral_plain minus] at read
    obtain ⟨whole, wholeFound, -⟩ := Option.bind_eq_some_iff.mp read
    exact .inr (digit_of_read_whole wholeFound)

def number? (cs : List Char) : Option JsonNumber :=
  (readNumeral cs).bind fun found => if found.2 = [] then found.1.value? else none

theorem numeral_of_number {k : JsonNumber} (whole : number? cs = some k) :
    ∃ n : Numeral, n.value? = some k ∧ readNumeral cs = some (n, []) := by
  obtain ⟨⟨n, left⟩, found, value⟩ := Option.bind_eq_some_iff.mp whole
  dsimp only at value
  split at value
  · rename_i nothing
    subst nothing
    exact ⟨n, value, found⟩
  · cases value

end Document

section Integers

theorem leading_digit {n : Nat} (positive : 0 < n) :
    ∃ c cs, Nat.toDigits 10 n = c :: cs ∧ c ≠ '0' := by
  induction n using Nat.strong_induction_on with
  | _ n ih =>
    rw [Nat.toDigits_eq_if (by decide)]
    split
    · exact ⟨_, [], rfl, fun zero => by simp at zero; omega⟩
    · obtain ⟨c, cs, digits, other⟩ := ih (n / 10) (by omega) (by omega)
      exact ⟨c, cs ++ [(n % 10).digitChar], by rw [digits]; rfl, other⟩

theorem digits_are_digits (n : Nat) : ∀ c ∈ Nat.toDigits 10 n, c.isDigit = true :=
  fun _ member => Nat.isDigit_of_mem_toDigits (by decide) (by decide) member

def digitsOf (n : Nat) : List Nat := (Nat.toDigits 10 n).map fun c => c.toNat - '0'.toNat

def writtenInteger (negative : Bool) (n : Nat) : Numeral := ⟨negative, digitsOf n, none, none⟩

theorem of_digits_of (n : Nat) : Numeral.ofDigits (digitsOf n) = n := by
  rw [Numeral.ofDigits, digitsOf, List.foldl_map]
  simp only [Nat.mul_comm _ 10]
  exact Nat.ofDigitChars_ten_toDigits

theorem read_whole_digits (n : Nat) :
    Document.readWhole (Nat.toDigits 10 n) = some (digitsOf n, []) := by
  rcases Nat.eq_zero_or_pos n with rfl | positive
  · rfl
  · have digits : Document.readDigits (Nat.toDigits 10 n) = (digitsOf n, []) := by
      rw [Document.readDigits, List.takeWhile_eq_self_iff.mpr (digits_are_digits n),
        List.dropWhile_eq_nil_iff.mpr (digits_are_digits n), digitsOf]
    -- a number other than zero has no zero in front, so all of its digits are taken
    obtain ⟨c, cs, leading, other⟩ := leading_digit positive
    rw [leading] at digits ⊢
    have nonempty : digitsOf n ≠ [] := by simp [digitsOf, leading]
    rw [Document.read_whole_other other, Document.readSomeDigits, digits, if_neg nonempty]

theorem read_unsigned_digits (negative : Bool) (n : Nat) :
    Document.readUnsigned negative (Nat.toDigits 10 n) = some (writtenInteger negative n, []) := by
  rw [Document.readUnsigned, read_whole_digits]
  rfl

theorem write_natural (n : Nat) : writeInt n = Nat.toDigits 10 n := Nat.toList_repr

theorem write_negative (n : Nat) : writeInt (Int.negSucc n) = '-' :: Nat.toDigits 10 (n + 1) := by
  rw [← Nat.toList_repr]
  exact String.toList_append

theorem read_natural (n : Nat) : Document.readNumeral (Nat.toDigits 10 n) =
    Document.readUnsigned false (Nat.toDigits 10 n) := by
  cases digits : Nat.toDigits 10 n with
  | nil => exact absurd digits Nat.toDigits_ne_nil
  | cons c cs =>
    refine Document.read_numeral_plain ?_ cs
    rintro rfl
    have digit := digits_are_digits n '-' (by rw [digits]; exact List.mem_cons_self)
    exact absurd digit (by decide)

theorem written_natural_value {n : Nat} (fits : n < wordCount) :
    (writtenInteger false n).value? = some (.integer n) := by
  rw [writtenInteger, Numeral.value?, of_digits_of]
  simp [fits]

theorem written_negative_value {n : Nat} (fits : (int64? (Int.negSucc n)).isSome) :
    (writtenInteger true (n + 1)).value? = some (.integer (Int.negSucc n)) := by
  have signed : -((n + 1 : Nat) : Int) = Int.negSucc n := rfl
  rw [writtenInteger, Numeral.value?, of_digits_of, signed]
  simp [fits]

theorem number_of_int (w : Int64) :
    Document.number? (writeInt w.toInt) = some (.integer w.toInt) := by
  have greatest := Int64.le_iff_toInt_le.mp (Int64.le_maxValue w)
  have word := int64?_toInt w
  generalize w.toInt = i at greatest word ⊢
  cases i with
  | ofNat n =>
    have fits : n < wordCount := by
      rw [Int64.toInt_maxValue, Int.ofNat_eq_natCast] at greatest
      rw [wordCount]
      omega
    rw [Document.number?, Int.ofNat_eq_natCast, write_natural, read_natural, read_unsigned_digits]
    exact written_natural_value fits
  | negSucc n =>
    have fits : (int64? (Int.negSucc n)).isSome := by rw [word]; rfl
    rw [Document.number?, write_negative, Document.read_numeral_minus, read_unsigned_digits]
    exact written_negative_value fits

end Integers
end TableAlgebra
