import TableAlgebra.Proofs.Json.Numbers
import TableAlgebra.Proofs.Value.JsonForm

namespace TableAlgebra

def NoControl (text : List Char) : Prop := ∀ c ∈ text, 32 ≤ c.toNat

@[simp] theorem no_control_nil : NoControl [] := by simp [NoControl]

@[simp] theorem no_control_cons {c : Char} {text : List Char} :
    NoControl (c :: text) ↔ 32 ≤ c.toNat ∧ NoControl text := List.forall_mem_cons

@[simp] theorem no_control_append {text rest : List Char} :
    NoControl (text ++ rest) ↔ NoControl text ∧ NoControl rest := List.forall_mem_append

theorem no_control_take {text : List Char} (plain : NoControl text) (n : Nat) :
    NoControl (text.take n) :=
  fun c member => plain c (List.mem_of_mem_take member)

theorem no_control_drop {text : List Char} (plain : NoControl text) (n : Nat) :
    NoControl (text.drop n) :=
  fun c member => plain c (List.mem_of_mem_drop member)

theorem no_control_digits (n : Nat) : NoControl (Nat.toDigits 10 n) := by
  intro c member
  have digit := digits_are_digits n c member
  rw [Char.isDigit_iff_toNat] at digit
  exact Nat.le_trans (by decide) digit.1

section Strings

theorem no_control_hex (n : Nat) : 32 ≤ (hexDigit n).toNat := by
  have small : ∀ m < 16, 32 ≤ (Nat.digitChar m).toNat := by decide
  exact small (n % 16) (Nat.mod_lt n (by decide))

theorem no_control_escaped (c : Char) : NoControl (escapeChar c) := by
  unfold escapeChar
  split
  case h_8 =>
    split
    · simp [no_control_hex]
    · rename_i visible
      simpa using visible
  all_goals simp

theorem no_control_quoted (s : String) : NoControl (quoted s) := by
  have inside : NoControl (s.toList.flatMap escapeChar) := by
    intro c member
    obtain ⟨d, -, written⟩ := List.mem_flatMap.mp member
    exact no_control_escaped d c written
  simp [quoted, inside]

end Strings

section Numbers

variable {digits : List Char}

theorem no_control_zeros (n : Nat) : NoControl (NumberFormat.zeros n) := by
  intro c member
  rw [List.eq_of_mem_replicate member]
  decide

theorem no_control_positional (format : NumberFormat) (plain : NoControl digits) (before : Int) :
    NoControl (format.positionalDigits digits before) := by
  rw [NumberFormat.positionalDigits]
  split
  · simp [no_control_zeros, plain]
  · split
    · split <;> simp [no_control_zeros, plain]
    · simp [no_control_take plain, no_control_drop plain]

theorem no_control_exponent (plain : NoControl digits) (exponent : Int) :
    NoControl (NumberFormat.exponentDigits digits exponent) := by
  have sign : 32 ≤ (if exponent < 0 then '-' else '+').toNat := by split <;> decide
  have fraction : NoControl (if (digits.drop 1).isEmpty then [] else '.' :: digits.drop 1) := by
    split
    · exact no_control_nil
    · exact no_control_cons.mpr ⟨by decide, no_control_drop plain 1⟩
  rw [NumberFormat.exponentDigits, no_control_append, no_control_append]
  exact ⟨⟨no_control_take plain 1, fraction⟩, by simp [sign, no_control_digits]⟩

theorem no_control_decimal (format : NumberFormat) (d : Decimal) :
    NoControl (format.decimal d) := by
  have plain := no_control_digits d.digits
  rw [NumberFormat.decimal]
  exact iteInduction (fun _ => no_control_positional format plain _)
    (fun _ => no_control_exponent plain _)

theorem no_control_int (i : Int) : NoControl (writeInt i) := by
  cases i with
  | ofNat n =>
    rw [Int.ofNat_eq_natCast, write_natural]
    exact no_control_digits n
  | negSucc n =>
    rw [write_negative]
    exact no_control_cons.mpr ⟨by decide, no_control_digits (n + 1)⟩

theorem no_control_real (x : Binary64) : NoControl (writeReal x) := by
  have null : NoControl "null".toList := by simp
  rw [writeReal]
  split
  · rw [NumberFormat.write]
    split
    · exact null
    · rw [no_control_append]
      constructor
      · split <;> simp
      · split
        · exact null
        · exact no_control_decimal _ _
  · exact null

end Numbers

theorem no_control_separated {parts : List (List Char)} (plain : ∀ part ∈ parts, NoControl part) :
    NoControl (commaSeparated parts) := by
  induction parts with
  | nil => exact no_control_nil
  | cons part rest ih =>
    rw [List.forall_mem_cons] at plain
    cases rest with
    | nil => exact plain.1
    | cons next rest =>
      rw [commaSeparated]
      · simp [plain.1, ih plain.2]
      · simp

namespace Value

theorem no_control_write (v : Value) : NoControl v.write := by
  induction v using structural_induction with
  | null => simp [write]
  | bool b => cases b <;> simp [write, writeBool]
  | int i => exact no_control_int _
  | float x => exact no_control_real x
  | str s => exact no_control_quoted s
  | list items ih =>
    have inside : NoControl (commaSeparated (writeItems items)) := by
      rw [write_items_eq]
      exact no_control_separated (List.forall_mem_map.mpr ih)
    simp [write, inside]
  | record entries ih =>
    have inside : NoControl (commaSeparated (writeEntries entries)) := by
      rw [write_entries_eq]
      refine no_control_separated (List.forall_mem_map.mpr fun entry member => ?_)
      simp [no_control_quoted, ih entry member]
    simp [write, inside]

end Value
end TableAlgebra
