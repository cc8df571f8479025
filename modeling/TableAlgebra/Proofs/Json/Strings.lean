import TableAlgebra.Json.Writer

namespace TableAlgebra

theorem Piece.join_unit {n : Nat} (first : isFirstSurrogate n = false)
    (second : isSecondSurrogate n = false) (before : List Char) (pieces : List Piece) :
    joinTo before (unit n :: pieces) = joinTo (Char.ofNat n :: before) pieces := by
  cases pieces with
  | nil => simp [joinTo, first, second]
  | cons piece pieces => cases piece <;> simp [joinTo, first, second]

namespace Document

theorem hex_value_digit (n : Nat) : hexValue? (hexDigit n) = some (n % 16) := by
  have small : ∀ m < 16, hexValue? (Nat.digitChar m) = some m := by decide
  exact small (n % 16) (Nat.mod_lt n (by decide))

structure Written (c : Char) (piece : Piece) : Prop where
  read : ∀ before rest,
    readPieces .outside before (escapeChar c ++ rest) = readPieces .outside (piece :: before) rest
  meant : ∀ before pieces,
    Piece.joinTo before (piece :: pieces) = Piece.joinTo (c :: before) pieces

theorem control_written {c : Char} (control : c.toNat < 32)
    (escaped : escapeChar c =
      ['\\', 'u', '0', '0', hexDigit (c.toNat / 16), hexDigit c.toNat]) :
    Written c (.unit c.toNat) := by
  constructor
  · intro before rest
    have first := hex_value_digit (c.toNat / 16)
    have second := hex_value_digit c.toNat
    have value : c.toNat / 16 % 16 * 16 + c.toNat % 16 = c.toNat := by omega
    have zero : hexValue? '0' = some 0 := by decide
    rw [escaped]
    simp [readPieces, zero, first, second, value]
  · intro before pieces
    have plain : Piece.isFirstSurrogate c.toNat = false ∧
        Piece.isSecondSurrogate c.toNat = false := by
      simp [Piece.isFirstSurrogate, Piece.isSecondSurrogate]
      omega
    rw [Piece.join_unit plain.1 plain.2, Char.ofNat_toNat]

theorem character_written (c : Char) : ∃ piece, Written c piece := by
  by_cases short : c ∈ ['"', '\\', '\x08', '\t', '\n', '\x0c', '\r']
  · refine ⟨.char c, ?_, fun before pieces => rfl⟩
    intro before rest
    simp only [List.mem_cons, List.not_mem_nil, or_false] at short
    rcases short with rfl | rfl | rfl | rfl | rfl | rfl | rfl <;> rfl
  · -- all other characters differ only in being control characters or not
    have plain : escapeChar c = if c.toNat < 32 then
        ['\\', 'u', '0', '0', hexDigit (c.toNat / 16), hexDigit c.toNat] else [c] := by
      unfold escapeChar
      split <;> simp_all
    by_cases control : c.toNat < 32
    · rw [if_pos control] at plain
      exact ⟨_, control_written control plain⟩
    · rw [if_neg control] at plain
      refine ⟨.char c, ?_, fun before pieces => rfl⟩
      intro before rest
      have quote : c ≠ '"' := by
        rintro rfl
        simp at short
      have backslash : c ≠ '\\' := by
        rintro rfl
        simp at short
      rw [plain, List.singleton_append, readPieces, if_neg quote, if_neg backslash, if_neg control]

theorem characters_written (cs : List Char) : ∃ pieces,
    (∀ read rest, readPieces .outside read (cs.flatMap escapeChar ++ '"' :: rest) =
      some (read.reverse ++ pieces, rest)) ∧
    ∀ before, Piece.joinTo before pieces = some (String.ofList (before.reverse ++ cs)) := by
  induction cs with
  | nil =>
    refine ⟨[], fun read rest => ?_, fun before => ?_⟩
    · simp [readPieces]
    · simp [Piece.joinTo]
  | cons c cs ih =>
    obtain ⟨piece, written⟩ := character_written c
    obtain ⟨pieces, found, meant⟩ := ih
    refine ⟨piece :: pieces, fun read rest => ?_, fun before => ?_⟩
    · rw [List.flatMap_cons, List.append_assoc, written.read, found]
      simp
    · rw [written.meant, meant]
      simp

/-- A written string is read as pieces that stand for it. -/
theorem string_written (s : String) : ∃ pieces, Piece.join? pieces = some s ∧
    ∀ rest, readString (quoted s ++ rest) = some (pieces, rest) := by
  obtain ⟨pieces, found, meant⟩ := characters_written s.toList
  refine ⟨pieces, (meant []).trans (by simp), fun rest => ?_⟩
  have shape : quoted s ++ rest = '"' :: (s.toList.flatMap escapeChar ++ '"' :: rest) := by
    simp [quoted]
  rw [shape, readString, found]
  simp

end Document
end TableAlgebra
