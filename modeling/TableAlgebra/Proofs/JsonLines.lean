import TableAlgebra.JsonLines
import TableAlgebra.Proofs.Json.NoControl
import TableAlgebra.Proofs.Value.Reading

namespace TableAlgebra

variable {table : Table}

theorem Row.no_line_feed (row : Row) : '\n' ∉ row.write := by
  intro inside
  have visible := Value.no_control_write row.toRecord '\n' inside
  exact absurd visible (by decide)

theorem Table.lines_of_cells {other : Table}
    (same : other.rows.map Row.cells = table.rows.map Row.cells) : other.lines = table.lines := by
  have shown (t : Table) :
      t.lines = (t.rows.map Row.cells).flatMap fun cells => (Row.ofCells cells).line := by
    rw [List.flatMap_map]
    rfl
  rw [shown, shown, same]

namespace LineWriter

theorem write_table_eq (writer : LineWriter) (table : Table) :
    writer.writeTable table = ⟨writer.rowsWritten + table.size, writer.text ++ table.lines⟩ := by
  have rows_written (rows : List Row) : rows.foldl writeRow writer =
      ⟨writer.rowsWritten + rows.length, writer.text ++ rows.flatMap Row.line⟩ := by
    induction rows generalizing writer with
    | nil => simp
    | cons row rest ih =>
      rw [List.foldl_cons, ih, writeRow]
      simp only [List.length_cons, List.flatMap_cons, List.append_assoc, mk.injEq, and_true]
      omega
  exact rows_written table.rows

/-- JSON lines keep a table. The writer counts every row and adds a line for each,
ended by a line feed and without another one. The line of a row is read again as
the cells that JSON keeps, if each of its finite binary64 numbers is what its own
text is read as and its nesting is not too deep for the reader. Nothing beside the
cells shows in the text. -/
theorem lines_read_again (writer : LineWriter) (table : Table) :
    (writer.writeTable table).rowsWritten = writer.rowsWritten + table.size ∧
    (∃ lines : List (List Char), lines.length = table.size ∧ (∀ line ∈ lines, '\n' ∉ line) ∧
      (writer.writeTable table).text = writer.text ++ lines.flatMap (· ++ ['\n']) ∧
      List.Forall₂ (fun row line => row.toRecord.WellFormed →
        row.toRecord.Everywhere Value.ReadsBack → row.toRecord.depth ≤ Document.maxDepth →
        Row.parse? (String.ofList line) = some row.jsonForm) table.rows lines) ∧
    ∀ other : Table, other.rows.map Row.cells = table.rows.map Row.cells →
      writer.writeTable other = writer.writeTable table := by
  have listed : table.lines = (table.rows.map Row.write).flatMap (· ++ ['\n']) := by
    rw [List.flatMap_map]
    rfl
  rw [write_table_eq]
  refine ⟨rfl, ⟨table.rows.map Row.write, List.length_map _, ?_, ?_, ?_⟩, ?_⟩
  · exact List.forall_mem_map.mpr fun row _ => row.no_line_feed
  · rw [listed]
  · exact List.forall₂_map_right_iff.mpr (List.forall₂_same.mpr fun row _ => row.parse_write)
  · intro other same
    have size : other.size = table.size := by
      simpa [Table.size] using congrArg List.length same
    rw [write_table_eq, size, Table.lines_of_cells same]

end LineWriter

/-- A row with a line feed, a quote and a control character in a name and in a
text, the least integer, both kinds of one, a zero with a sign, a number that is
not finite, and a list in a record. -/
def oddRow : Row where
  cells := .ofList
    [("a \"name\"\n", .str "first\nsecond\\\t\x01é"), ("least", .int Int64.minValue),
      ("one", .int 1), ("real one", .float ⟨0x3ff0000000000000⟩),
      ("zero", .float .negativeZero), ("nothing", .float .nan),
      ("inner", .record [("items", .list [.null, .bool true, .float ⟨0x3fb999999999999a⟩])])]
  provenance := some (.pair 3 4)
  members := some [.empty]

theorem odd_row_read_again :
    oddRow.toRecord.WellFormed ∧ oddRow.toRecord.Everywhere Value.ReadsBack ∧
    oddRow.toRecord.depth ≤ Document.maxDepth ∧
    ∃ line, '\n' ∉ line ∧ (LineWriter.empty.writeTable ⟨"t", [oddRow]⟩).text = line ++ ['\n'] ∧
      LineWriter.empty.writeTable ⟨"", [oddRow.visible]⟩ =
        LineWriter.empty.writeTable ⟨"t", [oddRow]⟩ ∧
      Row.parse? (String.ofList line) = some oddRow.jsonForm := by
  have formed : oddRow.toRecord.WellFormed := by decide +kernel
  have back : oddRow.toRecord.Everywhere Value.ReadsBack := by decide +kernel
  have shallow : oddRow.toRecord.depth ≤ Document.maxDepth := by decide +kernel
  obtain ⟨-, ⟨lines, size, framed, text, read⟩, hidden⟩ :=
    LineWriter.lines_read_again .empty ⟨"t", [oddRow]⟩
  obtain ⟨line, rfl⟩ := List.length_eq_one_iff.mp size
  refine ⟨formed, back, shallow, line, framed line (List.mem_singleton_self line), ?_,
    hidden ⟨"", [oddRow.visible]⟩ rfl, ?_⟩
  · rw [text, List.flatMap_singleton]
    rfl
  · cases read with
    | cons first _ => exact first formed back shallow

section Sinks

theorem byte_count_append (text rest : List Char) :
    byteCount (text ++ rest) = byteCount text + byteCount rest := by
  rw [byteCount, String.ofList_append, String.utf8ByteSize_append]
  rfl

theorem byte_count_flatten (pieces : List (List Char)) :
    (pieces.map byteCount).sum = byteCount pieces.flatten := by
  induction pieces with
  | nil => rfl
  | cons piece rest ih =>
    rw [List.map_cons, List.sum_cons, List.flatten_cons, byte_count_append, ih]

namespace Outlet

variable {outlet next : Outlet}

theorem flush_taken (taken : outlet.flush = (next, true)) :
    next.held = 0 ∧ next.room + outlet.held = outlet.room := by
  simp only [flush, Prod.mk.injEq, decide_eq_true_eq] at taken
  obtain ⟨rfl, fits⟩ := taken
  exact ⟨Nat.sub_eq_zero_of_le fits, Nat.sub_add_cancel fits⟩

theorem put_taken {size : Nat} (taken : outlet.put size = (next, true)) :
    next.room + outlet.held + size = outlet.room + next.held := by
  have emptied : ∀ kept, (if bufferSize < outlet.held + size then outlet.flush
      else (outlet, true)) = (kept, true) → kept.room + outlet.held = outlet.room + kept.held := by
    intro kept made
    split at made
    · have flushed := flush_taken made
      omega
    · cases made
      rfl
  unfold put at taken
  cases made : (if bufferSize < outlet.held + size then outlet.flush else (outlet, true)) with
  | mk kept flushed =>
    rw [made] at taken
    cases flushed with
    | false => simp at taken
    | true =>
      have before := emptied kept made
      simp only [Bool.not_true, Bool.false_eq_true, if_false] at taken
      split at taken
      · cases taken
        dsimp only
        omega
      · simp only [Prod.mk.injEq, decide_eq_true_eq] at taken
        obtain ⟨rfl, fits⟩ := taken
        dsimp only
        omega

theorem put_all_taken {sizes : List Nat} (taken : outlet.putAll sizes = (next, true)) :
    next.room + outlet.held + sizes.sum = outlet.room + next.held := by
  induction sizes generalizing outlet with
  | nil =>
    cases taken
    rfl
  | cons size rest ih =>
    rw [putAll] at taken
    split at taken
    · rename_i kept first
      have here := put_taken first
      have later := ih taken
      rw [List.sum_cons]
      omega
    · rename_i failed
      exact absurd taken (failed next)

end Outlet

namespace SinkWriter

variable {writer next : SinkWriter}

theorem write_row_taken {row : Row} (taken : writer.writeRow row = (next, none)) :
    next.rowsWritten = writer.rowsWritten + 1 ∧
      next.outlet.room + writer.outlet.held + byteCount row.line =
        writer.outlet.room + next.outlet.held := by
  rw [writeRow] at taken
  split at taken
  · cases taken
  · rename_i inside pieces
    split at taken
    · cases taken
    · rename_i outlet feed
      cases taken
      have row_taken := Outlet.put_all_taken pieces
      have feed_taken := Outlet.put_taken feed
      rw [byte_count_flatten, Row.flatten_pieces] at row_taken
      rw [Row.line, byte_count_append]
      exact ⟨rfl, by dsimp only; omega⟩

theorem write_rows_taken {rows : List Row} (taken : writer.writeRows rows = (next, none)) :
    next.rowsWritten = writer.rowsWritten + rows.length ∧ next.outlet.held = 0 ∧
      next.outlet.room + writer.outlet.held + byteCount (rows.flatMap Row.line) =
        writer.outlet.room := by
  induction rows generalizing writer with
  | nil =>
    have flushed : writer.outlet.flush = (writer.outlet.flush.1, true) := by
      cases emptied : writer.outlet.flush with
      | mk kept done =>
        cases done with
        | true => rfl
        | false => simp [writeRows, emptied] at taken
    have before := Outlet.flush_taken flushed
    rw [writeRows, flushed] at taken
    cases taken
    exact ⟨rfl, before⟩
  | cons row rest ih =>
    rw [writeRows] at taken
    split at taken
    · rename_i kept first
      have here := write_row_taken first
      have later := ih taken
      rw [List.length_cons, List.flatMap_cons, byte_count_append]
      omega
    · rename_i failed
      exact absurd taken (failed next)

/-- A sink that takes a table without a fault has counted every row and taken the
bytes that were held and those of the lines, and nothing else. -/
theorem write_table_taken (taken : writer.writeTable table = (next, none)) :
    next.rowsWritten = writer.rowsWritten + table.size ∧ next.outlet.held = 0 ∧
      next.outlet.room + writer.outlet.held + byteCount table.lines = writer.outlet.room :=
  write_rows_taken taken

end SinkWriter

end Sinks

end TableAlgebra
