import TableAlgebra.Value.Json

/-!
The pieces in which the JSON text of a value is handed on: brackets and
separators, the quotes of a string, the runs between its escapes, each escape,
each number. Together they are the text.
-/
namespace TableAlgebra

def runPiece (run : List Char) : List (List Char) := if run.isEmpty then [] else [run.reverse]

def escapedPieces (run : List Char) : List Char → List (List Char)
  | [] => runPiece run
  | c :: rest =>
    if escapeChar c = [c] then escapedPieces (c :: run) rest
    else runPiece run ++ escapeChar c :: escapedPieces [] rest

def quotedPieces (s : String) : List (List Char) := ['"'] :: escapedPieces [] s.toList ++ [['"']]

theorem flatten_run_piece (run : List Char) : (runPiece run).flatten = run.reverse := by
  cases run <;> simp [runPiece]

theorem flatten_escaped_pieces (cs run : List Char) :
    (escapedPieces run cs).flatten = run.reverse ++ cs.flatMap escapeChar := by
  induction cs generalizing run with
  | nil => simp [escapedPieces, flatten_run_piece]
  | cons c rest ih =>
    by_cases plain : escapeChar c = [c]
    · simp [escapedPieces, plain, ih]
    · simp [escapedPieces, plain, ih, flatten_run_piece]

theorem flatten_quoted_pieces (s : String) : (quotedPieces s).flatten = quoted s := by
  simp [quotedPieces, quoted, flatten_escaped_pieces]

namespace Value

mutual

def pieces : Value → List (List Char)
  | null => ["null".toList]
  | bool b => [writeBool b]
  | int i => [writeInt i.toInt]
  | float x => [writeReal x]
  | str s => quotedPieces s
  | list items => ['['] :: itemPieces items ++ [[']']]
  | record entries => ['{'] :: entryPieces entries ++ [['}']]

def itemPieces : List Value → List (List Char)
  | [] => []
  | item :: rest => item.pieces ++ laterItemPieces rest

def laterItemPieces : List Value → List (List Char)
  | [] => []
  | item :: rest => [','] :: item.pieces ++ laterItemPieces rest

def entryPieces : List (String × Value) → List (List Char)
  | [] => []
  | (name, value) :: rest => quotedPieces name ++ [':'] :: value.pieces ++ laterEntryPieces rest

def laterEntryPieces : List (String × Value) → List (List Char)
  | [] => []
  | (name, value) :: rest =>
    [','] :: quotedPieces name ++ [':'] :: value.pieces ++ laterEntryPieces rest

end

theorem comma_separated_cons (part : List Char) (rest : List (List Char)) :
    commaSeparated (part :: rest) = part ++ rest.flatMap (',' :: ·) := by
  induction rest generalizing part with
  | nil => simp [commaSeparated]
  | cons next rest ih => simp [commaSeparated, ih]

mutual

theorem flatten_pieces : (v : Value) → v.pieces.flatten = v.write
  | null => rfl
  | bool b => by simp [pieces, write]
  | int i => by simp [pieces, write]
  | float x => by simp [pieces, write]
  | str s => by simp [pieces, write, flatten_quoted_pieces]
  | list items => by simp [pieces, write, flatten_item_pieces items]
  | record entries => by simp [pieces, write, flatten_entry_pieces entries]

theorem flatten_item_pieces :
    (items : List Value) → (itemPieces items).flatten = commaSeparated (writeItems items)
  | [] => rfl
  | item :: rest => by
    simp [itemPieces, writeItems, comma_separated_cons, flatten_pieces item,
      flatten_later_item_pieces rest]

theorem flatten_later_item_pieces :
    (items : List Value) →
      (laterItemPieces items).flatten = (writeItems items).flatMap (',' :: ·)
  | [] => rfl
  | item :: rest => by
    simp [laterItemPieces, writeItems, flatten_pieces item, flatten_later_item_pieces rest]

theorem flatten_entry_pieces :
    (entries : List (String × Value)) →
      (entryPieces entries).flatten = commaSeparated (writeEntries entries)
  | [] => rfl
  | (name, value) :: rest => by
    simp [entryPieces, writeEntries, comma_separated_cons, flatten_pieces value,
      flatten_quoted_pieces, flatten_later_entry_pieces rest]

theorem flatten_later_entry_pieces :
    (entries : List (String × Value)) →
      (laterEntryPieces entries).flatten = (writeEntries entries).flatMap (',' :: ·)
  | [] => rfl
  | (name, value) :: rest => by
    simp [laterEntryPieces, writeEntries, flatten_pieces value, flatten_quoted_pieces,
      flatten_later_entry_pieces rest]

end

end Value
end TableAlgebra
