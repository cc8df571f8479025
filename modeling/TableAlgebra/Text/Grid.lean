import TableAlgebra.Text.Width

/-!
Text tables with borders. A cell is a list of lines; a column is as wide as its
widest line, and at least one column of the terminal. A blank stands on both
sides of each cell.
-/
namespace TableAlgebra

structure Border where
  left : Char
  fill : Char
  cross : Char
  right : Char
deriving DecidableEq, Repr

namespace Grid

def top : Border := ⟨'╭', '─', '┬', '╮'⟩
def belowHeader : Border := ⟨'╞', '═', '╪', '╡'⟩
def betweenRows : Border := ⟨'├', '╌', '┼', '┤'⟩
def bottom : Border := ⟨'╰', '─', '┴', '╯'⟩

abbrev Line := List Char

abbrev Cell := List Line

def linesOf : Line → Cell
  | [] => [[]]
  | c :: rest =>
    if c = '\n' then [] :: linesOf rest
    else
      match linesOf rest with
      | [] => [[c]]
      | line :: others => (c :: line) :: others

def cellWidth (cell : Cell) : Nat := (cell.map displayWidth).foldl max 1

def widen : List Nat → List Cell → List Nat
  | width :: widths, cell :: cells => max width (cellWidth cell) :: widen widths cells
  | widths, _ => widths

def separated (separator : Char) : List Line → Line
  | [] => []
  | [part] => part
  | part :: rest => part ++ separator :: separated separator rest

def borderLine (border : Border) (widths : List Nat) : Line :=
  border.left ::
    separated border.cross (widths.map fun width => List.replicate (width + 2) border.fill) ++
      [border.right]

def padded (width : Nat) (line : Line) : Line :=
  ' ' :: line ++ List.replicate (width - displayWidth line) ' ' ++ [' ']

def rowLines (widths : List Nat) (cells : List Cell) : List Line :=
  let height := (cells.map List.length).foldl max 0
  (List.range height).map fun i =>
    '│' :: separated '┆' (cells.zipWith (fun cell width => padded width (cell.getD i [])) widths) ++
      ['│']

def bodyLines (widths : List Nat) : List (List Cell) → List Line
  | [] => []
  | [row] => rowLines widths row
  | row :: rest => rowLines widths row ++ borderLine betweenRows widths :: bodyLines widths rest

def render (header : List Cell) (rows : List (List Cell)) : List Line :=
  let widths := rows.foldl widen (header.map cellWidth)
  borderLine top widths :: rowLines widths header ++
    borderLine belowHeader widths :: bodyLines widths rows ++ [borderLine bottom widths]

end Grid
end TableAlgebra
