import MailMerge.Text.Split
import MailMerge.Text.Width

/-! # Tables

Rows of cells in a frame with round corners. A column is as wide as its widest line and one cell of
space on both sides; a row is as high as its highest cell.
-/

namespace MailMerge.Table

abbrev Row : Type := List String

def cellLines (cell : String) : List (List Char) := fields '\n' cell.toList

def cellWidth (cell : String) : Nat := ((cellLines cell).map lineWidth).foldl max 0

def columnWidths (rows : List Row) : List Nat :=
  rows.foldl (fun widths row => List.zipWith max widths (row.map cellWidth))
    (List.replicate ((rows.map List.length).foldl max 0) 0)

def padLine (width : Nat) (line : List Char) : List Char :=
  ' ' :: line ++ List.replicate (width - lineWidth line) ' ' ++ [' ']

def frame (left between right : Char) (pieces : List (List Char)) : List Char :=
  left :: List.intercalate [between] pieces ++ [right, '\n']

def rule (widths : List Nat) (left between right : Char) : List Char :=
  frame left between right (widths.map fun w => List.replicate (w + 2) '─')

/-- A row, on as many lines as its highest cell has. -/
def renderRow (widths : List Nat) (row : Row) : List Char :=
  let cells := row.map cellLines
  let height := (cells.map List.length).foldl max 0
  (List.range height).flatMap fun i =>
    frame '│' '│' '│' (List.zipWith (fun w lines => padLine w (lines.getD i [])) widths cells)

def render (header : Row) (rows : List Row) : String :=
  let widths := columnWidths (header :: rows)
  String.ofList
    (rule widths '╭' '┬' '╮' ++ renderRow widths header ++ rule widths '├' '┼' '┤' ++
      rows.flatMap (renderRow widths) ++ rule widths '╰' '┴' '╯')

end MailMerge.Table
