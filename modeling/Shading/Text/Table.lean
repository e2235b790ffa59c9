import Shading.Text.Columns
import Shading.Text.Lines

namespace Shading

/-!
# Tables

Text laid out in columns: a row of titles with a rule under it, rows, and a rule at the bottom.  A
cell may have several lines; a row is as high as its highest cell.
-/

inductive Align
  | left
  | right
  deriving DecidableEq, Repr

/-- A line of text with the columns it takes. -/
structure MeasuredLine where
  text : List Char
  columns : Nat
  deriving Repr

structure Cell where
  lines : List MeasuredLine
  align : Align
  deriving Repr

structure Table where
  titles : Option (List Cell)
  rows : List (List Cell)
  deriving Repr

namespace Cell

/-- The cell that shows a text. -/
def ofText (text : String) (align : Align) : Except Fault Cell := do
  let lines ← (splitLines text.toList).mapM fun line => return ⟨line, ← columns line⟩
  return ⟨lines, align⟩

variable (cell : Cell)

/-- The columns of the widest line. -/
def width : Nat := (cell.lines.map MeasuredLine.columns).foldl max 0

/-- A line of the cell between spaces, filled up to `width`. -/
def padded (width : Nat) (line : MeasuredLine) : String :=
  let space := List.replicate (width - line.columns) ' '
  match cell.align with
  | .left => String.ofList (' ' :: line.text ++ space ++ [' '])
  | .right => String.ofList (' ' :: space ++ line.text ++ [' '])

/-- The lines of the cell, then blank ones up to `height`. -/
def paddedLines (width height : Nat) : List String :=
  let blank := List.replicate (height - cell.lines.length) ⟨[], 0⟩
  (cell.lines ++ blank).map (cell.padded width)

end Cell

namespace Table

/-- The larger of the widths that two rows need, column by column. -/
def widest : List Nat → List Nat → List Nat
  | [], ws => ws
  | vs, [] => vs
  | v :: vs, w :: ws => max v w :: widest vs ws

/-- The width of each column. -/
def widths (table : Table) : List Nat :=
  (table.titles.toList ++ table.rows).foldl (fun ws row => widest ws (row.map Cell.width)) []

/-- The first `height` lines of cells side by side, each cell given by its lines. -/
def sideBySide : Nat → List (List String) → List String
  | 0, _ => []
  | height + 1, cells =>
    let line := " " ++ String.intercalate "│" (cells.map (·.headD "")) ++ " \n"
    line :: sideBySide height (cells.map List.tail)

/-- The lines of one row. -/
def rowText (widths : List Nat) (row : List Cell) : String :=
  let height := (row.map fun cell => cell.lines.length).foldl max 1
  let cells := (row.zip widths).map fun (cell, width) => cell.paddedLines width height
  String.join (sideBySide height cells)

/-- A horizontal rule, with `crossing` where it meets the lines between columns. -/
def ruleText (widths : List Nat) (crossing : String) : String :=
  let dashes := widths.map fun width => String.ofList (List.replicate (width + 2) '─')
  " " ++ String.intercalate crossing dashes ++ " \n"

def text (table : Table) : String :=
  let widths := table.widths
  let head := match table.titles with
    | some titles => rowText widths titles ++ ruleText widths "┼"
    | none => ""
  head ++ String.join (table.rows.map (rowText widths)) ++ ruleText widths "┴"

end Table

end Shading
