import TrellisTagger.Text.Blank
import TrellisTagger.Text.Control
import TrellisTagger.Text.Lines

/-!
# Boxed tables

A table of texts between double and single lines. Every column is as wide as its widest line, or two
more than its heading; cells of several lines fill up with blank ones below. Only what a console
shows counts for the width. Some rows are rules: nothing but the line that stands between two rows.

## Main definitions

* `TrellisTagger.Box.Layout` — what the layout of all cells depends on.
* `TrellisTagger.Box.Column` — a heading, the side to which the cells keep, and the cells.
* `TrellisTagger.Box.draw` — the lines of a table.

## Implementation notes

As long as no cell has a line feed or a carriage return, every cell is one line, whatever else it
holds. A rule stands for itself only where a row follows it. At the end of a table it is shown as
its mark; and rules beyond the number of rows push the rows behind them out.
-/

namespace TrellisTagger.Box

/-- The sides to which cells can keep. -/
inductive Side where
  /-- Blanks come after the text. -/
  | left
  /-- Blanks come before the text. -/
  | right
  deriving DecidableEq

/-- Whether a character ends a line of a cell in any table. -/
def isLineEnd (c : Char) : Bool := c == '\n' || c == '\r'

/-- What the layout of all cells depends on. -/
structure Layout where
  /-- Whether cells have several lines. -/
  broken : Bool
  /-- Whether cells have control sequences. -/
  coloured : Bool

/-- The layout that some texts call for. -/
def Layout.ofTexts (texts : List (List Char)) : Layout :=
  let all := ['\t'].intercalate texts
  ⟨all.any isLineEnd, !(controlSequences all).isEmpty⟩

/-- A column of a table. -/
structure Column where
  /-- The heading. -/
  heading : List Char
  /-- The side to which heading and cells keep. -/
  side : Side
  /-- The texts of the cells. -/
  texts : List (List Char)

namespace Column

/-- The texts as they are drawn. Blanks around a text that keeps to the left are dropped. -/
def drawn (c : Column) : List (List Char) :=
  match c.side with
  | .left => c.texts.map strip
  | .right => c.texts

/-- The side to which the heading keeps. Without cells there is nothing to align with, and headings
keep to the left. -/
def headingSide (c : Column) : Side := if c.texts.isEmpty then .left else c.side

end Column

/-- A text, filled up to a width. -/
def fill (side : Side) (width : Nat) (text : List Char) : List Char :=
  let blanks := List.replicate (width - text.length) ' '
  match side with
  | .left => text ++ blanks
  | .right => blanks ++ text

namespace Layout

variable (layout : Layout)

/-- The width of a cell. -/
def cellWidth (text : List Char) : Nat :=
  ((if layout.broken then pieces isLineEnd text else [text]).map visibleWidth).foldl max 0

/-- The lines of a cell. -/
def cellLines (text : List Char) : List (List Char) :=
  if layout.broken then shownLines text else [text]

/-- The width to which a line is filled up, so that a number of its characters shows. -/
def fullWidth (width : Nat) (line : List Char) : Nat := width + (line.length - visibleWidth line)

/-- A cell with all of its lines filled up to a width. Where there are control sequences, a line is
filled up by as much as the piece of the cell between line feeds and carriage returns at its place
wants. -/
def fillCell (side : Side) (width : Nat) (text : List Char) : List Char :=
  if layout.broken then
    let widths :=
      if layout.coloured then (pieces isLineEnd text).map (fullWidth width)
      else (shownLines text).map fun _ => width
    ['\n'].intercalate (((shownLines text).zip widths).map fun (line, w) => fill side w line)
  else fill side (fullWidth width text) text

/-- The cells of a column, filled up to the width of the widest one. -/
def fillCells (column : Column) : List (List Char) :=
  let width := (column.drawn.map layout.cellWidth).foldl max (column.heading.length + 2)
  column.drawn.map (layout.fillCell column.side width)

/-- The width of a column. -/
def width (column : Column) : Nat :=
  ((layout.fillCells column).map layout.cellWidth).foldl max (column.heading.length + 2)

end Layout

/-- A border: its two ends, its crossings, and the line between them. -/
structure Border where
  /-- The left end. -/
  first : Char
  /-- The line. -/
  line : Char
  /-- The crossing between two columns. -/
  cross : Char
  /-- The right end. -/
  last : Char

/-- Join the parts of a line of a table. -/
def join (first cross last : Char) (parts : List (List Char)) : List Char :=
  first :: ([cross].intercalate parts ++ [last])

/-- A border over columns of some widths. -/
def Border.draw (b : Border) (widths : List Nat) : List Char :=
  join b.first b.cross b.last (widths.map fun w => List.replicate (w + 2) b.line)

/-- The lines of a row of cells, each of which is filled up to the width of its column. -/
def drawRow (layout : Layout) (widths : List Nat) (row : List (List Char)) : List (List Char) :=
  let cells := row.map layout.cellLines
  let height := (cells.map List.length).foldl max 0
  (List.range height).map fun i =>
    join '│' '│' '│' ((widths.zip cells).map fun (width, lines) =>
      ' ' :: (lines.getD i (List.replicate width ' ') ++ [' ']))

/-- The character that marks a rule. -/
def ruleMark : Char := '\x01'

/-- A rule behind the last row. -/
def drawLastRule (layout : Layout) : List Char :=
  '│' :: ((if layout.broken then [' ', ruleMark, ' '] else [ruleMark]) ++ ['│'])

/-- The border above a table. -/
def top : Border := ⟨'╒', '═', '╤', '╕'⟩

/-- The border below the headings. -/
def below : Border := ⟨'╞', '═', '╪', '╡'⟩

/-- The border between two rows. -/
def between : Border := ⟨'├', '─', '┼', '┤'⟩

/-- The border below a table. -/
def bottom : Border := ⟨'╘', '═', '╧', '╛'⟩

/-- Put rows where no rule stands. -/
def amongRules {α : Type} : List Bool → List α → List (Option α)
  | true :: rules, rows => none :: amongRules rules rows
  | false :: rules, row :: rows => some row :: amongRules rules rows
  | _, _ => []

/-- The lines between the headings and the end of a table, given the lines of the rows. -/
def body (layout : Layout) (line : List Char) (rules : List Bool) (rows : List (List (List Char))) :
    List (List Char) :=
  let all := amongRules rules rows
  let last := all.getLast?.elim [] fun row => row.getD [drawLastRule layout]
  (all.dropLast.take rows.length).flatMap (fun row => row.getD [] ++ [line]) ++ last

/-- The lines of a table. For each row, or rule in place of a row, it is said whether it is a rule;
the columns have the cells of the rows only. -/
def draw (layout : Layout) (columns : List Column) (rules : List Bool) : List (List Char) :=
  let widths := columns.map layout.width
  let cells := columns.map layout.fillCells
  let headings := (widths.zip columns).map fun (width, c) => fill c.headingSide width c.heading
  let rows := (List.range (rules.countP fun isRule => !isRule)).map fun i =>
    drawRow layout widths (cells.map fun column => column.getD i [])
  top.draw widths :: (drawRow layout widths headings ++
    below.draw widths :: (body layout (between.draw widths) rules rows ++ [bottom.draw widths]))

end TrellisTagger.Box
