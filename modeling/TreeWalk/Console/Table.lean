import TreeWalk.Console.Markup
import TreeWalk.Console.Wrap

/-! # Tables in lines

A table has a title, a heading for each column and rows of cells, set in boxes.  Each
column is as wide as its widest cell with a blank on either side, unless the table
would be wider than the console: then the widest columns give way until it fits.

## Key results

* `Table.plain` takes the markup out of a table.
* `Table.widths` gives the widths of the columns.
* `Table.lines` sets a table in lines. -/

namespace TreeWalk

/-- Takes the markup out of the heading and the cells of a column. -/
def Column.plain (column : Column) : Except Markup.Fault Column := do
  let heading ← Markup.plain column.heading
  return { column with heading, cells := ← column.cells.mapM Markup.plain }

namespace Table

/-- Takes the markup out of a table, beginning with its title. -/
def plain (table : Table) : Except Markup.Fault Table := do
  let title ← Markup.plain table.title
  return { title, columns := ← table.columns.mapM Column.plain }

/-! ## Widths -/

/-- The number of cells of the lines between and around `columns` columns. -/
def frame (columns : Nat) : Nat := columns + 1

/-- The blanks beside a cell. -/
def padding : Nat := 2

/-- The width a column needs, but at most `limit`. -/
def measure (limit : Nat) (column : Column) : Nat :=
  (column.heading :: column.cells).foldl
    (fun width cell => max width (min limit (Wrap.widest cell + padding))) 0

/-- The nearest natural number to the quotient, a half going to the even neighbour. -/
def roundDiv (num den : Nat) : Nat :=
  let quotient := num / den
  let twice := 2 * (num % den)
  if den < twice || (twice = den && quotient % 2 = 1) then quotient + 1 else quotient

/-- Takes `total` away from the columns of width `widest` as evenly as possible, from
    each at most `limit`; `count` of those columns are still to come. -/
def reduce (widest limit : Nat) : Nat → Nat → List Nat → List Nat
  | _, _, [] => []
  | total, count, width :: rest =>
    if width = widest ∧ count ≠ 0 then
      let taken := min limit (roundDiv total count)
      (width - taken) :: reduce widest limit (total - taken) (count - 1) rest
    else width :: reduce widest limit total count rest

/-- The sum of some numbers. -/
def total (ns : List Nat) : Nat :=
  ns.foldl (· + ·) 0

/-- The greatest of some numbers, zero if there are none. -/
def greatest (ns : List Nat) : Nat :=
  ns.foldl max 0

/-- Narrows the widest columns, but none below the next widest, until they take no more
    than `room`; at most `fuel` times. -/
def collapse (room : Nat) : Nat → List Nat → List Nat
  | 0, widths => widths
  | fuel + 1, widths =>
    let excess := total widths - room
    if excess = 0 then widths
    else
      let widest := greatest widths
      let next := greatest (widths.filter (· != widest))
      let narrowed := reduce widest (min excess (widest - next)) excess (widths.count widest) widths
      collapse room fuel narrowed

/-- The widths of the columns on a console of the given width. -/
def widths (width : Nat) (columns : List Column) : List Nat :=
  let room := width - frame columns.length
  let wanted := columns.map fun column => max 1 (measure room column)
  if total wanted ≤ room then wanted
  else
    -- Each round takes away at least one cell, so the sum bounds their number.
    let narrowed := collapse room (total wanted + 1) wanted
    (columns.zip narrowed).map fun entry => measure entry.2 entry.1

/-! ## Lines -/

/-- The lines of a cell in a column of the given width. -/
def cellLines (width : Nat) (column : Column) (cell : List Char) : List (List Char) :=
  if width ≤ padding then []
  else
    (Wrap.justified (width - padding) column.justify column.overflow cell).map fun line =>
      ' ' :: line ++ [' ']

/-- The characters at the start, between columns and at the end of a line. -/
structure Edges where
  start : Char
  between : Char
  stop : Char

/-- Puts the parts of a line between its edges. -/
def enclose (edges : Edges) (parts : List (List Char)) : List Char :=
  edges.start :: [edges.between].intercalate parts ++ [edges.stop]

/-- A line that parts rows. -/
def rule (edges : Edges) (fill : Char) (widths : List Nat) : List Char :=
  enclose edges (widths.map fun width => List.replicate width fill)

/-- The part of a cell that lies on the line with the given number. -/
def partOf (number width : Nat) (lines : List (List Char)) : List Char :=
  lines.getD number (List.replicate width ' ')

/-- The lines of a row of cells, each of a column and with its width. -/
def rowLines (edges : Edges) (cells : List (Nat × List (List Char))) : List (List Char) :=
  let height := greatest (cells.map fun cell => cell.2.length)
  (List.range height).map fun number =>
    enclose edges (cells.map fun cell => partOf number cell.1 cell.2)

/-- The cells of a row. -/
def row (widths : List Nat) (columns : List Column) (pick : Column → List Char) :
    List (Nat × List (List Char)) :=
  (widths.zip columns).map fun entry => (entry.1, cellLines entry.1 entry.2 (pick entry.2))

/-- How many rows there are below the headings. -/
def height (columns : List Column) : Nat :=
  greatest (columns.map fun column => column.cells.length)

/-- The lines of a table whose columns have the given widths. -/
def linesOf (ws : List Nat) (table : Table) : List (List Char) :=
  let columns := table.columns
  let heads := rowLines ⟨'┃', '┃', '┃'⟩ (row ws columns Column.heading)
  let body := (List.range (height columns)).flatMap fun number =>
    rowLines ⟨'│', '│', '│'⟩ (row ws columns fun column => column.cells.getD number [])
  Wrap.justified (total ws + frame columns.length) .center .fold table.title ++
    rule ⟨'┏', '┳', '┓'⟩ '━' ws :: heads ++ rule ⟨'┡', '╇', '┩'⟩ '━' ws :: body ++
    [rule ⟨'└', '┴', '┘'⟩ '─' ws]

/-- The lines of a table on a console of the given width; what is wider than the
    console, as a frame can be, is cut off. -/
def lines (width : Nat) (table : Table) : List (List Char) :=
  (linesOf (widths width table.columns) table).map (Wrap.crop width)

end Table

end TreeWalk
