import TreeWalk.Console.Cells
import TreeWalk.Terminal
import TreeWalk.Text.Blank

/-! # Wrapping

A text is set in lines of a given width in cells.  Words keep the blanks after them,
and a word goes to a new line if it does not fit on the one begun.  A word wider than
a line is cut into pieces or left to be cut off.  Blanks at the end of a line count
only as far as they fit.

## Key results

* `Wrap.lines` sets a text in lines.
* `Wrap.justified` sets a text in lines that all have the full width. -/

namespace TreeWalk

namespace Wrap

/-- Control characters that never reach the console. -/
def isDropped (c : Char) : Bool :=
  c == '\x07' || c == '\x08' || c == '\x0b' || c == '\x0c' || c == '\r'

/-- The characters of a text that reach the console. -/
def printable (text : List Char) : List Char :=
  text.filter fun c => !isDropped c

/-! ## Lines and words of a text -/

/-- The pieces of a text between the characters of a class. -/
def splitAt (isSeparator : Char → Bool) : List Char → List (List Char)
  | [] => [[]]
  | c :: rest =>
    if isSeparator c then [] :: splitAt isSeparator rest
    else match splitAt isSeparator rest with
      | first :: others => (c :: first) :: others
      | [] => [[c]]

/-- A line with each tab filled up to the next column that is a multiple of eight;
    `column` is the one reached. -/
def expandTabs (column : Nat) : List Char → List Char
  | [] => []
  | c :: rest =>
    if c == '\t' then
      let size := 8 - column % 8
      List.replicate size ' ' ++ expandTabs (column + size) rest
    else c :: expandTabs (column + Cells.ofChar c) rest

/-- The words of a line, each with the blanks after it, the first one also with those
    in front of it; at most `fuel`. -/
def words : Nat → List Char → List (List Char)
  | 0, _ => []
  | fuel + 1, line =>
    let leading := line.takeWhile isBlank
    let body := (line.drop leading.length).takeWhile fun c => !isBlank c
    let rest := line.drop (leading.length + body.length)
    let trailing := rest.takeWhile isBlank
    if body.isEmpty then []
    else (leading ++ body ++ trailing) :: words fuel (rest.drop trailing.length)

/-! ## Setting words in lines -/

/-- Cuts a text into pieces of at most `width` cells; `piece` is the one begun, in
    reverse, and `cells` its width. -/
def chop (width : Nat) (piece : List Char) (cells : Nat) : List Char → List (List Char)
  | [] => [piece.reverse]
  | c :: rest =>
    if cells + Cells.ofChar c > width then piece.reverse :: chop width [c] (Cells.ofChar c) rest
    else chop width (c :: piece) (cells + Cells.ofChar c) rest

/-- Lines being set: those finished, in reverse, and the one begun with its width in
    cells. -/
structure Setting where
  finished : List (List Char) := []
  line : List Char := []
  cells : Nat := 0

namespace Setting

/-- Whether nothing has been set yet. -/
def isFresh (s : Setting) : Bool :=
  s.finished.isEmpty && s.line.isEmpty

/-- Begins a new line with a piece of text, unless nothing has been set yet. -/
def onNewLine (s : Setting) (piece : List Char) : Setting :=
  if s.isFresh then { s with line := piece, cells := Cells.ofChars piece }
  else ⟨s.line :: s.finished, piece, Cells.ofChars piece⟩

/-- Sets one word. -/
def add (width : Nat) (overflow : Overflow) (s : Setting) (word : List Char) : Setting :=
  -- The blanks behind a word may hang over the end of the line.
  let size := Cells.ofChars (Blank.stripEnd word)
  if s.cells + size ≤ width then
    { s with line := s.line ++ word, cells := s.cells + Cells.ofChars word }
  else if width < size then
    match overflow with
    | .fold => (chop width [] 0 word).foldl onNewLine s
    | .ellipsis => s.onNewLine word
  else s.onNewLine word

/-- All lines. -/
def lines (s : Setting) : List (List Char) :=
  (s.line :: s.finished).reverse

end Setting

/-! ## Fitting lines to their width -/

/-- A line without the blanks at its end that lie beyond the width. -/
def trimEnd (width : Nat) (line : List Char) : List Char :=
  let blanks := (line.reverse.takeWhile isBlank).length
  line.take (line.length - min blanks (line.length - width))

/-- The start of a line that fills `width` cells; a wide character that is cut through
    gives a blank. -/
def crop (width : Nat) : List Char → List Char
  | [] => []
  | c :: rest =>
    if Cells.ofChar c ≤ width then c :: crop (width - Cells.ofChar c) rest
    else List.replicate width ' '

/-- A line cut off at the width. -/
def truncate (width : Nat) (overflow : Overflow) (line : List Char) : List Char :=
  if Cells.ofChars line ≤ width then line
  else match overflow with
    | .fold => crop width line
    | .ellipsis => crop (width - 1) line ++ ['…']

/-- Blanks that fill up what a line of `cells` cells leaves of the width. -/
def filler (width cells : Nat) : List Char :=
  List.replicate (width - cells) ' '

/-- A line filled up to the width. -/
def justifyLine (width : Nat) (justify : Justify) (overflow : Overflow) (line : List Char) :
    List Char :=
  match justify with
  | .left =>
    let line := truncate width overflow line
    line ++ filler width (Cells.ofChars line)
  | .right =>
    let line := truncate width overflow (Blank.stripEnd line)
    filler width (Cells.ofChars line) ++ line
  | .center =>
    let line := truncate width overflow (Blank.stripEnd line)
    let size := Cells.ofChars line
    -- A blank too many goes to the right.
    let left := (width - size) / 2
    List.replicate left ' ' ++ line ++ filler width (size + left)

/-- Sets one line of a text in lines of the given width. -/
def line (width : Nat) (overflow : Overflow) (text : List Char) : List (List Char) :=
  let text := if text.contains '\t' then expandTabs 0 text else text
  match words (text.length + 1) text with
  | [] => [trimEnd width text]
  | ws => (ws.foldl (Setting.add width overflow) {}).lines.map (trimEnd width)

/-- The lines of a text before they are fitted to the width. -/
def loose (width : Nat) (overflow : Overflow) (text : List Char) : List (List Char) :=
  (splitAt (· == '\n') (printable text)).flatMap (line width overflow)

/-- Sets a text in lines of at most the given width. -/
def lines (width : Nat) (text : List Char) : List (List Char) :=
  (loose width .fold text).map (truncate width .fold)

/-- Sets a text in lines that are filled up to the given width. -/
def justified (width : Nat) (justify : Justify) (overflow : Overflow) (text : List Char) :
    List (List Char) :=
  (loose width overflow text).map (justifyLine width justify overflow)

/-! ## Measuring -/

/-- The characters that end a line when a text is measured. -/
def endsLine (c : Char) : Bool :=
  c == '\n' || ('\x1c' ≤ c && c ≤ '\x1e') || c == '\x85' || c == '\u2028' || c == '\u2029'

/-- The width of the widest line of a text. -/
def widest (text : List Char) : Nat :=
  (splitAt endsLine (printable text)).foldl (fun width line => max width (Cells.ofChars line)) 0

end Wrap

end TreeWalk
