/-! # Positions in a text

A position is an offset in characters from the start.  For messages it is given
as a line and a column, both counted from one. -/

namespace TreeWalk

namespace Position

/-- The number of the line that the offset lies on. -/
def line (text : List Char) (offset : Nat) : Nat :=
  (text.take offset).count '\n' + 1

/-- The column of the offset on its line. -/
def column (text : List Char) (offset : Nat) : Nat :=
  ((text.take offset).reverse.takeWhile (· != '\n')).length + 1

/-- Line, column and offset as a message gives them. -/
def describe (text : List Char) (offset : Nat) : String :=
  "line " ++ toString (line text offset) ++ " column " ++ toString (column text offset) ++
    " (char " ++ toString offset ++ ")"

end Position

end TreeWalk
