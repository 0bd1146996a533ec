import TreeWalk.Text.CharRanges

/-! # Blank characters

Blank are the characters that part words: spaces of every width, tabs, line ends
and the four control characters for separators.

## Key results

* `strip` takes the blanks away around a text. -/

namespace TreeWalk

namespace Blank

/-- The blank characters. -/
def blanks : Array (Nat × Nat) :=
  #[(0x9, 0xD), (0x1C, 0x20), (0x85, 0x85), (0xA0, 0xA0), (0x1680, 0x1680), (0x2000, 0x200A),
    (0x2028, 0x2029), (0x202F, 0x202F), (0x205F, 0x205F), (0x3000, 0x3000)]

end Blank

/-- Whether a character is blank. -/
def isBlank (c : Char) : Bool :=
  CharRanges.contains Blank.blanks c

namespace Blank

/-- A text without the blanks at its end. -/
def stripEnd (cs : List Char) : List Char :=
  (cs.reverse.dropWhile isBlank).reverse

/-- A text without the blanks around it. -/
def strip (cs : List Char) : List Char :=
  stripEnd (cs.dropWhile isBlank)

end Blank

end TreeWalk
