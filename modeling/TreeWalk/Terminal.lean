/-! # Terminals

What is printed goes to a terminal, and a package for rich text brings it there: text as it
stands or with markup, tables, and outlines.  What the package makes of them is not said here;
a terminal is given by the texts that come out.

An outline is a tree of labels.  It is drawn label by label: every new one goes to the end of
those below a label that is there already, which is known by its address, the positions that
lead to it from the top.

## Key results

* `Terminal` is what is known of the package.
* `Outline.add` draws one more label. -/

namespace TreeWalk

/-- Markup that cannot be followed, such as a closing tag that closes nothing. -/
structure MarkupError where
  message : String
  deriving DecidableEq, Repr

/-! ## Tables -/

/-- What becomes of a word that is wider than its line. -/
inductive Overflow where
  /-- It is cut into pieces of the width of a line. -/
  | fold
  /-- It is cut off, and the cut is marked. -/
  | ellipsis
  deriving DecidableEq, Repr

/-- On which side a line is filled up. -/
inductive Justify where
  | left
  | center
  | right
  deriving DecidableEq, Repr

/-- A column of a table.  Its heading and its cells may hold markup. -/
structure Column where
  heading : List Char
  justify : Justify := .left
  overflow : Overflow := .ellipsis
  cells : List (List Char)

/-- A table with its title, which may hold markup. -/
structure Table where
  title : List Char
  columns : List Column

/-! ## Outlines -/

/-- A tree of labels, which may hold markup. -/
inductive Outline where
  | label (text : List Char) (below : List Outline)

namespace Outline

/-- A label with nothing below it. -/
def leaf (text : List Char) : Outline :=
  .label text []

/-- The outlines directly below the label. -/
def parts : Outline → List Outline
  | .label _ below => below

/-- Adds outlines at the end of those directly below the label. -/
def append (more : List Outline) : Outline → Outline
  | .label text below => .label text (below ++ more)

/-- The part of an outline at an address, if there is one. -/
def part? : List Nat → Outline → Option Outline
  | [], outline => some outline
  | i :: address, .label _ below => below[i]?.bind (part? address)

/-- Changes the part of an outline at an address; without such a part nothing changes. -/
def modifyAt (f : Outline → Outline) : List Nat → Outline → Outline
  | [], outline => f outline
  | i :: address, .label text below => .label text (below.modify i (modifyAt f address))

/-- Draws a label at the end of those below an address.  The second result is the address
    of the new label. -/
def add (address : List Nat) (text : List Char) (outline : Outline) : Outline × List Nat :=
  let position := (outline.part? address).elim 0 fun part => part.parts.length
  (outline.modifyAt (·.append [.leaf text]) address, address ++ [position])

end Outline

/-! ## Terminals -/

/-- A terminal as a program sees it: what it is made to print, and the text that comes out, with
    the ends of its lines. -/
structure Terminal where
  /-- The number of cells of a line. -/
  width : Nat
  /-- Whether a name between colons stands for an emoji where there may be markup. -/
  isEmoji : List Char → Bool
  /-- A text that is printed as it stands. -/
  literal : String → String
  /-- A text with markup. -/
  marked : String → Except MarkupError String
  table : Table → Except MarkupError String
  outline : Outline → Except MarkupError String

/-- Lines as text. -/
def Terminal.ofLines (lines : List (List Char)) : String :=
  String.ofList (lines.flatMap (· ++ ['\n']))

end TreeWalk
