import TreeWalk.Console.Markup
import TreeWalk.Console.Wrap

/-! # Outlines in lines

Each label stands on lines of its own, indented by four cells more than the one above
it in the tree, with guides that lead from a label to those below it.

## Key results

* `Outline.plain` takes the markup out of the labels.
* `Outline.lines` sets an outline in lines. -/

namespace TreeWalk

namespace Outline

/-! ## Markup -/

mutual

/-- Takes the markup out of the labels, one after the other from the top. -/
def plain : Outline → Except Markup.Fault Outline
  | .label text below => do
    let text ← Markup.plain text
    return .label text (← plainAll below)

/-- Takes the markup out of the labels of outlines one after the other. -/
def plainAll : List Outline → Except Markup.Fault (List Outline)
  | [] => return []
  | outline :: rest => do
    let first ← plain outline
    return first :: (← plainAll rest)

end

/-! ## Lines -/

/-- The guide in front of the first line of a label. -/
def branch (isLast : Bool) : List Char :=
  (if isLast then "└── " else "├── ").toList

/-- The guide in front of all other lines below the same label. -/
def trunk (isLast : Bool) : List Char :=
  (if isLast then "    " else "│   ").toList

/-- The lines of a label, the first one led in by `first` and the others by `rest`. -/
def labelLines (width : Nat) (first rest : List Char) (text : List Char) : List (List Char) :=
  if width ≤ first.length then []
  else match Wrap.lines (width - first.length) text with
    | [] => []
    | line :: others => (first ++ line) :: others.map (rest ++ ·)

mutual

/-- The lines of a label and of all below it. -/
def linesFrom (width : Nat) (first rest : List Char) : Outline → List (List Char)
  | .label text below => labelLines width first rest text ++ linesBelow width rest below

/-- The lines of labels that stand below one label, behind its guides. -/
def linesBelow (width : Nat) (guides : List Char) : List Outline → List (List Char)
  | [] => []
  | outline :: others =>
    linesFrom width (guides ++ branch others.isEmpty) (guides ++ trunk others.isEmpty) outline ++
      linesBelow width guides others

end

/-- The lines of an outline on a console of the given width. -/
def lines (width : Nat) (outline : Outline) : List (List Char) :=
  linesFrom width [] [] outline

end Outline

end TreeWalk
