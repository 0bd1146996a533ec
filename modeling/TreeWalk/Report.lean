import TreeWalk.Numeric.Numeral
import TreeWalk.Steps.Scopes
import TreeWalk.Terminal

/-! # Reports on the terminal

Counts are reported as a table and scopes as an outline, each scope with the kinds of
what is declared in it.  Kinds are taken for markup, so what looks like a tag in them
is left out.

## Key results

* `Report.counts` is the table of counts.
* `Report.draw` draws the outline of scopes, and `Report.scopes` reports it. -/

namespace TreeWalk

namespace Report

/-- Why a report cannot be printed. -/
inductive Error where
  | markup (error : MarkupError)
  | integer (error : IntegerTooLong)
  deriving DecidableEq, Repr

/-- The wording of an error. -/
def Error.message : Error → String
  | .markup error => error.message
  | .integer error => error.message

/-! ## Counts -/

/-- What is said when there is nothing to count. -/
def nothingCounted : String := "[yellow]No nodes found.[/yellow]"

/-- The table of counts, given their digits. -/
def countsTable (kinds counts : List (List Char)) : Table where
  title := "Node Kinds".toList
  columns :=
    [{ heading := "Kind".toList, overflow := .fold, cells := kinds },
     { heading := "Count".toList, justify := .right, cells := counts }]

/-- The report on how often each kind occurs. -/
def counts (terminal : Terminal) (entries : List (String × Int)) : Except Error String :=
  if entries.isEmpty then (terminal.marked nothingCounted).mapError .markup
  else do
    -- The digits come before the table, so an integer that is too long is found first.
    let digits ← (entries.mapM fun entry => Numeral.write entry.2).mapError .integer
    let kinds := entries.map fun entry => entry.1.toList
    (terminal.table (countsTable kinds (digits.map String.toList))).mapError .markup

/-! ## Scopes -/

/-- The kinds of what is declared in a scope; what has none is shown by a question
    mark. -/
def declarations (kindOf : Value → Option String) (values : List Value) : String :=
  if values.isEmpty then "[dim]no declarations[/dim]"
  else ", ".intercalate (values.map fun value =>
    let kind := (kindOf value).getD ""
    if kind.isEmpty then "?" else kind)

/-- The text that stands for a scope, given what is declared in it. -/
def scopeText (kindOf : Value → Option String) (values : List Value) : List Char :=
  ("scope: " ++ declarations kindOf values).toList

end Report

namespace ScopeTree

mutual

/-- The number of scopes in a tree. -/
def size : ScopeTree → Nat
  | .scope _ children => sizeAll children + 1

/-- The number of scopes in trees. -/
def sizeAll : List ScopeTree → Nat
  | [] => 0
  | tree :: rest => size tree + sizeAll rest

end

end ScopeTree

namespace Report

/-- An outline of scopes while it is being drawn.  The scopes that are pending have been drawn
    themselves, at the addresses that go with them, but not yet what lies inside them; the one
    that came last is the first. -/
structure Sketch where
  drawing : Outline
  pending : List (ScopeTree × List Nat)

namespace Sketch

variable (kindOf : Value → Option String)

/-- The outermost scope is drawn first. -/
def start (root : ScopeTree) : Sketch where
  drawing := .leaf (scopeText kindOf root.declarations)
  pending := [(root, [])]

/-- Draws a scope that lies inside the one at the address; what lies inside it is now
    pending. -/
def attach (address : List Nat) (sketch : Sketch) (scope : ScopeTree) : Sketch :=
  let (drawing, branch) := sketch.drawing.add address (scopeText kindOf scope.declarations)
  { drawing, pending := (scope, branch) :: sketch.pending }

/-- Draws the scopes directly inside the one that came last. -/
def turn : Sketch → Sketch
  | ⟨drawing, []⟩ => ⟨drawing, []⟩
  | ⟨drawing, (scope, address) :: pending⟩ =>
    scope.children.foldl (attach kindOf address) ⟨drawing, pending⟩

/-- The number of scopes whose insides are still to be drawn, now or later. -/
def remaining (sketch : Sketch) : Nat :=
  ScopeTree.sizeAll (sketch.pending.map Prod.fst)

theorem remaining_foldl_attach (address : List Nat) (scopes : List ScopeTree) (sketch : Sketch) :
    (scopes.foldl (attach kindOf address) sketch).remaining =
      ScopeTree.sizeAll scopes + sketch.remaining := by
  induction scopes generalizing sketch with
  | nil => rw [List.foldl_nil, ScopeTree.sizeAll, Nat.zero_add]
  | cons scope rest ih =>
    have hfirst : (attach kindOf address sketch scope).remaining =
        scope.size + sketch.remaining := rfl
    rw [List.foldl_cons, ih, hfirst, ScopeTree.sizeAll]
    omega

/-- Each turn is done with one scope. -/
theorem remaining_turn {sketch : Sketch} (h : sketch.pending ≠ []) :
    (sketch.turn kindOf).remaining + 1 = sketch.remaining := by
  obtain ⟨drawing, pending⟩ := sketch
  cases pending with
  | nil => exact absurd rfl h
  | cons first pending =>
    obtain ⟨⟨values, children⟩, address⟩ := first
    have hpending : remaining ⟨drawing, (.scope values children, address) :: pending⟩ =
        ScopeTree.sizeAll children + 1 + remaining ⟨drawing, pending⟩ := rfl
    rw [turn, remaining_foldl_attach, hpending, ScopeTree.children]
    omega

/-- Draws until nothing is pending. -/
def finish (sketch : Sketch) : Outline :=
  if sketch.pending.isEmpty then sketch.drawing else finish (sketch.turn kindOf)
termination_by sketch.remaining
decreasing_by
  rename_i h
  have hpending : sketch.pending ≠ [] := by simpa using h
  have hturn := remaining_turn kindOf hpending
  omega

end Sketch

/-- The outline of a scope and all inside it, as it is drawn. -/
def draw (kindOf : Value → Option String) (root : ScopeTree) : Outline :=
  (Sketch.start kindOf root).finish kindOf

/-- The report on scopes. -/
def scopes (terminal : Terminal) (adapter : Adapter) (root : ScopeTree) :
    Except MarkupError String :=
  terminal.outline (draw adapter.kindOf root)

end Report

end TreeWalk
