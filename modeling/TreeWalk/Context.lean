import TreeWalk.Tree
import TreeWalk.Value.Display

/-! # The path to a node

While a node is visited its context holds the route from the root: one entry per
ancestor, with the field taken there and the position in that field if it holds a
sequence.  `Context.describe` writes the route as
`Program.body[0].declarations[0]`. -/

namespace TreeWalk

/-- One ancestor on the route from the root, and where the route leaves it. -/
structure PathEntry where
  node : Value
  prop : Value
  index : Option Int := none

/-- The route to the node being visited, outermost ancestor first.  Without an
    adapter each value is judged by the adapter it would get by default. -/
structure Context where
  path : List PathEntry := []
  adapter : Option Adapter := none

namespace PathEntry

/-- Whether two entries agree in node, field and position. -/
def same (a b : PathEntry) : Bool :=
  a.node.same b.node && a.prop.same b.prop && a.index == b.index

/-- The part of a described path that the entry adds. -/
def describe (e : PathEntry) : String :=
  "." ++ e.prop.plain ++ (match e.index with
    | some i => "[" ++ toString i ++ "]"
    | none => "")

end PathEntry

namespace Context

/-- The node directly above, if there is one. -/
def parent? (c : Context) : Option Value :=
  c.path.getLast?.map PathEntry.node

/-- The number of ancestors. -/
def depth (c : Context) : Nat :=
  c.path.length

/-- The kind of a value under the adapter of this walk. -/
def kindOf (c : Context) (value : Value) : Option String :=
  (c.adapter.getD (.default value)).kindOf value

/-- The kind of the node directly above; the root has no parent and so no parent
    kind. -/
def parentKind (c : Context) : Option String :=
  -- Nothing is no node under any adapter.
  c.kindOf (c.parent?.getD .null)

/-- What stands in a described path for the root. -/
def rootMark : String := "<root>"

/-- The name of a root of the given kind: the root mark if it has none. -/
def rootName (kind : Option String) : String :=
  match kind with
  | some "" | none => rootMark
  | some kind => kind

/-- The path as text: the root mark alone at the root, otherwise the kind of the
    root followed by what each entry adds. -/
def describe (c : Context) : String :=
  match c.path with
  | [] => rootMark
  | root :: _ => rootName (c.kindOf root.node) ++ String.join (c.path.map PathEntry.describe)

/-- Goes one level down. -/
def push (c : Context) (entry : PathEntry) : Context :=
  { c with path := c.path ++ [entry] }

/-- Goes one level up; there is none above the root. -/
def pop? (c : Context) : Option Context :=
  if c.path.isEmpty then none else some { c with path := c.path.dropLast }

end Context

/-- The entry for a child in the given slot of `parent`. -/
def Slot.entry (slot : Slot) (parent : Value) : PathEntry :=
  ⟨parent, slot.prop, slot.index.map Int.ofNat⟩

end TreeWalk
