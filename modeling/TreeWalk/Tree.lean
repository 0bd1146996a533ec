import TreeWalk.Adapter

/-! # The tree an adapter shows

Through an adapter a document is a tree of nodes: the children of a node are the
nodes held directly in its fields and the nodes among the items of its list and
tuple fields, in field and item order.  Nodes inside sets, inside lists of lists
or inside values that are no nodes are not part of the tree.  `Adapter.view`
computes this tree once; walking it needs no further look at the document. -/

namespace TreeWalk

/-- Where a child hangs: the name of its field and, in a sequence, its position. -/
structure Slot where
  prop : Value
  index : Option Nat

/-- A node with its kind and its children in visiting order. -/
inductive Tree where
  | node (value : Value) (kind : Option String) (children : List (Slot × Tree))
  /-- A root whose fields the adapter cannot list. -/
  | sealed (value : Value)

namespace Tree

/-- The value at the root. -/
def value : Tree → Value
  | .node value _ _ => value
  | .sealed value => value

/-- The kind of the root. -/
def kind : Tree → Option String
  | .node _ kind _ => kind
  | .sealed _ => none

/-- The children of the root with their places. -/
def children : Tree → List (Slot × Tree)
  | .node _ _ children => children
  | .sealed _ => []

end Tree

namespace Adapter

/-- The children of a node from what its fields hold. -/
def place (fields : List (Value × List (Option Nat × Tree))) : List (Slot × Tree) :=
  fields.flatMap fun field => field.2.map fun child => (⟨field.1, child.1⟩, child.2)

mutual

/-- The tree below a value whose fields the adapter can list. -/
def viewNode (a : Adapter) : Value → Tree
  | .record holder entries aside =>
    .node (.record holder entries aside) (a.kindOf (.record holder entries aside))
      (place (a.arrange holder (viewEntries a entries) []))
  | value => .node value (a.kindOf value) []

/-- For each entry of a record the nodes that its value holds. -/
def viewEntries (a : Adapter) : List (Value × Value) → List (Value × List (Option Nat × Tree))
  | [] => []
  | (key, .group .list items) :: rest => (key, viewItems a 0 items) :: viewEntries a rest
  | (key, .group .tuple items) :: rest => (key, viewItems a 0 items) :: viewEntries a rest
  | (key, value) :: rest =>
    (key, if a.isNode value then [(none, viewNode a value)] else []) :: viewEntries a rest

/-- The nodes among the items of a sequence, with their positions. -/
def viewItems (a : Adapter) (index : Nat) : List Value → List (Option Nat × Tree)
  | [] => []
  | item :: rest =>
    -- A position counts all items, those that are no nodes too.
    if a.isNode item then (some index, viewNode a item) :: viewItems a (index + 1) rest
    else viewItems a (index + 1) rest

end

/-- The tree below a root value. -/
def view (a : Adapter) (root : Value) : Tree :=
  if a.reads root then a.viewNode root else .sealed root

end Adapter

end TreeWalk
