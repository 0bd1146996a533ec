import TreeWalk.Logged

/-! # Listing and counting kinds

Three steps that look at nothing but the kinds of the nodes: `collectKinds` lists
them in the order of the visits, `countKinds` counts them, `maxDepth` measures the
tree.  The list that `collectKinds` extends is one list shared by the whole walk,
so it is the step's state.

## Key results

* `Tally.mostCommon` puts the most frequent kinds first, ties staying in order. -/

namespace TreeWalk

/-! ## The listing -/

/-- What a listing walk hands down: the shared list, or something that was passed
    in place of one. -/
inductive Collector where
  | listing
  | other (value : Value)

/-- A value that is not a list was to be extended; its type is named. -/
structure NoListing where
  typeName : String
  deriving DecidableEq, Repr

/-- The kind of a node as an item of a listing. -/
def kindItem (kind : Option String) : Value :=
  match kind with
  | some kind => .str kind
  | none => .null

/-- Appends the kind of every node to the shared list when the node is called. -/
def collectKinds : Step (List Value) NoListing Collector :=
  Step.plain fun node acc context => do
    match acc with
    | some .listing =>
      modify (· ++ [kindItem (context.kindOf node)])
      return acc
    | some (.other value) => throw ⟨value.typeName⟩
    | none => throw ⟨Value.typeName .null⟩

/-- What a listing walk starts from: a list is taken as the shared one. -/
def Collector.start : Value → Collector × List Value
  | .group .list items => (.listing, items)
  | value => (.other value, [])

/-- Lists the kinds of all nodes below `root`, after the items of `init`. -/
def listKinds (root init : Value) (adapter : Option Adapter := none)
    (verbosity : Option VerbositySetting := none) :
    Ending (Logged (List Value)) NoListing Collector :=
  let (collector, items) := Collector.start init
  traverseLogged root collectKinds (some collector) items adapter verbosity

/-! ## The count -/

/-- How often each kind occurred, in the order of first occurrence. -/
abbrev Tally := List (Option String × Nat)

namespace Tally

/-- Counts `kind` another `n` times. -/
def count (kind : Option String) (n : Nat) : Tally → Tally
  | [] => [(kind, n)]
  | (k, m) :: rest => if k = kind then (k, m + n) :: rest else (k, m) :: count kind n rest

/-- Adds the counts of `other` to those of `tally`. -/
def merge (tally other : Tally) : Tally :=
  other.foldl (fun tally entry => tally.count entry.1 entry.2) tally

/-- The entries by descending count; entries of equal count keep their order. -/
def mostCommon (tally : Tally) : Tally :=
  tally.mergeSort fun a b => decide (b.2 ≤ a.2)

end Tally

/-- Counts the nodes of each kind: a node counts itself first and then takes in
    the counts of its children. -/
def countKinds : Step σ ε Tally :=
  Step.bottomUp fun node children context =>
    return some <| children.all.foldl (fun tally child => tally.merge (child.getD []))
      [(context.kindOf node, 1)]

/-! ## The depth -/

/-- The depth of the tree below a node: one more than the deepest of its children,
    one for a node without children. -/
def maxDepth : Step σ ε Nat :=
  Step.bottomUp fun _ children _ =>
    return some <| 1 + children.all.foldl (fun deepest child => max deepest (child.getD 0)) 0

end TreeWalk
