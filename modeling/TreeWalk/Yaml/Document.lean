import TreeWalk.Value.Equality
import TreeWalk.Yaml.Node
import TreeWalk.Yaml.Scalar

/-! # Values of YAML documents

Merge keys are resolved first: the entries of the mappings under such a key are
put in front of the mapping's own, so that its own win.  Then each node gives its
value.  The double that is not a number is one value throughout a document, so that
as a key of a mapping it stands once.  Where several nodes have no value, the error
is that of the one nearest to the root, the first of those.

## Key results

* `Yaml.read` reads a whole document. -/

namespace TreeWalk

namespace Yaml

namespace Node

def tag : Node → Tag
  | .scalar tag _ | .sequence tag _ | .mapping tag _ => tag

/-! ## Merge keys -/

/-- The entries of a node that must be a mapping. -/
def entries : Node → Except Error (List (Node × Node))
  | .mapping _ entries => .ok entries
  | _ => .error .malformed

/-- The entries that the value of a merge key gives: those of a mapping, or of
    several, of which later ones come first. -/
def takenOver : Node → Except Error (List (Node × Node))
  | .sequence _ items => do
    -- Later entries replace earlier ones, and of the list the first mapping is to win.
    let all ← items.mapM entries
    return all.reverse.flatten
  | node => node.entries

/-- A key as text if it is the one that stands for a whole mapping. -/
def asKey : Node → Node
  | .scalar .value text => .scalar .str text
  | node => node

/-- Puts what merge keys take over in front of the other entries. -/
def merge (all : List (Node × Node)) : Except Error (List (Node × Node)) := do
  let (merging, own) := all.partition fun entry => entry.1.tag == .merge
  let taken ← merging.mapM fun entry => entry.2.takenOver
  return taken.flatten ++ own.map fun entry => (entry.1.asKey, entry.2)

mutual

/-- Resolves the merge keys of a node and of all below it. -/
def merged : Node → Except Error Node
  | .scalar tag text => .ok (.scalar tag text)
  | .sequence tag items => do return .sequence tag (← mergedItems items)
  | .mapping tag entries => do return .mapping tag (← merge (← mergedEntries entries))

/-- Resolves the merge keys of nodes. -/
def mergedItems : List Node → Except Error (List Node)
  | [] => .ok []
  | item :: rest => do
    let item ← merged item
    return item :: (← mergedItems rest)

/-- Resolves the merge keys of the keys and values of entries. -/
def mergedEntries : List (Node × Node) → Except Error (List (Node × Node))
  | [] => .ok []
  | (key, value) :: rest => do
    let key ← merged key
    let value ← merged value
    return (key, value) :: (← mergedEntries rest)

end

/-! ## Values -/

/-- An error and the depth at which it lies. -/
structure Flaw where
  depth : Nat
  error : Error

/-- Puts two values together; of two flaws the higher counts, or the first. -/
def both (f : α → β → γ) : Except Flaw α → Except Flaw β → Except Flaw γ
  | .ok a, .ok b => .ok (f a b)
  | .error a, .error b => .error (if b.depth < a.depth then b else a)
  | .error a, .ok _ => .error a
  | .ok _, .error b => .error b

/-- A value that must be fit for a key. -/
def fitKey (depth : Nat) (key : Except Flaw Value) : Except Flaw Value :=
  match key with
  | .ok value => if value.hashable then .ok value else .error ⟨depth, .malformed⟩
  | flaw => flaw

/-- The value of a collection whose tag asks for another shape. -/
def misfit (depth : Nat) (tag : Tag) : Except Flaw Value :=
  let isCollection := [Tag.seq, .map, .set, .omap, .pairs].contains tag
  .error ⟨if isCollection then depth + 1 else depth, .malformed⟩

mutual

/-- The value of a node that lies at the given depth. -/
def value (depth : Nat) : Node → Except Flaw Value
  | .scalar tag text =>
    match Scalar.read tag text with
    | .ok value => .ok value
    | .error .malformed => misfit depth tag
    | .error error => .error ⟨depth, error⟩
  | .sequence tag items =>
    match tag with
    | .seq => (values (depth + 1) items).map Value.list
    | .omap | .pairs => (pairs (depth + 1) items).map Value.list
    | _ => misfit depth tag
  | .mapping tag entries =>
    match tag with
    | .map => (entryValues (depth + 1) entries).map fun all => .dict (Value.storeShared all)
    | .set => (entryValues (depth + 1) entries).map fun all =>
      .group .set ((Value.storeShared all).map Prod.fst)
    | _ => misfit depth tag

/-- The values of nodes. -/
def values (depth : Nat) : List Node → Except Flaw (List Value)
  | [] => .ok []
  | item :: rest => both List.cons (value depth item) (values depth rest)

/-- The keys and values of entries. -/
def entryValues (depth : Nat) : List (Node × Node) → Except Flaw (List (Value × Value))
  | [] => .ok []
  | (key, item) :: rest =>
    both List.cons (both Prod.mk (fitKey depth (value depth key)) (value depth item))
      (entryValues depth rest)

/-- The pairs of an ordered list, each of them a mapping with one entry. -/
def pairs (depth : Nat) : List Node → Except Flaw (List Value)
  | [] => .ok []
  | .mapping _ [(key, item)] :: rest =>
    both List.cons
      (both (fun k v => .group .tuple [k, v]) (value depth key) (value depth item))
      (pairs depth rest)
  | _ :: _ => .error ⟨depth, .malformed⟩

end

end Node

/-- Reads a whole document; an empty one holds nothing. -/
def read (text : List Char) : Except Error Value := do
  match ← Node.ofTokens? (← Token.scan text) with
  | none => return .null
  | some root => ((← root.merged).value 0).mapError Node.Flaw.error

end Yaml

end TreeWalk
