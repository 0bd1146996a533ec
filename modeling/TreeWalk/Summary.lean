import TreeWalk.Document
import TreeWalk.Json.Writer
import TreeWalk.Steps.Kinds

/-! # Summaries

A summary says of a document which kinds of nodes it holds, how often each occurs
and how deep its tree is.  It takes three walks, of which the one that lists the
kinds is logged.

## Key results

* `Summary.ofDocument` summarises a document.
* `Summary.toJson` is the summary as a JSON document. -/

namespace TreeWalk

/-- What there is to say of a tree. -/
structure Summary where
  source : String
  kinds : List String := []
  /-- How often each kind occurs, the most frequent first. -/
  counts : List (String × Int) := []
  maxDepth : Int := 0
  deriving DecidableEq, Repr

namespace Summary

/-- A tally without nodes that have no kind, of which a document has none. -/
def named (tally : Tally) : List (String × Int) :=
  tally.filterMap fun entry => entry.1.map fun kind => (kind, (entry.2 : Int))

/-- The result of a walk, or a fallback where the walk has none. -/
def resultOf (ending : Ending σ ε α) (fallback : α) : α :=
  match ending.outcome with
  | .ok (some result) => result
  | _ => fallback

/-- The summary of a document, and the lines logged meanwhile. -/
def ofDocument (d : Document) (verbosity : Option VerbositySetting := none) :
    Summary × List String :=
  let lines := fun message => match verbosity with
    | some v => v.lines .info message
    | none => []
  let listing := listKinds d.root (.list []) d.adapter verbosity
  let kinds := listing.own.own.filterMap Value.text?
  let tally := resultOf
    (traverse d.root (countKinds : Step Unit Empty Tally) none () d.adapter) []
  let depth := resultOf
    (traverse d.root (TreeWalk.maxDepth : Step Unit Empty Nat) none () d.adapter) 0
  -- The lines of the summary stand around those of its one logged walk.
  let first := lines ("Walking " ++ d.path ++ " (" ++ d.format.name ++ ")")
  let last := lines
    ("Visited " ++ toString kinds.length ++ " nodes, max depth " ++ toString depth)
  (⟨d.path, kinds, named tally.mostCommon, depth⟩, first ++ listing.own.lines ++ last)

/-- The summary as a JSON document. -/
def toJson (s : Summary) : Json.Term :=
  .object
    [("source", .text s.source), ("kinds", .array (s.kinds.map .text)),
     ("counts", .object (s.counts.map fun entry => (entry.1, .number entry.2))),
     ("max_depth", .number s.maxDepth)]

/-- The text of the summary as a JSON document. -/
def jsonText (s : Summary) : Except IntegerTooLong String :=
  s.toJson.write

/-- The text of the summary on lines of its own. -/
def jsonLines (s : Summary) : Except IntegerTooLong String := do
  return (← s.jsonText) ++ "\n"

end Summary

end TreeWalk
