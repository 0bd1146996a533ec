import TreeWalk.Failure
import TreeWalk.Log
import TreeWalk.Step

/-! # The walk

The walk visits a tree depth first.  At a node it calls the step, visits the
children in order with the accumulator that the step handed down (the one it was
handed itself if that is absent), and resumes the step if it suspended.  The
state of a walk holds the path to the node being visited, which grows by one
entry for the time of a child's visit and shrinks again however that visit ends,
and the steps' own state.

## Key results

* `Walker.visit` is the visit of one node, `Walker.visitAll` that of its children.
* `traverse` walks the tree that an adapter shows below a root. -/

namespace TreeWalk

variable {σ ε α : Type}

/-- The state of a walk: the path to the node being visited and the state of the
    steps. -/
structure WalkState (σ : Type) where
  path : List PathEntry
  own : σ

/-- A computation of the walk. -/
abbrev Walk (σ ε : Type) := EStateM (Failure ε) (WalkState σ)

/-- What stays fixed during a walk. -/
structure Walker (σ ε α : Type) where
  step : Step σ ε α
  adapter : Adapter
  logger : Option (Logger σ) := none

namespace Walk

/-- Runs a part of a step; its failure becomes that of the walk. -/
def ofStep (part : EStateM ε σ β) : Walk σ ε β := fun s =>
  match part s.own with
  | .ok result own => .ok result { s with own }
  | .error error own => .error (.step error) { s with own }

/-- Runs `body` one level down; the path is what it was, however `body` ends. -/
def descend (entry : PathEntry) (body : Walk σ ε β) : Walk σ ε β := fun s =>
  match body { s with path := s.path ++ [entry] } with
  | .ok result s => .ok result { s with path := s.path.dropLast }
  | .error error s => .error error { s with path := s.path.dropLast }

end Walk

namespace Walker

variable (w : Walker σ ε α)

/-- The context at the present point of the walk. -/
def context : Walk σ ε Context :=
  return { path := (← get).path, adapter := some w.adapter }

/-- Logs a message, if there is a logger. -/
def log (severity : Severity) (message : String) : Walk σ ε Unit :=
  match w.logger with
  | some logger => modify fun s => { s with own := logger.log severity message s.own }
  | none => pure ()

/-- Logs that a node of the given kind is entered. -/
def logEntry (kind : Option String) : Walk σ ε Unit := do
  let context ← w.context
  w.log .debug ("enter " ++ kind.getD "None" ++ " at " ++ context.describe)

/-- Ends the walk because a step broke its contract at a node of the given kind. -/
def fail (breach : Breach) (kind : Option String) : Walk σ ε β := do
  let context ← w.context
  let place : Place := ⟨kind, context.describe⟩
  w.log .error (breach.message place)
  throw (.breach breach place)

/-- Calls the step; a routine is started at once, so that a step that returns and
    one that finishes without suspending leave nothing to tell them apart. -/
def call (node : Value) (acc : Option α) : Walk σ ε (Started σ ε α) := do
  let context ← w.context
  match ← Walk.ofStep (w.step node acc context) with
  | .returned result => return .finished result
  | .routine start => Walk.ofStep start

/-- Resumes a suspended step with the results of the children. -/
def resume (kind : Option String)
    (resume : Children α → Context → EStateM ε σ (Resumed σ ε α)) (children : Children α) :
    Walk σ ε (Option α) := do
  let context ← w.context
  match ← Walk.ofStep (resume children context) with
  | .finished (some result) => return some result
  | .finished none => w.fail .missingResult kind
  | .suspended close =>
    Walk.ofStep (close context)
    w.fail .suspendedTwice kind

mutual

/-- Visits a node with the accumulator handed down to it; the result is that of
    the node's step. -/
def visit : Tree → Option α → Walk σ ε (Option α)
  | .node value kind children, acc => do
    w.logEntry kind
    match ← w.call value acc with
    | .finished result =>
      -- An absent result leaves the children with what the node itself was handed.
      let _ ← visitAll value children (result <|> acc)
      return result
    | .suspended yielded resume =>
      let visits ← visitAll value children (yielded <|> acc)
      w.resume kind resume (Children.ofVisits visits)
  | .sealed value, acc => do
    w.logEntry none
    let _ ← w.call value acc
    -- The step is called before the fields are asked for, so it has run when the walk fails.
    throw (.noFields value.typeName)

/-- Visits children of `parent` in order, each with the same accumulator. -/
def visitAll (parent : Value) : List (Slot × Tree) → Option α →
    Walk σ ε (List (Slot × Option α))
  | [], _ => return []
  | (slot, tree) :: rest, acc => do
    let result ← Walk.descend (slot.entry parent) (visit tree acc)
    let results ← visitAll parent rest acc
    return (slot, result) :: results

end

end Walker

/-- How a walk ended: its result or failure, the path it left behind, and the
    final state of the steps. -/
structure Ending (σ ε α : Type) where
  outcome : Except (Failure ε) (Option α)
  path : List PathEntry
  own : σ

/-- Walks the tree below `root`, running `step` at every node.  The adapter is
    picked by the root when none is given. -/
def traverse (root : Value) (step : Step σ ε α) (init : Option α) (own : σ)
    (adapter : Option Adapter := none) (logger : Option (Logger σ) := none) :
    Ending σ ε α :=
  let adapter := adapter.getD (.default root)
  let walker : Walker σ ε α := { step, adapter, logger }
  match walker.visit (adapter.view root) init ⟨[], own⟩ with
  | .ok result s => ⟨.ok result, s.path, s.own⟩
  | .error failure s => ⟨.error failure, s.path, s.own⟩

end TreeWalk
