import TreeWalk.Children
import TreeWalk.Context

/-! # Steps

A step is what a walk does at a node.  It runs in two phases: called with the
node, the accumulator handed down and the context, it may suspend, and is then
resumed with the results of the children.  What it hands down and what it gives
as result is of one type `α`, and either may be absent.  A step may keep state of
its own in `σ` and may fail with an `ε`; the state outlives a failure.

A step that does not need its second phase can say so at once, by returning, or
after being started, by finishing without suspending.  The two are different
programs but the walk tells them apart in nothing. -/

namespace TreeWalk

variable {σ ε α : Type}

/-- What a resumed step does: it gives its result, or it suspends again, which is
    a breach, and has then to be closed. -/
inductive Resumed (σ ε α : Type) where
  | finished (result : Option α)
  | suspended (close : Context → EStateM ε σ Unit)

/-- What a started step does: it finishes without suspending, or it hands an
    accumulator down and waits to be resumed with the results of the children. -/
inductive Started (σ ε α : Type) where
  | finished (result : Option α)
  | suspended (yielded : Option α)
      (resume : Children α → Context → EStateM ε σ (Resumed σ ε α))

/-- What a step is when it has been called: done, with its result, or a routine
    that is still to be started. -/
inductive Outcome (σ ε α : Type) where
  | returned (result : Option α)
  | routine (start : EStateM ε σ (Started σ ε α))

/-- What a walk does at a node, given the accumulator handed down to it. -/
abbrev Step (σ ε α : Type) := Value → Option α → Context → EStateM ε σ (Outcome σ ε α)

namespace Step

/-- A step in one phase: its result is also what it hands down, unless absent. -/
def plain (f : Value → Option α → Context → EStateM ε σ (Option α)) : Step σ ε α :=
  fun node acc context => return .returned (← f node acc context)

/-- A step in two phases that hands down what it was handed. -/
def bottomUp (f : Value → Children α → Context → EStateM ε σ (Option α)) : Step σ ε α :=
  fun node _ _ => return .routine <| return .suspended none fun children context =>
    return .finished (← f node children context)

end Step

end TreeWalk
