import TreeWalk.Proofs.Schedule

/-! # Steps that finish early

A step without a second phase can be written in two ways.  It can return, or it can give a routine
that finishes before it suspends.  In the first case its effects happen when it is called, in the
second when it is started, and a walk does the one right after the other.  So a step may be recast
at any set of nodes, each time in either direction, and nothing about a walk changes.

## Key results

* `Step.Recast` says that one step has been turned into the other in this way.
* `Step.Recast.start_eq` says that called and started both steps do the same.
* `Walker.visit_congr` says that a visit sees of its step only what it does when it is started.
* `traverse_recast` compares whole walks, with all that happens in them.
-/

namespace TreeWalk

variable {σ ε α : Type}

/-! ## Recasting a step -/

/-- How two calls at one node may differ when they are made from the state `s`: not at all, or one
    returns where the other gives a routine.  The one that returns does `effects`, and so does the
    routine when it is started.  If `effects` fails, the routine fails at its start. -/
inductive Recast (call call' : EStateM ε σ (Outcome σ ε α)) (s : σ) : Prop where
  /-- The call is left as it is. -/
  | kept (h : call s = call' s)
  /-- A call that returns is replaced by one that gives a routine. -/
  | deferred {effects : EStateM ε σ (Option α)} {start : EStateM ε σ (Started σ ε α)} {t : σ}
      (hreturns : call s = (Outcome.returned <$> effects) s)
      (hgives : call' s = .ok (.routine start) t)
      (hstart : start t = (Started.finished <$> effects) s)
  /-- A call that gives a routine is replaced by one that returns. -/
  | advanced {effects : EStateM ε σ (Option α)} {start : EStateM ε σ (Started σ ε α)} {t : σ}
      (hgives : call s = .ok (.routine start) t)
      (hstart : start t = (Started.finished <$> effects) s)
      (hreturns : call' s = (Outcome.returned <$> effects) s)

/-- Whether the second step is the first, recast at some nodes. -/
def Step.Recast (step step' : Step σ ε α) : Prop :=
  ∀ node acc context s, TreeWalk.Recast (step node acc context) (step' node acc context) s

namespace Step

/-- A step that does `f` and has no second phase.  It gives a routine at the nodes that are chosen
    and returns at all others. -/
def early (chosen : Value → Context → Bool)
    (f : Value → Option α → Context → EStateM ε σ (Option α)) : Step σ ε α :=
  fun node acc context =>
    if chosen node context then return .routine do return .finished (← f node acc context)
    else return .returned (← f node acc context)

/-- A step in one phase may be recast at whatever nodes are chosen. -/
theorem recast_early (chosen : Value → Context → Bool)
    (f : Value → Option α → Context → EStateM ε σ (Option α)) :
    Recast (plain f) (early chosen f) := by
  intro node acc context s
  unfold early
  by_cases hchosen : chosen node context = true
  · have hreturns : plain f node acc context s =
        (Outcome.returned <$> f node acc context) s := by
      rw [map_eq_pure_bind]
      rfl
    rw [if_pos hchosen]
    exact .deferred hreturns rfl (by rw [map_eq_pure_bind])
  · rw [if_neg hchosen]
    exact .kept rfl

/-! ## Starting a step -/

/-- Calls that do the same do so when what they give is started. -/
private theorem start_of_eq {step step' : Step σ ε α} {node : Value} {acc : Option α}
    {context : Context} {s : σ} (h : step node acc context s = step' node acc context s) :
    step'.start node acc context s = step.start node acc context s := by
  unfold start
  cases hr : step node acc context s with
  | ok outcome t => rw [bind_of_ok hr, bind_of_ok (h.symm.trans hr)]
  | error e t => rw [bind_of_error hr, bind_of_error (h.symm.trans hr)]

/-- A call that returns has done all there is to do. -/
private theorem start_of_returned {step : Step σ ε α} {node : Value} {acc : Option α}
    {context : Context} {effects : EStateM ε σ (Option α)} {s : σ}
    (h : step node acc context s = (Outcome.returned <$> effects) s) :
    step.start node acc context s = (Started.finished <$> effects) s := by
  rw [map_eq_pure_bind] at h ⊢
  cases hr : effects s with
  | ok result t =>
    rw [bind_of_ok hr] at h ⊢
    exact bind_of_ok h
  | error e t =>
    rw [bind_of_error hr] at h ⊢
    exact bind_of_error h

/-- A call that gives a routine leaves the rest to its start. -/
private theorem start_of_routine {step : Step σ ε α} {node : Value} {acc : Option α}
    {context : Context} {start : EStateM ε σ (Started σ ε α)} {s t : σ}
    (h : step node acc context s = .ok (.routine start) t) :
    step.start node acc context s = start t :=
  bind_of_ok h

/-- Once both have been called and started, a step and what it has been recast to have done the
    same. -/
theorem Recast.start_eq {step step' : Step σ ε α} (h : Recast step step') :
    step'.start = step.start := by
  funext node acc context s
  cases h node acc context s with
  | kept h => exact start_of_eq h
  | deferred hreturns hgives hstart =>
    rw [start_of_returned hreturns, start_of_routine hgives, hstart]
  | advanced hgives hstart hreturns =>
    rw [start_of_returned hreturns, start_of_routine hgives, hstart]

end Step

/-! ## Visits -/

namespace Walker

variable {w : Walker σ ε α} {step : Step σ ε α}

/-- Steps that start alike are called alike. -/
theorem call_congr (h : step.start = w.step.start) (node : Value) (acc : Option α) :
    { w with step }.call node acc = w.call node acc := by
  rw [call_eq, call_eq, ← h]
  rfl

mutual

/-- With a step that starts alike a node is visited alike. -/
theorem visit_congr (h : step.start = w.step.start) :
    ∀ (tree : Tree) (acc : Option α), { w with step }.visit tree acc = w.visit tree acc
  | .sealed value, acc => by
    rw [visit, visit, call_congr h]
    rfl
  | .node value kind children, acc => by
    -- After the call, only the visits of the children know the step.
    have hbelow := visitAll_congr h value children
    rw [visit, visit, call_congr h]
    refine bind_congr fun _ => bind_congr fun started => ?_
    cases started with
    | finished result =>
      dsimp only
      rw [hbelow]
    | suspended yielded resume =>
      dsimp only
      rw [hbelow]
      rfl

/-- So it is with the visits of children. -/
theorem visitAll_congr (h : step.start = w.step.start) (parent : Value) :
    ∀ (children : List (Slot × Tree)) (acc : Option α),
      { w with step }.visitAll parent children acc = w.visitAll parent children acc
  | [], acc => by
    rw [visitAll, visitAll]
  | (slot, tree) :: rest, acc => by
    rw [visitAll, visitAll, visit_congr h tree acc]
    refine bind_congr fun result => ?_
    rw [visitAll_congr h parent rest acc]

end

end Walker

/-! ## Walks -/

/-- Walks whose steps start alike are the same walk. -/
theorem traverse_congr {step step' : Step σ ε α} (h : step'.start = step.start) (root : Value)
    (init : Option α) (own : σ) (adapter : Option Adapter) (logger : Option (Logger σ)) :
    traverse root step' init own adapter logger = traverse root step init own adapter logger := by
  rw [traverse_eq, traverse_eq]
  exact congrArg (fun visit => Ending.ofVisit (visit ⟨[], own⟩))
    (Walker.visit_congr (w := traverseWalker root step adapter logger) h _ init)

/-- Steps that start alike do so when they are watched. -/
theorem Step.start_watched_congr {step step' : Step σ ε α} (h : step'.start = step.start) :
    step'.watched.start = step.watched.start := by
  funext node acc context
  rw [start_watched, start_watched, h]

/-- Nothing about a walk changes when its step is recast at some nodes, so that it returns where it
    gave a routine that finishes at once, or the other way round.  The same things happen in the
    same order: calls with the same accumulators, paths and answers, resumptions with the same
    results of the children, and lines of the log.  The walk ends in the same way, and leaves the
    same state of the step behind. -/
theorem traverse_recast {step step' : Step σ ε α} (h : Step.Recast step step') (root : Value)
    (init : Option α) (own : σ) (adapter : Option Adapter) (logger : Option (Logger σ)) :
    history root step' init own adapter logger = history root step init own adapter logger ∧
      traverse root step' init own adapter logger = traverse root step init own adapter logger := by
  constructor
  · unfold history traverseWatched
    rw [traverse_congr (Step.start_watched_congr h.start_eq)]
  · exact traverse_congr h.start_eq root init own adapter logger

/-- What is done at a node of `1 + 2`: the nodes are counted, and each is given its depth. -/
def numbering : Value → Option Nat → Context → EStateM Unit Nat (Option Nat) :=
  fun _ acc context => do
    modify (· + 1)
    return some (acc.getD 10 + context.depth)

/-- The step that numbers the nodes of `1 + 2` gives the same results if it gives routines at the
    operands: the sum hands down ten, and all three nodes are counted. -/
theorem traverse_recast_onePlusTwo :
    let step := Step.plain numbering
    let recast := Step.early (fun _ context => context.depth == 1) numbering
    Step.Recast step recast ∧
      history onePlusTwo recast none 0 none none = history onePlusTwo step none 0 none none ∧
      (traverse onePlusTwo recast none 0 none none).own = 3 := by
  intro step recast
  have hrecast : Step.Recast step recast := Step.recast_early _ numbering
  obtain ⟨hhistory, hwalk⟩ := traverse_recast hrecast onePlusTwo none 0 none none
  refine ⟨hrecast, hhistory, ?_⟩
  rw [hwalk]
  decide +kernel

end TreeWalk
