import TreeWalk.Proofs.Prune
import TreeWalk.Proofs.Sightings
import TreeWalk.Steps.Kinds

/-! # Skipping fields is pruning

To walk a tree with a skip set is to walk without one the tree from which these fields have
been taken out, as far as a step can tell that sees only kinds.  The steps that list and
count kinds and measure depths are of that sort.

## Key results

* `traverse_prune` says that the two walks look the same.
* `collectKinds_seesOnlyKinds`, `countKinds_seesOnlyKinds` and `maxDepth_seesOnlyKinds` are
  the steps for which this holds.
-/

namespace TreeWalk

variable {σ ε α β : Type}

/-! ## Steps that see only kinds -/

namespace Context.Alike

variable {kind : Value → Option String} {c c' : Context}

/-- Nodes that look alike have the same kind in contexts that look alike. -/
theorem kindOf_eq (h : Alike kind c c') {node node' : Value} (hnode : kind node = kind node') :
    c.kindOf node = c'.kindOf node' := by
  rw [h.left, h.right, hnode]

end Context.Alike

namespace Step

/-- A step in one phase sees only kinds if its function does. -/
theorem seesOnlyKinds_plain {f : Value → Option α → Context → EStateM ε σ (Option α)}
    (h : ∀ kind node node' acc c c', kind node = kind node' → Context.Alike kind c c' →
      f node acc c = f node' acc c') : (plain f).SeesOnlyKinds := by
  intro kind node node' acc c c' hnode hcontext
  have hf : ∀ node acc c, (plain f).start node acc c =
      f node acc c >>= fun result => pure (.finished result) := by
    intro node acc c
    unfold start plain
    simp only [bind_assoc, pure_bind]
  rw [hf, hf]
  refine (Agree.of_eq (h kind node node' acc c c' hnode hcontext)).bind_eq ?_
  intro result
  exact .pure (.finished result)

/-- A step that waits for the results of the children sees only kinds if its function does. -/
theorem seesOnlyKinds_bottomUp {f : Value → Children α → Context → EStateM ε σ (Option α)}
    (h : ∀ kind node node' children c c', kind node = kind node' → Context.Alike kind c c' →
      f node children c = f node' children c') : (bottomUp f).SeesOnlyKinds := by
  intro kind node node' acc _ _ hnode _
  refine .pure (.suspended none fun children c c' hcontext => ?_)
  refine (Agree.of_eq (h kind node node' children c c' hnode hcontext)).bind_eq ?_
  intro result
  exact .pure (.finished result)

end Step

/-- The collecting of kinds sees only kinds. -/
theorem collectKinds_seesOnlyKinds : collectKinds.SeesOnlyKinds := by
  refine Step.seesOnlyKinds_plain ?_
  intro kind node node' acc c c' hnode hcontext
  rw [hcontext.kindOf_eq hnode]

/-- The counting of kinds sees only kinds. -/
theorem countKinds_seesOnlyKinds : (countKinds : Step σ ε Tally).SeesOnlyKinds := by
  refine Step.seesOnlyKinds_bottomUp ?_
  intro kind node node' children c c' hnode hcontext
  rw [hcontext.kindOf_eq hnode]

/-- The measuring of depths sees only kinds. -/
theorem maxDepth_seesOnlyKinds : (maxDepth : Step σ ε Nat).SeesOnlyKinds :=
  Step.seesOnlyKinds_bottomUp fun _ _ _ _ _ _ _ _ => rfl

/-! ## Skipping is pruning -/

/-- Below a node in a document with distinct keys, a walk that skips the fields of a skip set
    and a walk without one through the pruned document look the same to a step that sees
    only kinds: calls, resumptions, closes and log lines, the outcome, and the state that the
    step is left in.  To skip the tag as well changes nothing. -/
theorem traverse_prune (root : Value) (step : Step σ ε α) (init : Option α) (own : σ)
    (logger : Option (Logger σ)) (tagField : String) (skip : List Value)
    (hnode : (Adapter.tagged tagField skip).isNode root = true) (hkeys : root.DistinctKeys)
    (hstep : step.SeesOnlyKinds) :
    LooksAlike step init own logger (.tagged tagField skip) root
        (.tagged tagField) (root.prune tagField skip) ∧
      LooksAlike step init own logger (.tagged tagField (.str tagField :: skip)) root
        (.tagged tagField skip) root := by
  -- The kind of a value does not depend on the skip set.
  have hkind : ∀ (skip skip' : List Value) (value : Value),
      (Adapter.tagged tagField skip).kindOf value = (Adapter.tagged tagField skip').kindOf value :=
    fun _ _ _ => rfl
  have hpruned := Adapter.alike_prune tagField skip hnode hkeys
  have htag := Adapter.alike_skipTag tagField skip hnode hkeys
  exact ⟨hstep.looksAlike (hkind [] skip) hpruned init own logger,
    hstep.looksAlike (hkind skip _) htag init own logger⟩

/-- The document of a program with the name `x`, both with their locations, which are
    nodes. -/
def locatedName : Value :=
  let location : Value := .dict [(.str "type", .str "SourceLocation"), (.str "line", .int 1)]
  .dict [(.str "type", .str "Program"), (.str "loc", location),
    (.str "body", .list [.dict [(.str "type", .str "Identifier"), (.str "name", .str "x"),
      (.str "loc", location)]])]

/-- Counting the kinds in the program with the name `x` without locations is counting them in
    the program from which these have been taken out. -/
theorem traverse_prune_locatedName :
    let count : Step Unit Unit Tally := countKinds
    let skip : List Value := [.str "loc"]
    (Adapter.tagged "type" skip).isNode locatedName = true ∧ locatedName.DistinctKeys ∧
      count.SeesOnlyKinds ∧
      LooksAlike count none () none (.tagged "type" skip) locatedName (.tagged "type")
        (locatedName.prune "type" skip) ∧
      (traverse locatedName count none () (some (.tagged "type" skip))).outcome.toOption =
        some (some [(some "Program", 1), (some "Identifier", 1)]) := by
  intro count skip
  have hnode : (Adapter.tagged "type" skip).isNode locatedName = true := by decide +kernel
  have hkeys : locatedName.DistinctKeys := by
    simp [locatedName, Value.DistinctKeys, Value.DistinctKeysEntries, Value.DistinctKeysItems]
  have hstep : count.SeesOnlyKinds := countKinds_seesOnlyKinds
  obtain ⟨halike, -⟩ :=
    traverse_prune locatedName count none () none "type" skip hnode hkeys hstep
  exact ⟨hnode, hkeys, hstep, halike, by decide +kernel⟩

end TreeWalk
