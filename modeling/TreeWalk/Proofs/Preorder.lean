import TreeWalk.Proofs.Schedule

/-! # The nodes of a walk in order

A walk comes to the nodes of a tree in pre-order: a node stands before the nodes below
it, and what is below a child stands before its later siblings.  `Tree.stops` lists the
nodes in that order, each with the way to it.  The way is given twice, as the path that
the walk hands to its step and as an address, which numbers the children taken and so
tells one node of the tree from every other.

## Key results

* `filterMap_calledAt_history` says that the calls of a walk that ends normally are made at
  the stops, in their order; `calledAt_prefix_history` that those of any walk are made at the
  first of them.
* `Stop.IsAbove` is the relation of a node to those below it.
* `Adapter.exists_stop_iff` says that the stops are the nodes that a walk reaches.
-/

namespace TreeWalk

variable {σ ε α : Type}

/-- A node that a walk comes to, with the numbers of the children taken on the way to it
    and with its path. -/
structure Stop where
  address : List Nat
  path : List PathEntry
  node : Value

/-- The nodes of `above` strictly above the other stop are those on the way to it. -/
def Stop.IsAbove (above stop : Stop) : Prop :=
  above.address <+: stop.address ∧ above.address ≠ stop.address

namespace Tree

mutual

/-- The nodes of a tree in pre-order. -/
def stops (address : List Nat) (path : List PathEntry) : Tree → List Stop
  | .node value _ children => ⟨address, path, value⟩ :: stopsAll address path value 0 children
  | .sealed value => [⟨address, path, value⟩]

/-- The nodes below `parent` in pre-order, the next of its children having the number
    `i`. -/
def stopsAll (address : List Nat) (path : List PathEntry) (parent : Value) (i : Nat) :
    List (Slot × Tree) → List Stop
  | [] => []
  | (slot, tree) :: rest =>
    tree.stops (address ++ [i]) (path ++ [slot.entry parent]) ++
      stopsAll address path parent (i + 1) rest

end

end Tree

/-! ## Addresses -/

namespace Tree

mutual

/-- The addresses in a tree continue that of its root. -/
theorem prefix_of_mem_stops : ∀ {tree : Tree} {address : List Nat} {path : List PathEntry}
    {stop : Stop}, stop ∈ tree.stops address path → address <+: stop.address
  | .sealed value, address, path, stop, h => by
    rw [stops, List.mem_singleton] at h
    subst h
    exact List.prefix_rfl
  | .node value kind children, address, path, stop, h => by
    rw [stops] at h
    rcases List.mem_cons.mp h with rfl | h
    · exact List.prefix_rfl
    · obtain ⟨j, -, hprefix⟩ := exists_prefix_of_mem_stopsAll h
      exact (List.prefix_append address [j]).trans hprefix

/-- The addresses below a node tell its children apart. -/
theorem exists_prefix_of_mem_stopsAll : ∀ {children : List (Slot × Tree)} {address : List Nat}
    {path : List PathEntry} {parent : Value} {i : Nat} {stop : Stop},
    stop ∈ stopsAll address path parent i children → ∃ j, i ≤ j ∧ address ++ [j] <+: stop.address
  | [], address, path, parent, i, stop, h => by
    rw [stopsAll] at h
    cases h
  | (slot, tree) :: rest, address, path, parent, i, stop, h => by
    rw [stopsAll] at h
    rcases List.mem_append.mp h with h | h
    · exact ⟨i, Nat.le_refl i, prefix_of_mem_stops h⟩
    · obtain ⟨j, hj, hprefix⟩ := exists_prefix_of_mem_stopsAll h
      exact ⟨j, by omega, hprefix⟩

end

mutual

/-- No two nodes of a tree have the same address. -/
theorem nodup_address_stops : ∀ (tree : Tree) (address : List Nat) (path : List PathEntry),
    ((tree.stops address path).map Stop.address).Nodup
  | .sealed value, address, path => by
    rw [stops]
    exact List.nodup_singleton _
  | .node value kind children, address, path => by
    rw [stops, List.map_cons, List.nodup_cons]
    refine ⟨?_, nodup_address_stopsAll children address path value 0⟩
    -- Every address below a node is longer than its own.
    intro hmem
    obtain ⟨stop, hstop, heq⟩ := List.mem_map.mp hmem
    obtain ⟨j, -, hprefix⟩ := exists_prefix_of_mem_stopsAll hstop
    have hlength := hprefix.length_le
    rw [heq, List.length_append, List.length_singleton] at hlength
    exact Nat.not_succ_le_self _ hlength

/-- The addresses below different children start differently. -/
theorem nodup_address_stopsAll : ∀ (children : List (Slot × Tree)) (address : List Nat)
    (path : List PathEntry) (parent : Value) (i : Nat),
    ((stopsAll address path parent i children).map Stop.address).Nodup
  | [], address, path, parent, i => by
    rw [stopsAll]
    exact List.nodup_nil
  | (slot, tree) :: rest, address, path, parent, i => by
    rw [stopsAll, List.map_append, List.nodup_append]
    refine ⟨nodup_address_stops tree _ _, nodup_address_stopsAll rest _ _ _ _, ?_⟩
    -- Addresses below different children differ in the number of the child.
    intro first hfirst other hother heq
    obtain ⟨stop, hstop, rfl⟩ := List.mem_map.mp hfirst
    obtain ⟨stop', hstop', rfl⟩ := List.mem_map.mp hother
    obtain ⟨j, hj, hprefix⟩ := exists_prefix_of_mem_stopsAll hstop'
    have hij := prefix_entry_inj (heq ▸ prefix_of_mem_stops hstop) hprefix
    omega

end

end Tree

/-- Nodes below different children of a node are not above each other. -/
theorem Stop.not_isAbove {address : List Nat} {i j : Nat} {stop stop' : Stop}
    (h : address ++ [i] <+: stop.address) (h' : address ++ [j] <+: stop'.address) (hij : i ≠ j) :
    ¬ stop.IsAbove stop' := by
  intro habove
  exact hij (prefix_entry_inj (h.trans habove.1) h')

/-! ## Walks -/

/-- The nodes that a walk below `root` comes to, in order. -/
def Adapter.stops (a : Adapter) (root : Value) : List Stop :=
  (a.view root).stops [] []

/-- No two stops of a tree have the same address. -/
theorem Adapter.nodup_address_stops (a : Adapter) (root : Value) :
    ((a.stops root).map Stop.address).Nodup :=
  Tree.nodup_address_stops _ _ _

/-- Where a moment calls the step, if it does. -/
def Moment.calledAt : Moment ε α → Option (List PathEntry × Value)
  | .called node path _ _ => some (path, node)
  | .logged _ | .resumed .. | .closed .. => none

/-- The path and the node of a stop. -/
def Stop.position (stop : Stop) : List PathEntry × Value :=
  (stop.path, stop.node)

mutual

/-- A walk reaches every stop by its path. -/
private theorem reaches_of_mem_stops {a : Adapter} {root : Value} : ∀ (tree : Tree) (node : Value),
    a.view node = tree → ∀ (address : List Nat) (path : List PathEntry),
      a.Reaches root path node → ∀ stop ∈ tree.stops address path,
        a.Reaches root stop.path stop.node
  | .sealed value, node, hview, address, path, hnode, stop, hstop => by
    obtain ⟨rfl, -⟩ := Adapter.of_view_eq_sealed hview
    rw [Tree.stops, List.mem_singleton] at hstop
    subst hstop
    exact hnode
  | .node value kind trees, node, hview, address, path, hnode, stop, hstop => by
    obtain ⟨rfl, -, children, hchildren, htrees⟩ := Adapter.of_view_eq_node hview
    rw [Tree.stops] at hstop
    -- A stop is the node itself or lies below one of the children.
    rcases List.mem_cons.mp hstop with rfl | hstop
    · exact hnode
    · refine reaches_of_mem_stopsAll value trees children htrees address path 0 hnode ?_ stop hstop
      intro slot child hmem
      exact (Adapter.mem_children?_iff hchildren).mp hmem

/-- So the walk reaches every stop below the children of a node that it reaches. -/
private theorem reaches_of_mem_stopsAll {a : Adapter} {root : Value} (parent : Value) :
    ∀ (trees : List (Slot × Tree)) (children : List (Slot × Value)),
    children.map (fun child => (child.1, a.view child.2)) = trees →
    ∀ (address : List Nat) (path : List PathEntry) (i : Nat), a.Reaches root path parent →
      (∀ slot child, (slot, child) ∈ children → a.IsChild parent slot child) →
      ∀ stop ∈ Tree.stopsAll address path parent i trees, a.Reaches root stop.path stop.node
  | [], children, hview, address, path, i, hparent, hchildren, stop, hstop => by
    rw [Tree.stopsAll] at hstop
    cases hstop
  | (slot, tree) :: trees, children, hview, address, path, i, hparent, hchildren, stop, hstop => by
    obtain ⟨⟨place, child⟩, rest, rfl, hhead, hrest⟩ := List.map_eq_cons_iff.mp hview
    obtain ⟨rfl, hchild⟩ := Prod.mk.inj hhead
    have hfirst := hchildren place child List.mem_cons_self
    rw [Tree.stopsAll] at hstop
    rcases List.mem_append.mp hstop with hstop | hstop
    · exact reaches_of_mem_stops tree child hchild _ _ (.child hparent hfirst) stop hstop
    · exact reaches_of_mem_stopsAll parent trees rest hrest _ _ _ hparent
        (fun slot child hmem => hchildren slot child (List.mem_cons_of_mem _ hmem)) stop hstop

end

/-- The stops below a child are among those below its parent. -/
private theorem subset_stopsAll {slot : Slot} {tree : Tree} {trees : List (Slot × Tree)}
    (h : (slot, tree) ∈ trees) (address : List Nat) (path : List PathEntry) (parent : Value)
    (i : Nat) : ∃ address', tree.stops address' (path ++ [slot.entry parent]) ⊆
      Tree.stopsAll address path parent i trees := by
  induction trees generalizing i with
  | nil => cases h
  | cons first rest ih =>
    rw [Tree.stopsAll]
    rcases List.mem_cons.mp h with rfl | h
    · exact ⟨address ++ [i], List.subset_append_left _ _⟩
    · obtain ⟨address', hsub⟩ := ih h (i + 1)
      exact ⟨address', List.subset_append_of_subset_right _ hsub⟩

/-- The stops of a tree are the nodes that a walk reaches, each by its path. -/
theorem Adapter.exists_stop_iff (a : Adapter) (root : Value) (path : List PathEntry)
    (node : Value) :
    (∃ stop ∈ a.stops root, stop.position = (path, node)) ↔ a.Reaches root path node := by
  constructor
  · intro ⟨stop, hstop, hposition⟩
    obtain ⟨rfl, rfl⟩ := Prod.mk.inj hposition
    exact reaches_of_mem_stops _ root rfl [] [] .root stop hstop
  · intro hreach
    -- Along the path the stops below a node stay among those of the root.
    have hsub : ∃ address, (a.view node).stops address path ⊆ a.stops root := by
      induction hreach with
      | root => exact ⟨[], List.Subset.refl _⟩
      | @child path node slot child _ hchild ih =>
        obtain ⟨address, hsub⟩ := ih
        obtain ⟨fields, -, hfields, -⟩ := hchild.2
        have hchildren : a.children? node = some _ := congrArg (Option.map _) hfields
        have hmem := (Adapter.mem_children?_iff hchildren).mpr hchild
        rw [Adapter.view_eq, hchildren, Tree.stops] at hsub
        obtain ⟨address', hbelow⟩ := subset_stopsAll
          (List.mem_map_of_mem (f := fun child => (child.1, a.view child.2)) hmem) address path
          node 0
        rw [List.cons_subset] at hsub
        exact ⟨address', List.Subset.trans hbelow hsub.2⟩
    obtain ⟨address, hsub⟩ := hsub
    have hfirst : ⟨address, path, node⟩ ∈ (a.view node).stops address path := by
      rw [Adapter.view_eq]
      cases a.children? node with
      | none => exact List.mem_singleton.mpr rfl
      | some children => exact List.mem_cons_self
    exact ⟨_, hsub hfirst, rfl⟩

mutual

/-- The calls of a schedule are made at the stops, in their order. -/
theorem Schedule.filterMap_calledAt {a : Adapter} {path : List PathEntry} {node : Value}
    {moments : List (Moment ε α)} (h : Schedule a path node moments) (address : List Nat) :
    moments.filterMap Moment.calledAt =
      ((a.view node).stops address path).map Stop.position := by
  -- Neither a resumption nor a yielded value calls anything, so the two ways agree.
  match h with
  | .unsuspended acc answer _ hchildren hinner =>
    have hbelow := hinner.filterMap_calledAt address 0
    rw [Adapter.view_eq, hchildren, Tree.stops, List.map_cons, ← hbelow]
    rfl
  | .suspended acc yielded results reply hchildren hinner =>
    have hbelow := hinner.filterMap_calledAt address 0
    rw [Adapter.view_eq, hchildren, Tree.stops, List.map_cons, ← hbelow]
    have hresumed : [(.resumed node path results reply : Moment ε α)].filterMap
        Moment.calledAt = [] := rfl
    show _ :: List.filterMap Moment.calledAt (_ ++ _) = _
    rw [List.filterMap_append, hresumed, List.append_nil]
    rfl
termination_by structural h

/-- The calls below children are made at the stops below them. -/
theorem ScheduleAll.filterMap_calledAt {a : Adapter} {path : List PathEntry} {parent : Value}
    {children : List (Slot × Value)} {moments : List (Moment ε α)}
    (h : ScheduleAll a path parent children moments) (address : List Nat) (i : Nat) :
    moments.filterMap Moment.calledAt =
      (Tree.stopsAll address path parent i
        (children.map fun child => (child.1, a.view child.2))).map Stop.position := by
  match h with
  | .nil => rfl
  | .cons slot child rest hfirst hrest =>
    have hfirst' := hfirst.filterMap_calledAt (address ++ [i])
    have hrest' := hrest.filterMap_calledAt address (i + 1)
    rw [List.filterMap_append, List.map_cons, Tree.stopsAll, List.map_append, hfirst', hrest']
termination_by structural h

end

/-- A call is a turn, so leaving out what is no turn leaves out no call. -/
theorem filterMap_calledAt_turns (moments : List (Moment ε α)) :
    (turns moments).filterMap Moment.calledAt = moments.filterMap Moment.calledAt := by
  unfold turns
  rw [List.filterMap_filter]
  refine List.filterMap_congr ?_
  intro m _
  cases m <;> rfl

/-- A walk that ends normally calls its step at the nodes of the tree in order. -/
theorem filterMap_calledAt_history (root : Value) (step : Step σ ε α) (init : Option α) (own : σ)
    (adapter : Option Adapter) (logger : Option (Logger σ)) {result : Option α}
    (h : (traverse root step init own adapter logger).outcome = .ok result) :
    (history root step init own adapter logger).filterMap Moment.calledAt =
      ((adapter.getD (.default root)).stops root).map Stop.position := by
  have hvisit := (visit_history root step init own adapter logger).1
  rw [h] at hvisit
  have hcalls := hvisit.schedule.filterMap_calledAt []
  rwa [filterMap_calledAt_turns] at hcalls

/-- However a walk ends, it calls its step at the first nodes of the tree in order. -/
theorem calledAt_prefix_history (root : Value) (step : Step σ ε α) (init : Option α) (own : σ)
    (adapter : Option Adapter) (logger : Option (Logger σ)) :
    (history root step init own adapter logger).filterMap Moment.calledAt <+:
      ((adapter.getD (.default root)).stops root).map Stop.position := by
  have hvisit := (visit_history root step init own adapter logger).1
  rw [← filterMap_calledAt_turns]
  by_cases hsealed : (adapter.getD (.default root)).children? root = none
  · -- The only call is that of the root, which is the only node.
    obtain ⟨answer, hcall⟩ := hvisit.turns_of_sealed hsealed
    rw [hcall, Adapter.stops, Adapter.view_eq, hsealed]
    exact List.prefix_rfl
  · -- What the walk still owes when it ends would be called after what it has called.
    obtain ⟨rest, hschedule, -⟩ := hvisit.turns_prefix hsealed
    have hcalls := hschedule.filterMap_calledAt []
    rw [List.filterMap_append] at hcalls
    exact ⟨rest.filterMap Moment.calledAt, hcalls⟩

end TreeWalk
