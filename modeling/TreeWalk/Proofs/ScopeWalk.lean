import TreeWalk.Proofs.ScopeLedger

/-! # Collecting scopes follows the ledger

A walk that collects scopes does to the store what the ledger of the tree says, entry by
entry, and it ends normally exactly if every node it comes to can be passed: its fields can
be listed, and what it declares can be gone through.

## Key results

* `Walker.visit_collectScopes` says what a visit does, `Walker.passable_of_visit` that it
  does so only if all nodes can be passed.
* `Settled` says what the entries of a ledger make of the scopes of a store.
* `traverse_collectScopes` is the walk as a whole.
-/

namespace TreeWalk

/-! ## One node -/

/-- Whether a walk that collects scopes can pass a node. -/
def Stop.Passable (a : Adapter) (stop : Stop) : Prop :=
  a.reads stop.node = true ∧
    ∃ declarations, Scopes.declared (stop.kind a) stop.node = .ok declarations

/-- The walker that collects scopes. -/
def scopeWalker (a : Adapter) : Walker ScopeStore Scopes.NotIterable Nat :=
  { step := collectScopes, adapter := a }

/-- What the entries of a ledger do to a store, one after the other. -/
def settleAll (a : Adapter) (ledger : List Placement) (store : ScopeStore) : ScopeStore :=
  ledger.foldl (fun store p => p.settle a store) store

/-- The first placement of a ledger is settled before the others. -/
theorem settleAll_cons (a : Adapter) (p : Placement) (rest : List Placement)
    (store : ScopeStore) : settleAll a (p :: rest) store = settleAll a rest (p.settle a store) :=
  rfl

/-- Two ledgers are settled one after the other. -/
theorem settleAll_append (a : Adapter) (xs ys : List Placement) (store : ScopeStore) :
    settleAll a (xs ++ ys) store = settleAll a ys (settleAll a xs store) :=
  List.foldl_append

/-- To settle a ledger opens the scopes of all its placements. -/
@[simp] theorem size_settleAll (a : Adapter) (ledger : List Placement) (store : ScopeStore) :
    (settleAll a ledger store).size = store.size + openingsOf a ledger := by
  induction ledger generalizing store with
  | nil => rfl
  | cons p rest ih =>
    rw [settleAll_cons, ih, Placement.size_settle, openingsOf_cons, Nat.add_assoc]

/-- A node that can be passed opens its scopes when it is started, and hands down the
    last. -/
theorem collectScopes_start {a : Adapter} {p : Placement} {store : ScopeStore}
    (hfirst : p.first = store.size) {declarations : List Value}
    (h : Scopes.declared (p.stop.kind a) p.stop.node = .ok declarations) :
    collectScopes.start p.stop.node (some p.scope)
        { path := p.stop.path, adapter := some a } store =
      .ok (.suspended (some (p.inner a)) fun _ _ => pure (.finished (some p.scope)))
        (p.settle a store) := by
  have hkind : (Context.kindOf { path := p.stop.path, adapter := some a } p.stop.node).getD "" =
      p.stop.kind a := rfl
  have hdeclared : p.stop.declared a = declarations := by
    unfold Stop.declared
    rw [h]
    rfl
  -- The scope in which the node is left is the one below which its children are placed.
  have hinner : p.inner a = (Scopes.enter (p.stop.kind a) (p.stop.parentKind a) p.stop.node p.scope
      (store.declareAll p.scope (p.stop.declared a))).2 := by
    simp [Placement.inner, Placement.last, Scopes.enter, Stop.openings, hfirst]
  unfold Step.start collectScopes
  simp only [pure_bind, hkind, h, Option.getD_some]
  rw [hinner, Placement.settle, hdeclared]
  rfl

/-- A node whose entries cannot be gone through makes the step fail at once. -/
theorem collectScopes_start_error {a : Adapter} {stop : Stop} {error : Scopes.NotIterable}
    (h : Scopes.declared (stop.kind a) stop.node = .error error) (scope : Nat)
    (store : ScopeStore) :
    collectScopes.start stop.node (some scope) { path := stop.path, adapter := some a } store =
      .error error store := by
  have hkind : (Context.kindOf { path := stop.path, adapter := some a } stop.node).getD "" =
      stop.kind a := rfl
  unfold Step.start collectScopes
  simp only [pure_bind, hkind, h]
  rfl

/-! ## Visits -/

namespace Walker

variable {a : Adapter}

/-- Without a logger, to log an entry does nothing. -/
private theorem logEntry_scopeWalker (kind : Option String) (s : WalkState ScopeStore) :
    (scopeWalker a).logEntry kind s = .ok () s :=
  rfl

/-- Without a logger, a call of the step is its start. -/
private theorem call_scopeWalker (stop : Stop) (scope : Nat) (store : ScopeStore) :
    (scopeWalker a).call stop.node (some scope) ⟨stop.path, store⟩ =
      Walk.ofStep (collectScopes.start stop.node (some scope)
        { path := stop.path, adapter := some a }) ⟨stop.path, store⟩ := by
  rw [call_eq]
  rfl

/-- The visit of a node that can be passed is that of its children, after the node has done
    its part. -/
theorem visit_passable {p : Placement} {store : ScopeStore} (hfirst : p.first = store.size)
    {declarations : List Value}
    (h : Scopes.declared (p.stop.kind a) p.stop.node = .ok declarations) (kind : Option String)
    (children : List (Slot × Tree)) :
    (scopeWalker a).visit (.node p.stop.node kind children) (some p.scope) ⟨p.stop.path, store⟩ =
      match (scopeWalker a).visitAll p.stop.node children (some (p.inner a))
          ⟨p.stop.path, p.settle a store⟩ with
      | .ok _ s => .ok (some p.scope) s
      | .error failure s => .error failure s := by
  -- The step declares and opens scopes first, and waits for the children in the innermost.
  have hcall : (scopeWalker a).call p.stop.node (some p.scope) ⟨p.stop.path, store⟩ =
      .ok (.suspended (some (p.inner a)) fun _ _ => pure (.finished (some p.scope)))
        ⟨p.stop.path, p.settle a store⟩ := by
    rw [call_scopeWalker]
    unfold Walk.ofStep
    rw [collectScopes_start hfirst h]
  rw [visit, bind_of_ok (logEntry_scopeWalker kind _), bind_of_ok hcall]
  show ((scopeWalker a).visitAll p.stop.node children (some (p.inner a)) >>= fun _ => _) _ = _
  cases hvisits : (scopeWalker a).visitAll p.stop.node children (some (p.inner a))
      ⟨p.stop.path, p.settle a store⟩ with
  | ok visits s =>
    rw [bind_of_ok hvisits]
    rfl
  | error failure s => rw [bind_of_error hvisits]

/-- The walk ends at a node whose declarations cannot be gone through. -/
theorem visit_notIterable {stop : Stop} {error : Scopes.NotIterable}
    (h : Scopes.declared (stop.kind a) stop.node = .error error) (scope : Nat)
    (store : ScopeStore) (kind : Option String) (children : List (Slot × Tree)) :
    (scopeWalker a).visit (.node stop.node kind children) (some scope) ⟨stop.path, store⟩ =
      .error (.step error) ⟨stop.path, store⟩ := by
  have hcall : (scopeWalker a).call stop.node (some scope) ⟨stop.path, store⟩ =
      .error (.step error) ⟨stop.path, store⟩ := by
    rw [call_scopeWalker]
    unfold Walk.ofStep
    rw [collectScopes_start_error h]
  rw [visit, bind_of_ok (logEntry_scopeWalker kind _), bind_of_error hcall]

mutual

/-- A visit that can pass all nodes follows the ledger. -/
theorem visit_collectScopes : ∀ (tree : Tree) (node : Value), a.view node = tree →
    ∀ (address : List Nat) (path : List PathEntry) (scope : Nat) (store : ScopeStore),
      (∀ stop ∈ tree.stops address path, stop.Passable a) →
      (scopeWalker a).visit tree (some scope) ⟨path, store⟩ = .ok (some scope)
        ⟨path, settleAll a (tree.ledger a address path scope store.size) store⟩
  | .sealed value, node, hview, address, path, scope, store, hpass => by
    obtain ⟨rfl, hchildren⟩ := Adapter.of_view_eq_sealed hview
    have hstop := hpass ⟨address, path, value⟩ (by simp [Tree.stops])
    have hreads := (a.children?_eq_none_iff value).mp hchildren
    exact absurd (hreads.symm.trans hstop.1) (by decide)
  | .node value kind trees, node, hview, address, path, scope, store, hpass => by
    obtain ⟨-, -, children, -, htrees⟩ := Adapter.of_view_eq_node hview
    rw [Tree.stops, List.forall_mem_cons] at hpass
    -- The node is settled first, and what is below it in the store that this leaves.
    obtain ⟨⟨-, declarations, hdeclared⟩, hbelow⟩ := hpass
    set p : Placement := ⟨⟨address, path, value⟩, scope, store.size⟩
    obtain ⟨results, hinner⟩ := visitAll_collectScopes value trees children htrees address path 0
      (p.inner a) (p.settle a store) hbelow
    have hvisit := visit_passable (p := p) rfl hdeclared kind trees
    rw [Placement.size_settle] at hinner
    rw [hinner] at hvisit
    rw [Tree.ledger, settleAll_cons]
    exact hvisit

/-- The visits of children settle their ledgers one after the other. -/
theorem visitAll_collectScopes (parent : Value) : ∀ (trees : List (Slot × Tree))
    (children : List (Slot × Value)),
    children.map (fun child => (child.1, a.view child.2)) = trees →
    ∀ (address : List Nat) (path : List PathEntry) (i scope : Nat) (store : ScopeStore),
      (∀ stop ∈ Tree.stopsAll address path parent i trees, stop.Passable a) →
      ∃ results, (scopeWalker a).visitAll parent trees (some scope) ⟨path, store⟩ = .ok results
        ⟨path, settleAll a (Tree.ledgerAll a address path parent i scope store.size trees) store⟩
  | [], children, hview, address, path, i, scope, store, hpass => by
    rw [visitAll, Tree.ledgerAll]
    exact ⟨[], rfl⟩
  | (slot, tree) :: trees, children, hview, address, path, i, scope, store, hpass => by
    obtain ⟨⟨place, child⟩, rest, rfl, hhead, hrest⟩ := List.map_eq_cons_iff.mp hview
    obtain ⟨rfl, hchild⟩ := Prod.mk.inj hhead
    rw [Tree.stopsAll] at hpass
    have hfirst := visit_collectScopes tree child hchild (address ++ [i])
      (path ++ [place.entry parent]) scope store
      fun stop hstop => hpass stop (List.mem_append_left _ hstop)
    set first := tree.ledger a (address ++ [i]) (path ++ [place.entry parent]) scope store.size
    obtain ⟨results, hothers⟩ := visitAll_collectScopes parent trees rest hrest address path (i + 1)
      scope (settleAll a first store) fun stop hstop => hpass stop (List.mem_append_right _ hstop)
    rw [size_settleAll] at hothers
    refine ⟨(place, some scope) :: results, ?_⟩
    rw [visitAll_cons, hfirst]
    simp only [List.dropLast_concat, hothers]
    rw [Tree.ledgerAll, settleAll_append]

end

mutual

/-- A visit that ends normally has passed all nodes. -/
theorem passable_of_visit : ∀ (tree : Tree) (node : Value), a.view node = tree →
    ∀ (address : List Nat) (path : List PathEntry) (scope : Nat) (store : ScopeStore)
      (result : Option Nat) (s : WalkState ScopeStore),
      (scopeWalker a).visit tree (some scope) ⟨path, store⟩ = .ok result s →
      ∀ stop ∈ tree.stops address path, stop.Passable a
  | .sealed value, node, hview, address, path, scope, store, result, s, hvisit => by
    rw [visit, bind_of_ok (logEntry_scopeWalker none _)] at hvisit
    cases hcall : (scopeWalker a).call value (some scope) ⟨path, store⟩ with
    | ok started t =>
      rw [bind_of_ok hcall] at hvisit
      cases hvisit
    | error failure t =>
      rw [bind_of_error hcall] at hvisit
      cases hvisit
  | .node value kind trees, node, hview, address, path, scope, store, result, s, hvisit => by
    obtain ⟨rfl, -, children, hchildren, htrees⟩ := Adapter.of_view_eq_node hview
    have hreads : a.reads value = true := by
      by_contra hreads
      rw [(a.children?_eq_none_iff value).mpr (Bool.eq_false_iff.mpr hreads)] at hchildren
      cases hchildren
    set p : Placement := ⟨⟨address, path, value⟩, scope, store.size⟩
    -- Entries that cannot be gone through make the walk fail, and so does what is below.
    cases hdeclared : Scopes.declared (p.stop.kind a) p.stop.node with
    | error error =>
      have hended := visit_notIterable hdeclared scope store kind trees
      rw [hended] at hvisit
      cases hvisit
    | ok declarations =>
      have hended := visit_passable (p := p) rfl hdeclared kind trees
      rw [hended] at hvisit
      cases hinner : (scopeWalker a).visitAll p.stop.node trees (some (p.inner a))
          ⟨p.stop.path, p.settle a store⟩ with
      | error failure t =>
        rw [hinner] at hvisit
        cases hvisit
      | ok results t =>
        rw [Tree.stops, List.forall_mem_cons]
        refine ⟨⟨hreads, declarations, hdeclared⟩, ?_⟩
        exact passable_of_visitAll value trees children htrees address path 0 _ _ results t hinner

/-- Visits of children that end normally have passed every stop below them. -/
theorem passable_of_visitAll (parent : Value) : ∀ (trees : List (Slot × Tree))
    (children : List (Slot × Value)),
    children.map (fun child => (child.1, a.view child.2)) = trees →
    ∀ (address : List Nat) (path : List PathEntry) (i scope : Nat) (store : ScopeStore)
      (results : List (Slot × Option Nat)) (s : WalkState ScopeStore),
      (scopeWalker a).visitAll parent trees (some scope) ⟨path, store⟩ = .ok results s →
      ∀ stop ∈ Tree.stopsAll address path parent i trees, stop.Passable a
  | [], children, hview, address, path, i, scope, store, results, s, hvisits => by
    rw [Tree.stopsAll]
    exact fun stop hstop => absurd hstop List.not_mem_nil
  | (slot, tree) :: trees, children, hview, address, path, i, scope, store, results, s,
      hvisits => by
    obtain ⟨⟨place, child⟩, rest, rfl, hhead, hrest⟩ := List.map_eq_cons_iff.mp hview
    obtain ⟨rfl, hchild⟩ := Prod.mk.inj hhead
    rw [visitAll_cons] at hvisits
    cases hfirst : (scopeWalker a).visit tree (some scope) ⟨path ++ [place.entry parent], store⟩ with
    | error failure t =>
      rw [hfirst] at hvisits
      cases hvisits
    | ok result t =>
      have hpass := passable_of_visit tree child hchild (address ++ [i])
        (path ++ [place.entry parent]) scope store result t hfirst
      -- The first visit has followed its ledger, so it left the path as it was.
      have hended := visit_collectScopes tree child hchild (address ++ [i])
        (path ++ [place.entry parent]) scope store hpass
      obtain ⟨-, rfl⟩ := EStateM.Result.ok.inj (hfirst.symm.trans hended)
      rw [hfirst] at hvisits
      simp only [List.dropLast_concat] at hvisits
      cases hothers : (scopeWalker a).visitAll parent trees (some scope) ⟨path, settleAll a
          (tree.ledger a (address ++ [i]) (path ++ [place.entry parent]) scope store.size) store⟩ with
      | error failure t =>
        rw [hothers] at hvisits
        cases hvisits
      | ok others t =>
        rw [Tree.stopsAll, List.forall_mem_append]
        exact ⟨hpass, passable_of_visitAll parent trees rest hrest address path (i + 1) scope _
          others t hothers⟩

end

end Walker

/-! ## The store afterwards -/

/-- What a ledger makes of a store: every scope keeps what it had, and gets the declarations
    and the children that the entries have for it, in their order. -/
structure Settled (a : Adapter) (ledger : List Placement) (store final : ScopeStore) : Prop where
  size_eq : final.size = store.size + openingsOf a ledger
  declarations_eq : ∀ k, (final.scope k).declarations =
    (store.scope k).declarations ++ ledger.flatMap fun p => p.declaredIn a k
  children_eq : ∀ k, (final.scope k).children =
    (store.scope k).children ++ ledger.flatMap fun p => if p.scope = k then p.opened a else []
  parent_opened : ∀ p ∈ ledger, ∀ k ∈ p.opened a, (final.scope k).parent = some p.scope
  parent_old : ∀ k, k < store.size → (final.scope k).parent = (store.scope k).parent

/-- To settle a ledger gives every scope what the placements say about it. -/
theorem settled_settleAll {a : Adapter} {ledger : List Placement} {store : ScopeStore}
    (h : Numbered a store.size ledger) : Settled a ledger store (settleAll a ledger store) := by
  induction ledger generalizing store with
  | nil =>
    refine ⟨rfl, ?_, ?_, ?_, fun k _ => rfl⟩
    · intro k
      simp [settleAll]
    · intro k
      simp [settleAll]
    · intro p hp
      cases hp
  | cons p rest ih =>
    obtain ⟨hfirst, hscope, hrest⟩ := h
    rw [← Placement.size_settle a p] at hrest
    -- The first placement says what it does, and the others say so of the store after it.
    have hsettled := ih hrest
    have hp := Placement.scope_settle a p hfirst hscope
    refine ⟨size_settleAll .., ?_, ?_, ?_, ?_⟩
    · intro k
      rw [settleAll_cons, hsettled.declarations_eq, hp, List.flatMap_cons, List.append_assoc]
    · intro k
      rw [settleAll_cons, hsettled.children_eq, hp, List.flatMap_cons, List.append_assoc]
    · intro q hq k hk
      rw [settleAll_cons]
      rcases List.mem_cons.mp hq with rfl | hq
      · -- The scopes opened by the first node are old ones for the others.
        have hlt : k < (q.settle a store).size := by
          rw [Placement.opened, List.mem_range'_1] at hk
          rw [Placement.size_settle]
          omega
        rw [hsettled.parent_old k hlt, hp, if_pos hk]
      · exact hsettled.parent_opened q hq k hk
    · intro k hk
      have hlt : k < (p.settle a store).size := by
        rw [Placement.size_settle]
        omega
      have hnew : k ∉ p.opened a := by
        rw [Placement.opened, List.mem_range'_1]
        omega
      rw [settleAll_cons, hsettled.parent_old k hlt, hp, if_neg hnew]

/-! ## The walk -/

/-- A walk that collects scopes ends normally exactly if it can pass all nodes; then it
    gives back the scope it was given, and has settled the ledger of the tree. -/
theorem traverse_collectScopes (root : Value) (adapter : Option Adapter) {s : Nat}
    {store : ScopeStore} (hs : s < store.size) :
    let a := adapter.getD (.default root)
    let walk := traverse root collectScopes (some s) store adapter none
    ((∀ stop ∈ a.stops root, stop.Passable a) ↔ ∃ result, walk.outcome = .ok result) ∧
      ((∀ stop ∈ a.stops root, stop.Passable a) → walk.outcome = .ok (some s) ∧
        Settled a (a.ledger root s store.size) store walk.own) := by
  intro a walk
  have hwalk : walk = .ofVisit ((scopeWalker a).visit (a.view root) (some s) ⟨[], store⟩) :=
    traverse_eq ..
  -- One direction is computed with the ledger; for the other, a walk that ends has passed every
  -- stop.
  have hended : (∀ stop ∈ a.stops root, stop.Passable a) → walk.outcome = .ok (some s) ∧
      Settled a (a.ledger root s store.size) store walk.own := by
    intro hpass
    rw [hwalk, Walker.visit_collectScopes _ root rfl [] [] s store hpass]
    exact ⟨rfl, settled_settleAll (a.isLedger_ledger root hs).numbered⟩
  refine ⟨⟨fun hpass => ⟨some s, (hended hpass).1⟩, ?_⟩, hended⟩
  intro ⟨result, houtcome⟩
  rw [hwalk] at houtcome
  cases hvisit : (scopeWalker a).visit (a.view root) (some s) ⟨[], store⟩ with
  | ok result t => exact Walker.passable_of_visit _ root rfl [] [] s store result t hvisit
  | error failure t =>
    rw [hvisit] at houtcome
    cases houtcome

end TreeWalk
