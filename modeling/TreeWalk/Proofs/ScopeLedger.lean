import TreeWalk.Proofs.Preorder
import TreeWalk.Proofs.ScopeStore

/-! # The ledger of scopes

Collecting scopes does two things at every node: it declares something in the scope that
the node stands in, and it opens scopes for what stands below the node.  The ledger of a
tree writes down for every node, in the order of the walk, which scope that is and which
number the first scope opened there gets.  The walk does to the store of scopes what the
ledger says, entry by entry.

## Key results

* `IsLedger` says what a ledger is in terms of the nodes above a node: the scope a node
  stands in is the last one opened by the nearest node above it that opens any.
* `Adapter.isLedger_ledger` says that every tree has a ledger.
* `Walker.visit_collectScopes` says that the walk follows the ledger.
-/

namespace TreeWalk

/-! ## Entries of a ledger -/

namespace Stop

variable (a : Adapter) (stop : Stop)

/-- The kind of the node, the empty text if it has none. -/
def kind : String :=
  (a.kindOf stop.node).getD ""

/-- The kind of the node directly above. -/
def parentKind : Option String :=
  Context.parentKind { path := stop.path, adapter := some a }

/-- How many scopes the node opens. -/
def openings : Nat :=
  Scopes.openings (stop.kind a) (stop.parentKind a)

/-- What the node declares in the scope it stands in. -/
def declared : List Value :=
  (Scopes.declared (stop.kind a) stop.node).toOption.getD []

/-- What the node declares in the first scope that it opens itself. -/
def declaredInside : List Value :=
  if Scopes.declaresInside (stop.kind a) stop.node = true then [stop.node] else []

end Stop

/-- A node with the number of the scope it stands in and the number that the first scope
    opened by it gets. -/
structure Placement where
  stop : Stop
  scope : Nat
  first : Nat

namespace Placement

variable (a : Adapter) (p : Placement)

/-- The numbers of the scopes opened by the node. -/
def opened : List Nat :=
  List.range' p.first (p.stop.openings a)

/-- The last scope opened by the node. -/
def last : Nat :=
  p.first + p.stop.openings a - 1

/-- The scope that the children of the node stand in. -/
def inner : Nat :=
  if p.stop.openings a = 0 then p.scope else p.last a

/-- What the node declares in the scope `k`. -/
def declaredIn (k : Nat) : List Value :=
  (if p.scope = k then p.stop.declared a else []) ++
    if p.first = k then p.stop.declaredInside a else []

/-- What the node does to a store. -/
def settle (store : ScopeStore) : ScopeStore :=
  (Scopes.enter (p.stop.kind a) (p.stop.parentKind a) p.stop.node p.scope
    (store.declareAll p.scope (p.stop.declared a))).1

/-- To settle a placement opens its scopes. -/
@[simp] theorem size_settle (store : ScopeStore) :
    (p.settle a store).size = store.size + p.stop.openings a := by
  unfold settle
  rw [Scopes.size_enter, ScopeStore.size_declareAll]
  rfl

/-- The scopes of a store after a node has done its part. -/
theorem scope_settle {store : ScopeStore} (hfirst : p.first = store.size)
    (hscope : p.scope < store.size) (k : Nat) :
    (p.settle a store).scope k =
      { parent := if k ∈ p.opened a then some p.scope else (store.scope k).parent
        declarations := (store.scope k).declarations ++ p.declaredIn a k
        children := (store.scope k).children ++ if p.scope = k then p.opened a else [] } := by
  unfold settle
  rw [Scopes.scope_enter _ _ _ (by rw [ScopeStore.size_declareAll]; exact hscope),
    ScopeStore.size_declareAll, ScopeStore.scope_declareAll store hscope]
  -- The numbers of the scopes opened are those from the size of the store on.
  have hmem : (store.size ≤ k ∧ k < store.size + p.stop.openings a) ↔ k ∈ p.opened a := by
    rw [opened, List.mem_range'_1, hfirst]
  have hinside : (if Scopes.declaresInside (p.stop.kind a) p.stop.node = true ∧ store.size = k
        then [p.stop.node] else []) = if store.size = k then p.stop.declaredInside a else [] := by
    unfold Stop.declaredInside
    by_cases hk : store.size = k <;> simp [hk]
  simp only [Stop.openings] at hmem
  simp only [hmem, eq_comm (a := k), hinside, declaredIn, opened, Stop.openings, hfirst,
    List.append_assoc]

end Placement

/-- The number of scopes that the nodes of a ledger open. -/
def openingsOf (a : Adapter) : List Placement → Nat
  | [] => 0
  | p :: rest => p.stop.openings a + openingsOf a rest

/-- No placements open no scopes. -/
@[simp] theorem openingsOf_nil (a : Adapter) : openingsOf a [] = 0 :=
  rfl

/-- A placement opens its scopes before the others do. -/
@[simp] theorem openingsOf_cons (a : Adapter) (p : Placement) (ledger : List Placement) :
    openingsOf a (p :: ledger) = p.stop.openings a + openingsOf a ledger :=
  rfl

/-! ## The ledger of a tree -/

namespace Tree

mutual

/-- The ledger of a tree whose root stands in `scope`, the next scope opened getting the
    number `next`. -/
def ledger (a : Adapter) (address : List Nat) (path : List PathEntry) (scope next : Nat) :
    Tree → List Placement
  | .node value _ children =>
    let p : Placement := ⟨⟨address, path, value⟩, scope, next⟩
    p :: ledgerAll a address path value 0 (p.inner a) (next + p.stop.openings a) children
  | .sealed value => [⟨⟨address, path, value⟩, scope, next⟩]

/-- The ledger of the children of `parent` from the one with the number `i` on. -/
def ledgerAll (a : Adapter) (address : List Nat) (path : List PathEntry) (parent : Value)
    (i scope next : Nat) : List (Slot × Tree) → List Placement
  | [] => []
  | (slot, tree) :: rest =>
    let first := tree.ledger a (address ++ [i]) (path ++ [slot.entry parent]) scope next
    first ++ ledgerAll a address path parent (i + 1) scope (next + openingsOf a first) rest

end

variable {a : Adapter}

mutual

/-- The ledger of a tree has an entry for every node, in order. -/
theorem map_stop_ledger : ∀ (tree : Tree) (address : List Nat) (path : List PathEntry)
    (scope next : Nat),
    (tree.ledger a address path scope next).map Placement.stop = tree.stops address path
  | .sealed value, address, path, scope, next => by
    rw [ledger, stops]
    rfl
  | .node value kind children, address, path, scope, next => by
    rw [ledger, stops, List.map_cons, map_stop_ledgerAll]

/-- The ledger of children has their stops. -/
theorem map_stop_ledgerAll : ∀ (children : List (Slot × Tree)) (address : List Nat)
    (path : List PathEntry) (parent : Value) (i scope next : Nat),
    (ledgerAll a address path parent i scope next children).map Placement.stop =
      stopsAll address path parent i children
  | [], address, path, parent, i, scope, next => by
    rw [ledgerAll, stopsAll]
    rfl
  | (slot, tree) :: rest, address, path, parent, i, scope, next => by
    rw [ledgerAll, stopsAll, List.map_append, map_stop_ledger, map_stop_ledgerAll]

end

end Tree

/-! ## Numbers -/

/-- The scopes opened get the numbers from `next` on in the order of the ledger, and every
    node stands in a scope opened before. -/
def Numbered (a : Adapter) : Nat → List Placement → Prop
  | _, [] => True
  | next, p :: rest =>
    p.first = next ∧ p.scope < next ∧ Numbered a (next + p.stop.openings a) rest

namespace Numbered

variable {a : Adapter}

/-- Two ledgers are numbered one after the other. -/
theorem append {xs ys : List Placement} {next : Nat} (hxs : Numbered a next xs)
    (hys : Numbered a (next + openingsOf a xs) ys) : Numbered a next (xs ++ ys) := by
  induction xs generalizing next with
  | nil => exact hys
  | cons p rest ih =>
    obtain ⟨hfirst, hscope, hrest⟩ := hxs
    refine ⟨hfirst, hscope, ih hrest ?_⟩
    rwa [Nat.add_assoc, ← openingsOf_cons]

/-- The scopes that a placement opens are among those that the ledger opens. -/
theorem le_first {ledger : List Placement} {next : Nat} (h : Numbered a next ledger)
    {p : Placement} (hp : p ∈ ledger) :
    next ≤ p.first ∧ p.first + p.stop.openings a ≤ next + openingsOf a ledger := by
  induction ledger generalizing next with
  | nil => cases hp
  | cons q rest ih =>
    obtain ⟨hfirst, -, hrest⟩ := h
    rw [openingsOf_cons]
    rcases List.mem_cons.mp hp with rfl | hp
    · omega
    · have hbounds := ih hrest hp
      omega

/-- A placement lies in a scope that was there before it. -/
theorem scope_lt {ledger : List Placement} {next : Nat} (h : Numbered a next ledger)
    {p : Placement} (hp : p ∈ ledger) : p.scope < p.first := by
  induction ledger generalizing next with
  | nil => cases hp
  | cons q rest ih =>
    obtain ⟨hfirst, hscope, hrest⟩ := h
    rcases List.mem_cons.mp hp with rfl | hp
    · omega
    · exact ih hrest hp

/-- No scope is opened twice. -/
theorem eq_of_mem_opened {ledger : List Placement} {next : Nat} (h : Numbered a next ledger)
    {p q : Placement} (hp : p ∈ ledger) (hq : q ∈ ledger) {k : Nat} (hkp : k ∈ p.opened a)
    (hkq : k ∈ q.opened a) : p = q := by
  rw [Placement.opened, List.mem_range'_1] at hkp hkq
  induction ledger generalizing next with
  | nil => cases hp
  | cons first rest ih =>
    obtain ⟨hfirst, -, hrest⟩ := h
    -- The scopes opened by the first node come before all others.
    rcases List.mem_cons.mp hp with rfl | hp'
    · rcases List.mem_cons.mp hq with rfl | hq'
      · rfl
      · have hbounds := hrest.le_first hq'
        omega
    · rcases List.mem_cons.mp hq with rfl | hq'
      · have hbounds := hrest.le_first hp'
        omega
      · exact ih hrest hp' hq'

/-- Every number that is given out goes to a scope opened by one of the nodes. -/
theorem exists_opened {ledger : List Placement} {next : Nat} (h : Numbered a next ledger)
    {k : Nat} (hle : next ≤ k) (hlt : k < next + openingsOf a ledger) :
    ∃ p ∈ ledger, k ∈ p.opened a := by
  induction ledger generalizing next with
  | nil =>
    rw [openingsOf_nil] at hlt
    omega
  | cons p rest ih =>
    obtain ⟨hfirst, -, hrest⟩ := h
    -- The scope is one of the first placement, or has a greater number.
    by_cases hk : k < next + p.stop.openings a
    · refine ⟨p, List.mem_cons_self, ?_⟩
      rw [Placement.opened, List.mem_range'_1]
      omega
    · rw [openingsOf_cons] at hlt
      obtain ⟨q, hq, hopened⟩ := ih hrest (by omega) (by omega)
      exact ⟨q, List.mem_cons_of_mem _ hq, hopened⟩

end Numbered

namespace Placement

variable {a : Adapter} {p : Placement}

/-- The first scope of a placement is one that it opens, if it opens any. -/
theorem first_mem_opened (h : 0 < p.stop.openings a) : p.first ∈ p.opened a := by
  rw [opened, List.mem_range'_1]
  omega

/-- The last scope of a placement is one that it opens, if it opens any. -/
theorem last_mem_opened (h : 0 < p.stop.openings a) : p.last a ∈ p.opened a := by
  rw [opened, List.mem_range'_1, last]
  omega

/-- What is below a placement lies in a scope that is there when the placement is settled. -/
theorem inner_lt {next : Nat} (hfirst : p.first = next) (hscope : p.scope < next) :
    p.inner a < next + p.stop.openings a := by
  unfold inner last
  split <;> omega

end Placement

namespace Tree

variable {a : Adapter}

mutual

/-- The ledger of a tree is numbered in order. -/
theorem numbered_ledger : ∀ (tree : Tree) (address : List Nat) (path : List PathEntry)
    {scope next : Nat}, scope < next → Numbered a next (tree.ledger a address path scope next)
  | .sealed value, address, path, scope, next, h => by
    rw [ledger]
    exact ⟨rfl, h, trivial⟩
  | .node value kind children, address, path, scope, next, h => by
    rw [ledger]
    exact ⟨rfl, h, numbered_ledgerAll children address path value 0 (Placement.inner_lt rfl h)⟩

/-- So is the ledger of children. -/
theorem numbered_ledgerAll : ∀ (children : List (Slot × Tree)) (address : List Nat)
    (path : List PathEntry) (parent : Value) (i : Nat) {scope next : Nat}, scope < next →
    Numbered a next (ledgerAll a address path parent i scope next children)
  | [], address, path, parent, i, scope, next, h => by
    rw [ledgerAll]
    trivial
  | (slot, tree) :: rest, address, path, parent, i, scope, next, h => by
    rw [ledgerAll]
    have hfirst := numbered_ledger tree (address ++ [i]) (path ++ [slot.entry parent]) h
    exact hfirst.append (numbered_ledgerAll rest address path parent (i + 1) (by omega))

end

end Tree

/-! ## The scope around a node -/

/-- Among the nodes of a ledger, `m` is the nearest above `p` that opens a scope. -/
structure NearestOpener (a : Adapter) (ledger : List Placement) (m p : Placement) : Prop where
  mem : m ∈ ledger
  above : m.stop.IsAbove p.stop
  opens : 0 < m.stop.openings a
  nearest : ∀ q ∈ ledger, q.stop.IsAbove p.stop → 0 < q.stop.openings a →
    q.stop.address <+: m.stop.address

/-- A node stands in the last scope opened by the nearest node above it that opens any, and
    in the scope `s` if there is none. -/
def Placement.Enclosed (a : Adapter) (s : Nat) (ledger : List Placement) (p : Placement) : Prop :=
  (∃ m, NearestOpener a ledger m p ∧ p.scope = m.last a) ∨
    ((∀ q ∈ ledger, q.stop.IsAbove p.stop → q.stop.openings a = 0) ∧ p.scope = s)

namespace Placement.Enclosed

variable {a : Adapter} {s : Nat} {ledger : List Placement} {p : Placement}

/-- Nodes that are not above a node do not matter for the scope that it stands in. -/
theorem of_subset {more : List Placement} (h : p.Enclosed a s ledger) (hsub : ledger ⊆ more)
    (hmore : ∀ q ∈ more, q ∈ ledger ∨ ¬ q.stop.IsAbove p.stop) : p.Enclosed a s more := by
  have hold : ∀ q ∈ more, q.stop.IsAbove p.stop → q ∈ ledger :=
    fun q hq habove => (hmore q hq).resolve_right (not_not_intro habove)
  rcases h with ⟨m, hm, hscope⟩ | ⟨hnone, hscope⟩
  · refine .inl ⟨m, ⟨hsub hm.mem, hm.above, hm.opens, ?_⟩, hscope⟩
    intro q hq habove hopens
    exact hm.nearest q (hold q hq habove) habove hopens
  · refine .inr ⟨?_, hscope⟩
    intro q hq habove
    exact hnone q (hold q hq habove) habove

/-- A node that is put above others hands its scope on to those that stood in none of
    theirs. -/
theorem cons {top : Placement} (htop : ∀ q ∈ ledger, top.stop.IsAbove q.stop)
    (hp : p ∈ ledger) (h : p.Enclosed a (top.inner a) ledger) :
    p.Enclosed a top.scope (top :: ledger) := by
  -- The nearest opener below the top stays the nearest; if there was none, it is the top or still
  -- none.
  rcases h with ⟨m, hm, hscope⟩ | ⟨hnone, hscope⟩
  · refine .inl ⟨m, ⟨List.mem_cons_of_mem _ hm.mem, hm.above, hm.opens, ?_⟩, hscope⟩
    intro q hq habove hopens
    rcases List.mem_cons.mp hq with rfl | hq
    · exact (htop m hm.mem).1
    · exact hm.nearest q hq habove hopens
  · unfold Placement.inner at hscope
    split at hscope
    · next hopens =>
      refine .inr ⟨?_, hscope⟩
      intro q hq habove
      rcases List.mem_cons.mp hq with rfl | hq
      · exact hopens
      · exact hnone q hq habove
    · next hopens =>
      refine .inl ⟨top, ⟨List.mem_cons_self, htop p hp, Nat.pos_of_ne_zero hopens, ?_⟩, hscope⟩
      intro q hq habove hpos
      rcases List.mem_cons.mp hq with rfl | hq
      · exact List.prefix_rfl
      · exact absurd (hnone q hq habove) (Nat.ne_of_gt hpos)

end Placement.Enclosed

namespace Tree

variable {a : Adapter}

/-- The addresses in the ledger of a tree start with that of the tree. -/
theorem prefix_of_mem_ledger {tree : Tree} {address : List Nat} {path : List PathEntry}
    {scope next : Nat} {p : Placement} (h : p ∈ tree.ledger a address path scope next) :
    address <+: p.stop.address := by
  have hstop : p.stop ∈ tree.stops address path := by
    rw [← map_stop_ledger tree address path scope next]
    exact List.mem_map_of_mem h
  exact prefix_of_mem_stops hstop

/-- The addresses in the ledger of children go on with the number of a child. -/
theorem exists_prefix_of_mem_ledgerAll {children : List (Slot × Tree)} {address : List Nat}
    {path : List PathEntry} {parent : Value} {i scope next : Nat} {p : Placement}
    (h : p ∈ ledgerAll a address path parent i scope next children) :
    ∃ j, i ≤ j ∧ address ++ [j] <+: p.stop.address := by
  have hstop : p.stop ∈ stopsAll address path parent i children := by
    rw [← map_stop_ledgerAll children address path parent i scope next]
    exact List.mem_map_of_mem h
  exact exists_prefix_of_mem_stopsAll hstop

mutual

/-- In the ledger of a tree every placement lies in the last scope of the nearest opener above it.
    -/
theorem enclosed_ledger : ∀ (tree : Tree) (address : List Nat) (path : List PathEntry)
    (scope next : Nat), ∀ p ∈ tree.ledger a address path scope next,
      p.Enclosed a scope (tree.ledger a address path scope next)
  | .sealed value, address, path, scope, next, p, hp => by
    rw [ledger] at hp ⊢
    obtain rfl := List.mem_singleton.mp hp
    refine .inr ⟨?_, rfl⟩
    intro q hq habove
    obtain rfl := List.mem_singleton.mp hq
    exact absurd rfl habove.2
  | .node value kind children, address, path, scope, next, p, hp => by
    rw [ledger] at hp ⊢
    set top : Placement := ⟨⟨address, path, value⟩, scope, next⟩
    set below := ledgerAll a address path value 0 (top.inner a) (next + top.stop.openings a)
      children with hbelow
    have htop : ∀ q ∈ below, top.stop.IsAbove q.stop := by
      intro q hq
      obtain ⟨j, -, hprefix⟩ := exists_prefix_of_mem_ledgerAll hq
      refine ⟨(List.prefix_append address [j]).trans hprefix, ?_⟩
      intro heq
      have hlength := hprefix.length_le
      rw [← heq, List.length_append, List.length_singleton] at hlength
      exact Nat.not_succ_le_self _ hlength
    rcases List.mem_cons.mp hp with rfl | hp
    · -- All others are below the root, so nothing is above it.
      refine .inr ⟨?_, rfl⟩
      intro q hq habove
      rcases List.mem_cons.mp hq with rfl | hq
      · exact absurd rfl habove.2
      · have heq := (htop q hq).1.eq_of_length_le habove.1.length_le
        exact absurd heq.symm habove.2
    · exact .cons htop hp (enclosed_ledgerAll children address path value 0 _ _ p hp)

/-- So it is in the ledger of children, none of which is above another. -/
theorem enclosed_ledgerAll : ∀ (children : List (Slot × Tree)) (address : List Nat)
    (path : List PathEntry) (parent : Value) (i scope next : Nat),
    ∀ p ∈ ledgerAll a address path parent i scope next children,
      p.Enclosed a scope (ledgerAll a address path parent i scope next children)
  | [], address, path, parent, i, scope, next, p, hp => by
    rw [ledgerAll] at hp
    cases hp
  | (slot, tree) :: rest, address, path, parent, i, scope, next, p, hp => by
    rw [ledgerAll] at hp ⊢
    -- What is below one child is not above what is below another.
    rcases List.mem_append.mp hp with hp | hp
    · have hfirst := enclosed_ledger tree _ _ _ _ p hp
      refine hfirst.of_subset (List.subset_append_left _ _) ?_
      intro q hq
      refine (List.mem_append.mp hq).imp_right fun hq => ?_
      obtain ⟨j, hj, hprefix⟩ := exists_prefix_of_mem_ledgerAll hq
      exact Stop.not_isAbove hprefix (prefix_of_mem_ledger hp) (by omega)
    · have hrest := enclosed_ledgerAll rest _ _ _ _ _ _ p hp
      refine hrest.of_subset (List.subset_append_right _ _) ?_
      intro q hq
      refine (List.mem_append.mp hq).symm.imp_right fun hq => ?_
      obtain ⟨j, hj, hprefix⟩ := exists_prefix_of_mem_ledgerAll hp
      exact Stop.not_isAbove (prefix_of_mem_ledger hq) hprefix (by omega)

end

end Tree

/-! ## Ledgers -/

/-- A ledger of some stops has an entry for each, numbers the scopes from `base` on, and
    knows for every node the scope around it, which is `s` where no other is. -/
structure IsLedger (a : Adapter) (s base : Nat) (stops : List Stop) (ledger : List Placement) :
    Prop where
  stops_eq : ledger.map Placement.stop = stops
  numbered : Numbered a base ledger
  enclosed : ∀ p ∈ ledger, p.Enclosed a s ledger

/-- The ledger of the tree below `root`. -/
def Adapter.ledger (a : Adapter) (root : Value) (s base : Nat) : List Placement :=
  (a.view root).ledger a [] [] s base

/-- Every tree has a ledger. -/
theorem Adapter.isLedger_ledger (a : Adapter) (root : Value) {s base : Nat} (h : s < base) :
    IsLedger a s base (a.stops root) (a.ledger root s base) where
  stops_eq := Tree.map_stop_ledger _ _ _ _ _
  numbered := Tree.numbered_ledger _ _ _ h
  enclosed := Tree.enclosed_ledger _ _ _ _ _

end TreeWalk
