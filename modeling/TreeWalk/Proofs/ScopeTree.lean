import Mathlib.Data.Set.Card
import Mathlib.Logic.Relation
import Mathlib.Order.Interval.Finset.Nat
import TreeWalk.Proofs.ScopeWalk

/-! # The tree of scopes

A walk that collects scopes from one without parent and children leaves behind a tree of
scopes, linked in both directions.  It is the tree of nodes with all nodes taken out that
open no scope.

## Key results

* `ScopeStore.Within` is how scopes lie in each other.
* `Grown` is what is known of the store after such a walk; `Grown.within_iff` says which
  scopes can be reached, `Grown.mem_children_iff` that parents and children agree,
  `Grown.parent_eq_iff` how scopes follow the nodes that opened them.
* `traverse_scopeTree` is the shape of the tree of scopes after a walk.
-/

namespace TreeWalk

/-- A scope lies in `s` if it can be reached from `s` going from scopes to their
    children. -/
def ScopeStore.Within (store : ScopeStore) : Nat → Nat → Prop :=
  Relation.ReflTransGen fun p c => c ∈ (store.scope p).children

/-- The scopes around a scope can be reached going from scopes to their parents. -/
def ScopeStore.Around (store : ScopeStore) : Nat → Nat → Prop :=
  Relation.ReflTransGen fun c p => (store.scope c).parent = some p

/-- The store `final` has grown out of `store` below the scope `s`, which had neither parent
    nor children, by the ledger of a tree. -/
structure Grown (a : Adapter) (s : Nat) (stops : List Stop) (ledger : List Placement)
    (store final : ScopeStore) : Prop where
  start_lt : s < store.size
  start_parent : (store.scope s).parent = none
  start_children : (store.scope s).children = []
  isLedger : IsLedger a s store.size stops ledger
  settled : Settled a ledger store final

/-! ## Numbers of a ledger -/

namespace Numbered

variable {a : Adapter}

/-- The children of a scope have rising numbers. -/
theorem pairwise_children {ledger : List Placement} {next : Nat} (h : Numbered a next ledger)
    (k : Nat) :
    (ledger.flatMap fun p => if p.scope = k then p.opened a else []).Pairwise (· < ·) := by
  induction ledger generalizing next with
  | nil => exact List.Pairwise.nil
  | cons p rest ih =>
    obtain ⟨hfirst, -, hrest⟩ := h
    -- What a placement opens is in order, and the placements after it open greater numbers.
    have hopened : (if p.scope = k then p.opened a else []).Pairwise (· < ·) := by
      split
      · exact List.pairwise_lt_range'
      · exact List.Pairwise.nil
    rw [List.flatMap_cons, List.pairwise_append]
    refine ⟨hopened, ih hrest, ?_⟩
    intro i hi j hj
    obtain ⟨q, hq, hj⟩ := List.mem_flatMap.mp hj
    have hbounds := hrest.le_first hq
    rw [List.mem_ite_nil_right, Placement.opened, List.mem_range'_1] at hi hj
    omega

end Numbered

/-- If the last scope of one node is opened by another, the nodes are the same. -/
theorem IsLedger.eq_of_last_mem {a : Adapter} {s base : Nat} {stops : List Stop}
    {ledger : List Placement} (h : IsLedger a s base stops ledger) {m p : Placement}
    (hm : m ∈ ledger) (hp : p ∈ ledger) (hopens : 0 < m.stop.openings a)
    (hlast : m.last a ∈ p.opened a) : m = p :=
  h.numbered.eq_of_mem_opened hm hp (Placement.last_mem_opened hopens) hlast

/-- The nearest node above that opens a scope is unique. -/
theorem NearestOpener.unique {a : Adapter} {ledger : List Placement} {m m' p : Placement}
    (hnodup : ((ledger.map Placement.stop).map Stop.address).Nodup)
    (h : NearestOpener a ledger m p) (h' : NearestOpener a ledger m' p) : m = m' := by
  have hprefix := h'.nearest m h.mem h.above h.opens
  have hprefix' := h.nearest m' h'.mem h'.above h'.opens
  have haddress := hprefix.eq_of_length_le hprefix'.length_le
  rw [List.map_map] at hnodup
  exact List.inj_on_of_nodup_map hnodup h.mem h'.mem haddress

/-! ## The scopes of a grown store -/

namespace Grown

variable {a : Adapter} {s : Nat} {stops : List Stop} {ledger : List Placement}
  {store final : ScopeStore}

/-- The children of the scopes that have grown, and of that they have grown from, are the
    ones opened in them, in the order of the ledger. -/
theorem children_eq (h : Grown a s stops ledger store final) {k : Nat}
    (hk : k = s ∨ store.size ≤ k) : (final.scope k).children =
      ledger.flatMap fun p => if p.scope = k then p.opened a else [] := by
  have hold : (store.scope k).children = [] := by
    rcases hk with rfl | hk
    · exact h.start_children
    · rw [ScopeStore.scope_of_size_le hk]
  rw [h.settled.children_eq, hold, List.nil_append]

/-- A scope is a child of the one in which the placement that opened it lies. -/
theorem mem_children_of_opened (h : Grown a s stops ledger store final) {p : Placement}
    (hp : p ∈ ledger) {c : Nat} (hc : c ∈ p.opened a) :
    c ∈ (final.scope p.scope).children := by
  rw [h.settled.children_eq]
  refine List.mem_append_right _ (List.mem_flatMap.mpr ⟨p, hp, ?_⟩)
  rw [if_pos rfl]
  exact hc

/-- A scope that has grown was opened by a node, in the scope around that node. -/
theorem exists_opened (h : Grown a s stops ledger store final) {c : Nat}
    (hle : store.size ≤ c) (hlt : c < final.size) :
    ∃ p ∈ ledger, c ∈ p.opened a ∧ (final.scope c).parent = some p.scope ∧ p.scope < c := by
  rw [h.settled.size_eq] at hlt
  obtain ⟨p, hp, hc⟩ := h.isLedger.numbered.exists_opened hle hlt
  have hscope := h.isLedger.numbered.scope_lt hp
  have hfirst := (List.mem_range'_1.mp hc).1
  exact ⟨p, hp, hc, h.settled.parent_opened p hp c hc, by omega⟩

/-- A scope that was opened has a number between the old size and the new one. -/
theorem bounds_of_opened (h : Grown a s stops ledger store final) {p : Placement}
    (hp : p ∈ ledger) {c : Nat} (hc : c ∈ p.opened a) : store.size ≤ c ∧ c < final.size := by
  have hbounds := h.isLedger.numbered.le_first hp
  rw [Placement.opened, List.mem_range'_1] at hc
  rw [h.settled.size_eq]
  omega

/-- A node stands in the scope that all has grown from, or in one that has grown. -/
theorem scope_cases (h : Grown a s stops ledger store final) {p : Placement} (hp : p ∈ ledger) :
    p.scope = s ∨ (store.size ≤ p.scope ∧ p.scope < final.size) := by
  rcases h.isLedger.enclosed p hp with ⟨m, hm, hscope⟩ | ⟨-, hscope⟩
  · rw [hscope]
    exact .inr (h.bounds_of_opened hm.mem (Placement.last_mem_opened hm.opens))
  · exact .inl hscope

/-- The scopes within the one that all has grown from are this one and those that have
    grown. -/
theorem within_iff (h : Grown a s stops ledger store final) (k : Nat) :
    final.Within s k ↔ k = s ∨ (store.size ≤ k ∧ k < final.size) := by
  constructor
  · intro hwithin
    induction hwithin with
    | refl => exact .inl rfl
    | @tail p c _ hc ih =>
      rw [h.children_eq (ih.imp_right And.left)] at hc
      obtain ⟨q, hq, hc⟩ := List.mem_flatMap.mp hc
      exact .inr (h.bounds_of_opened hq (List.mem_ite_nil_right.mp hc).2)
  · -- Parents have smaller numbers, so the induction is on the number.
    intro hk
    induction k using Nat.strongRecOn with
    | _ k ih =>
      rcases hk with rfl | ⟨hle, hlt⟩
      · exact .refl
      · obtain ⟨p, hp, hc, -, hscope⟩ := h.exists_opened hle hlt
        exact .tail (ih p.scope hscope (h.scope_cases hp)) (h.mem_children_of_opened hp hc)

/-- The scope that the walk starts with has no parent. -/
theorem parent_start (h : Grown a s stops ledger store final) : (final.scope s).parent = none := by
  rw [h.settled.parent_old s h.start_lt, h.start_parent]

/-- Parents and children agree. -/
theorem mem_children_iff (h : Grown a s stops ledger store final) {p c : Nat}
    (hp : final.Within s p) (hc : final.Within s c) :
    c ∈ (final.scope p).children ↔ (final.scope c).parent = some p := by
  constructor
  · intro hmem
    -- Children are what placements in the scope opened, and these have it as their parent.
    rw [h.children_eq (((h.within_iff p).mp hp).imp_right And.left)] at hmem
    obtain ⟨q, hq, hmem⟩ := List.mem_flatMap.mp hmem
    obtain ⟨rfl, hopened⟩ := List.mem_ite_nil_right.mp hmem
    exact h.settled.parent_opened q hq c hopened
  · intro hparent
    rcases (h.within_iff c).mp hc with rfl | ⟨hle, hlt⟩
    · rw [h.parent_start] at hparent
      cases hparent
    · obtain ⟨q, hq, hopened, hparent', -⟩ := h.exists_opened hle hlt
      obtain rfl := Option.some.inj (hparent'.symm.trans hparent)
      exact h.mem_children_of_opened hq hopened

/-- The parent of a scope comes before it, and lies within the same scope. -/
theorem parent_lt (h : Grown a s stops ledger store final) {p c : Nat} (hc : final.Within s c)
    (hparent : (final.scope c).parent = some p) : p < c ∧ final.Within s p := by
  rcases (h.within_iff c).mp hc with rfl | ⟨hle, hlt⟩
  · rw [h.parent_start] at hparent
    cases hparent
  · obtain ⟨q, hq, -, hparent', hscope⟩ := h.exists_opened hle hlt
    obtain rfl := Option.some.inj (hparent'.symm.trans hparent)
    exact ⟨hscope, (h.within_iff q.scope).mpr (h.scope_cases hq)⟩

/-- Every scope but the first is once among the children of one scope. -/
theorem exists_unique_parent (h : Grown a s stops ledger store final) {c : Nat}
    (hc : final.Within s c) (hne : c ≠ s) :
    ∃ p, final.Within s p ∧ (final.scope p).children.count c = 1 ∧
      ∀ q, final.Within s q → c ∈ (final.scope q).children → q = p := by
  obtain ⟨hle, hlt⟩ := ((h.within_iff c).mp hc).resolve_left hne
  obtain ⟨p, hp, hopened, hparent, -⟩ := h.exists_opened hle hlt
  have hwithin : final.Within s p.scope := (h.within_iff p.scope).mpr (h.scope_cases hp)
  have hmem := h.mem_children_of_opened hp hopened
  refine ⟨p.scope, hwithin, ?_, ?_⟩
  · rw [h.children_eq ((h.scope_cases hp).imp_right And.left)] at hmem ⊢
    exact List.count_eq_one_of_mem (h.isLedger.numbered.pairwise_children p.scope).nodup hmem
  · intro q hq hmem'
    exact Option.some.inj (((h.mem_children_iff hq hc).mp hmem').symm.trans hparent)

/-- Every chain of parents ends at the first scope. -/
theorem around (h : Grown a s stops ledger store final) {c : Nat} (hc : final.Within s c) :
    final.Around c s := by
  induction c using Nat.strongRecOn with
  | _ c ih =>
    rcases (h.within_iff c).mp hc with rfl | ⟨hle, hlt⟩
    · exact .refl
    · obtain ⟨p, hp, -, hparent, hscope⟩ := h.exists_opened hle hlt
      exact .head hparent (ih p.scope hscope (h.parent_lt hc hparent).2)

/-- There is one scope more than were opened. -/
theorem ncard_within (h : Grown a s stops ledger store final) :
    {k | final.Within s k}.ncard = 1 + openingsOf a ledger := by
  have hset : {k | final.Within s k} = ↑(insert s (Finset.Ico store.size final.size)) := by
    ext k
    simp [h.within_iff]
  have hnew : s ∉ Finset.Ico store.size final.size := by
    have hlt := h.start_lt
    simp only [Finset.mem_Ico]
    omega
  rw [hset, Set.ncard_coe_finset, Finset.card_insert_of_notMem hnew, Nat.card_Ico,
    h.settled.size_eq]
  omega

/-! ## Scopes and the nodes that opened them -/

/-- The scopes that a node opens have the one around the node as their parent, so that says
    what a parent is. -/
theorem parent_eq_iff_scope (h : Grown a s stops ledger store final) {n : Placement}
    (hn : n ∈ ledger) (hopens : 0 < n.stop.openings a) (k : Nat) :
    (∀ c ∈ n.opened a, (final.scope c).parent = some k) ↔ n.scope = k := by
  constructor
  · intro hparent
    have hfirst := hparent n.first (Placement.first_mem_opened hopens)
    rw [h.settled.parent_opened n hn n.first (Placement.first_mem_opened hopens)] at hfirst
    exact Option.some.inj hfirst
  · intro hscope c hc
    rw [h.settled.parent_opened n hn c hc, hscope]

/-- The last scope of a node is the parent of those that another opens exactly if the one is
    the nearest above the other that opens any. -/
theorem parent_eq_iff (h : Grown a s stops ledger store final)
    (hnodup : (stops.map Stop.address).Nodup) {m n : Placement} (hm : m ∈ ledger)
    (hn : n ∈ ledger) (hmopens : 0 < m.stop.openings a) (hnopens : 0 < n.stop.openings a) :
    (∀ c ∈ n.opened a, (final.scope c).parent = some (m.last a)) ↔ NearestOpener a ledger m n := by
  rw [h.parent_eq_iff_scope hn hnopens]
  -- The parent is the scope in which the placement lies, and this is the last one of the nearest
  -- opener.
  constructor
  · intro hscope
    rcases h.isLedger.enclosed n hn with ⟨m', hm', hscope'⟩ | ⟨-, hscope'⟩
    · have hlast : m.last a ∈ m'.opened a := by
        rw [← hscope, hscope']
        exact Placement.last_mem_opened hm'.opens
      rw [h.isLedger.eq_of_last_mem hm hm'.mem hmopens hlast]
      exact hm'
    · have hbounds := h.bounds_of_opened hm (Placement.last_mem_opened hmopens)
      have hstart := h.start_lt
      omega
  · intro hnearest
    rcases h.isLedger.enclosed n hn with ⟨m', hm', hscope⟩ | ⟨hnone, -⟩
    · rw [← h.isLedger.stops_eq] at hnodup
      rw [hnearest.unique hnodup hm']
      exact hscope
    · exact absurd (hnone m hm hnearest.above) (Nat.ne_of_gt hmopens)

/-- The first scope is the parent of those that a node opens exactly if no node above opens
    any. -/
theorem parent_eq_start_iff (h : Grown a s stops ledger store final) {n : Placement}
    (hn : n ∈ ledger) (hopens : 0 < n.stop.openings a) :
    (∀ c ∈ n.opened a, (final.scope c).parent = some s) ↔
      ∀ q ∈ ledger, q.stop.IsAbove n.stop → q.stop.openings a = 0 := by
  rw [h.parent_eq_iff_scope hn hopens]
  rcases h.isLedger.enclosed n hn with ⟨m, hm, hscope⟩ | ⟨hnone, hscope⟩
  · constructor
    · intro hstart
      have hbounds := h.bounds_of_opened hm.mem (Placement.last_mem_opened hm.opens)
      have hlt := h.start_lt
      omega
    · intro hnone
      exact absurd (hnone m hm.mem hm.above) (Nat.ne_of_gt hm.opens)
  · exact ⟨fun _ => hnone, fun _ => hscope⟩

/-- If a node opens two scopes, the first of them stays empty. -/
theorem first_empty (h : Grown a s stops ledger store final) {n : Placement} (hn : n ∈ ledger)
    (htwo : n.stop.openings a = 2) :
    (final.scope n.first).children = [] ∧ (final.scope n.first).declarations = [] := by
  have hfirst : n.first ∈ n.opened a := Placement.first_mem_opened (by omega)
  have hbounds := h.bounds_of_opened hn hfirst
  -- A node in that scope would stand in the last one that some node has opened.
  have hscope : ∀ p ∈ ledger, p.scope ≠ n.first := by
    intro p hp heq
    rcases h.isLedger.enclosed p hp with ⟨m, hm, hlast⟩ | ⟨-, hstart⟩
    · rw [← heq, hlast] at hfirst
      obtain rfl := h.isLedger.eq_of_last_mem hm.mem hn hm.opens hfirst
      rw [hlast, Placement.last] at heq
      omega
    · have hlt := h.start_lt
      omega
  have hinside : ∀ p ∈ ledger, p.first = n.first → p.stop.declaredInside a = [] := by
    intro p hp heq
    unfold Stop.declaredInside
    split
    · next hdeclares =>
      have hone : p.stop.openings a = 1 := Scopes.openings_of_declaresInside hdeclares _
      have hmem : n.first ∈ p.opened a := heq ▸ Placement.first_mem_opened (by omega)
      rw [h.isLedger.numbered.eq_of_mem_opened hp hn hmem hfirst] at hone
      omega
    · rfl
  have hold : store.scope n.first = {} := ScopeStore.scope_of_size_le hbounds.1
  rw [h.children_eq (.inr hbounds.1), h.settled.declarations_eq, hold, List.nil_append]
  refine ⟨List.flatMap_eq_nil_iff.mpr fun p hp => if_neg (hscope p hp), ?_⟩
  refine List.flatMap_eq_nil_iff.mpr fun p hp => ?_
  rw [Placement.declaredIn, if_neg (hscope p hp), List.nil_append]
  split
  · next heq => exact hinside p hp heq
  · rfl

/-- The scopes that have grown are those opened by the nodes. -/
theorem within_iff_opened (h : Grown a s stops ledger store final) {c : Nat} (hne : c ≠ s) :
    final.Within s c ↔ ∃ p ∈ ledger, c ∈ p.opened a := by
  rw [h.within_iff]
  constructor
  · intro hc
    obtain ⟨hle, hlt⟩ := hc.resolve_left hne
    obtain ⟨p, hp, hopened, -⟩ := h.exists_opened hle hlt
    exact ⟨p, hp, hopened⟩
  · intro ⟨p, hp, hopened⟩
    exact .inr (h.bounds_of_opened hp hopened)

end Grown

/-! ## Whole walks -/

/-- The scopes within `s` form a tree, which is the tree of the nodes in the ledger with all
    nodes taken out that open no scope. -/
structure IsScopeTree (a : Adapter) (s : Nat) (ledger : List Placement) (final : ScopeStore) :
    Prop where
  /-- There is one scope more than were opened. -/
  card : {k | final.Within s k}.ncard = 1 + openingsOf a ledger
  /-- Besides `s` they are those opened by the nodes. -/
  within_iff : ∀ c, c ≠ s → (final.Within s c ↔ ∃ p ∈ ledger, c ∈ p.opened a)
  /-- Parents and children agree. -/
  linked : ∀ p c, final.Within s p → final.Within s c →
    (c ∈ (final.scope p).children ↔ (final.scope c).parent = some p)
  /-- Every scope but `s` is once among the children of one scope. -/
  once : ∀ c, final.Within s c → c ≠ s → ∃ p, final.Within s p ∧
    (final.scope p).children.count c = 1 ∧
      ∀ q, final.Within s q → c ∈ (final.scope q).children → q = p
  /-- Every chain of parents goes down in number, and ends at `s`. -/
  start : (final.scope s).parent = none
  descends : ∀ c p, final.Within s c → (final.scope c).parent = some p → p < c ∧ final.Within s p
  around : ∀ c, final.Within s c → final.Around c s
  /-- The parent of the scopes that a node opens is the last scope of the nearest node above
      that opens any, and `s` if there is none. -/
  nearest : ∀ m ∈ ledger, ∀ n ∈ ledger, 0 < m.stop.openings a → 0 < n.stop.openings a →
    ((∀ c ∈ n.opened a, (final.scope c).parent = some (m.last a)) ↔ NearestOpener a ledger m n)
  outermost : ∀ n ∈ ledger, 0 < n.stop.openings a →
    ((∀ c ∈ n.opened a, (final.scope c).parent = some s) ↔
      ∀ q ∈ ledger, q.stop.IsAbove n.stop → q.stop.openings a = 0)
  /-- Children come in the order of the nodes that opened them. -/
  children_eq : ∀ k, final.Within s k → (final.scope k).children =
    ledger.flatMap fun p => if p.scope = k then p.opened a else []
  /-- A node whose kind is that of a function and of a loop opens two scopes, side by side,
      and nothing ever goes into the first of them; no node opens more. -/
  openings_le : ∀ n ∈ ledger, n.stop.openings a ≤ 2
  openings_eq_two_iff : ∀ n ∈ ledger, (n.stop.openings a = 2 ↔
    Scopes.isFunction (n.stop.kind a) = true ∧ Scopes.isLoop (n.stop.kind a) = true)
  first_of_two : ∀ n ∈ ledger, n.stop.openings a = 2 → n.opened a = [n.first, n.first + 1] ∧
    (final.scope n.first).children = [] ∧ (final.scope n.first).declarations = []

/-- A store that has grown along a ledger is a tree of scopes. -/
theorem Grown.isScopeTree {a : Adapter} {s : Nat} {stops : List Stop} {ledger : List Placement}
    {store final : ScopeStore} (h : Grown a s stops ledger store final)
    (hnodup : (stops.map Stop.address).Nodup) : IsScopeTree a s ledger final where
  card := h.ncard_within
  within_iff _ hne := h.within_iff_opened hne
  linked _ _ hp hc := h.mem_children_iff hp hc
  once _ hc hne := h.exists_unique_parent hc hne
  start := h.parent_start
  descends _ _ hc hparent := h.parent_lt hc hparent
  around _ hc := h.around hc
  nearest _ hm _ hn hmopens hnopens := h.parent_eq_iff hnodup hm hn hmopens hnopens
  outermost _ hn hopens := h.parent_eq_start_iff hn hopens
  children_eq k hk := h.children_eq (((h.within_iff k).mp hk).imp_right And.left)
  openings_le _ _ := (Scopes.openings_le_two ..).1
  openings_eq_two_iff _ _ := (Scopes.openings_le_two ..).2
  first_of_two n hn htwo := by
    refine ⟨?_, h.first_empty hn htwo⟩
    rw [Placement.opened, htwo]
    rfl

/-- A walk that collects scopes from a scope without parent and children, and ends normally,
    leaves behind a tree of scopes below it, which follows the tree of the nodes that the
    walk came to. -/
theorem traverse_scopeTree (root : Value) (adapter : Option Adapter) {s : Nat}
    {store : ScopeStore} (hs : s < store.size) (hparent : (store.scope s).parent = none)
    (hchildren : (store.scope s).children = []) {result : Option Nat}
    (hok : (traverse root collectScopes (some s) store adapter none).outcome = .ok result) :
    let a := adapter.getD (.default root)
    let walk := traverse root collectScopes (some s) store adapter none
    let moments := history root collectScopes (some s) store adapter none
    let ledger := a.ledger root s store.size
    moments.filterMap Moment.calledAt = (a.stops root).map Stop.position ∧
      IsLedger a s store.size (a.stops root) ledger ∧ IsScopeTree a s ledger walk.own := by
  intro a walk moments ledger
  -- The walk has ended normally, so that every stop was passed and the store has grown along the
  -- ledger.
  obtain ⟨hpassable, hended⟩ := traverse_collectScopes root adapter hs
  obtain ⟨-, hsettled⟩ := hended (hpassable.mpr ⟨result, hok⟩)
  have hledger : IsLedger a s store.size (a.stops root) ledger := a.isLedger_ledger root hs
  have hgrown : Grown a s (a.stops root) ledger store walk.own :=
    ⟨hs, hparent, hchildren, hledger, hsettled⟩
  exact ⟨filterMap_calledAt_history root collectScopes (some s) store adapter none hok, hledger,
    hgrown.isScopeTree (a.nodup_address_stops root)⟩

/-- The document of a function with two loops in it, the second of which has a kind that is
    also that of a function. -/
def twoLoops : Value :=
  let node (kind : String) (body : Value) : Value :=
    .dict [(.str "type", .str kind), (.str "body", body)]
  let block (body : List Value) : Value := node "BlockStatement" (.list body)
  node "FunctionDeclaration" (block [node "ForStatement" (block []),
    node "FunctionForStatement" (block [])])

/-- In the function with two loops the body shares the scope of the function, and the second
    loop opens the scopes 4 and 5, its body standing in the latter. -/
theorem traverse_scopeTree_twoLoops :
    let a := Adapter.tagged "type" []
    let walk := traverse twoLoops collectScopes (some 0) #[{}] (some a) none
    let ledger := a.ledger twoLoops 0 1
    (∃ result, walk.outcome = .ok result) ∧ IsScopeTree a 0 ledger walk.own ∧
      (List.range 7).map (fun k => (walk.own.scope k).parent) =
        [none, some 0, some 1, some 2, some 1, some 1, some 5] := by
  intro a walk ledger
  -- That the walk ends normally is computed, and the theorem gives the tree.
  have hok : walk.outcome.isOk = true := by decide +kernel
  cases h : walk.outcome with
  | error failure => simp [h, Except.isOk, Except.toBool] at hok
  | ok result =>
    obtain ⟨-, -, htree⟩ := traverse_scopeTree twoLoops (some a)
      (by decide : 0 < Array.size #[({} : Scope)]) rfl rfl h
    exact ⟨⟨result, rfl⟩, htree, by decide +kernel⟩

end TreeWalk
