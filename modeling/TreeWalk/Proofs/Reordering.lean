import Mathlib.Data.List.Perm.Basic
import TreeWalk.Proofs.Evaluation

/-! # Reordered documents

Two documents can hold the same fields in a different order, in any of their dictionaries.  Then
the same is found under every name, and the nodes have the same children in another order.

## Key results

* `Value.Shuffled.children` puts the children of a node next to those of the reordered one.
* `Tree.Carried.view` says that a relation holds of the trees of shuffled documents if it is
  carried from the children of a node, in whatever order, to the node.
* `Tree.carried_depth`, `Tree.carried_eval` and `Tree.carried_nodes` are the relations that
  compare depths, values and what nodes show. -/

namespace TreeWalk

/-! ## Documents -/

namespace Value

/-- The second value is the first one with the entries of dictionaries in it put into another
    order, however deep they lie; the items of groups keep theirs. -/
inductive Reordered : Value → Value → Prop where
  | same (value : Value) : Reordered value value
  | group (shape : Grouping) {items items' : List Value}
      (hitems : List.Forall₂ Reordered items items') :
      Reordered (.group shape items) (.group shape items')
  /-- The entries keep their names and have reordered values, before they are permuted. -/
  | dict {entries middle entries' : List (Value × Value)}
      (hnames : entries.map Prod.fst = middle.map Prod.fst)
      (hvalues : List.Forall₂ Reordered (entries.map Prod.snd) (middle.map Prod.snd))
      (hperm : middle.Perm entries') : Reordered (.dict entries) (.dict entries')

/-- If keys are distinct, what is found under a name does not depend on the order of entries. -/
theorem entry?_perm (name : String) {entries entries' : List (Value × Value)}
    (h : entries.Perm entries') (hkeys : (entries.map Prod.fst).Nodup) :
    entry? name entries = entry? name entries' := by
  induction h with
  | nil => rfl
  | cons entry _ ih =>
    obtain ⟨key, value⟩ := entry
    rw [ entry?, entry?, ih (List.nodup_cons.mp hkeys).2]
  | swap entry entry' rest =>
    obtain ⟨key, value⟩ := entry
    obtain ⟨key', value'⟩ := entry'
    simp only [ entry?]
    by_cases hkey : key.isText name = true
    · -- The other key is another one, so it is passed over before this one and after it.
      have hother : ¬key'.isText name = true := by
        intro hkey'
        obtain rfl := eq_str_of_isText hkey
        obtain rfl := eq_str_of_isText hkey'
        simp at hkeys
      simp [hkey, hother]
    · simp [hkey]
  | trans hfirst _ ih ih' => rw [ih hkeys, ih' ((hfirst.map Prod.fst).nodup_iff.mp hkeys)]

/-- What a dictionary has under a name is its first entry with it. -/
theorem lookup_dict (name : String) (entries : List (Value × Value)) :
    lookup name (.dict entries) = entry? name entries := by
  simp only [lookup, Holder.isMapping, ↓reduceIte]
  cases entry? name entries <;> rfl

/-- Entries with the same names and related values are related. -/
theorem forall₂_entries {R : Value → Value → Prop} {entries middle : List (Value × Value)}
    (hnames : entries.map Prod.fst = middle.map Prod.fst)
    (hvalues : List.Forall₂ R (entries.map Prod.snd) (middle.map Prod.snd)) :
    List.Forall₂ (Adapter.SamePlace R) entries middle := by
  rw [← List.forall₂_eq_eq_eq, List.forall₂_map_left_iff, List.forall₂_map_right_iff] at hnames
  rw [List.forall₂_map_left_iff, List.forall₂_map_right_iff] at hvalues
  exact hnames.mp (fun _ _ hname hvalue => ⟨hname, hvalue⟩) hvalues

/-- Entry by entry the same names are found. -/
theorem entry?_rel {R : Value → Value → Prop} (name : String)
    {entries middle : List (Value × Value)}
    (h : List.Forall₂ (Adapter.SamePlace R) entries middle) :
    Option.Rel R ( entry? name entries) ( entry? name middle) := by
  induction h with
  | nil => exact .none
  | @cons entry entry' rest rest' hentry _ ih =>
    obtain ⟨key, value⟩ := entry
    obtain ⟨key', value'⟩ := entry'
    obtain ⟨rfl, hvalue⟩ : key = key' ∧ R value value' := hentry
    rw [ entry?, entry?]
    -- The entries are gone through side by side, and the keys are the same.
    by_cases hkey : key.isText name = true
    · simp only [hkey, ↓reduceIte]
      exact .some hvalue
    · simp only [hkey, Bool.false_eq_true, ↓reduceIte]
      exact ih

/-- A document in which a dictionary tells keys apart, and the same one reordered. -/
structure Shuffled (value value' : Value) : Prop where
  separate : value.SeparateKeys
  reordered : Reordered value value'

namespace Shuffled

variable {value value' : Value}

/-- The same names are found in both documents. -/
theorem lookup_rel (h : Shuffled value value') (name : String) :
    Option.Rel Reordered (value.lookup name) (value'.lookup name) := by
  cases h.reordered with
  | same =>
    cases value.lookup name with
    | none => exact .none
    | some found => exact .some (.same found)
  | group => exact .none
  | @dict entries middle entries' hnames hvalues hperm =>
    -- The order of the entries does not matter as keys are distinct, and the values are related.
    have hdistinct : (middle.map Prod.fst).Nodup := by
      rw [← hnames]
      exact ((distinctKeys_iff _).mp h.separate.distinctKeys).1
    rw [lookup_dict, lookup_dict, ← entry?_perm name hperm hdistinct]
    exact entry?_rel name (forall₂_entries hnames hvalues)

/-- What is found under a name is the same for whoever cannot see the order of entries. -/
theorem bind_lookup_eq {f : Value → Option β}
    (hf : ∀ found found', Reordered found found' → f found = f found')
    (h : Shuffled value value') (name : String) :
    (value.lookup name).bind f = (value'.lookup name).bind f := by
  have hrel := h.lookup_rel name
  revert hrel
  generalize value.lookup name = found, value'.lookup name = found'
  rintro (hfound | -)
  · exact hf _ _ hfound
  · rfl

/-- A reordered value is the same text, if it is one. -/
theorem text?_eq {found found' : Value} (h : Reordered found found') :
    found.text? = found'.text? := by
  cases h <;> rfl

end Shuffled

end Value

/-! ## Nodes -/

namespace Value.Shuffled

variable {value value' : Value}

/-- A shuffled value has the same kind. -/
theorem kindOf_eq (h : Shuffled value value') (a : Adapter) : a.kindOf value = a.kindOf value' := by
  unfold Adapter.kindOf
  cases a.family with
  | tagged tagField => exact h.bind_lookup_eq (fun _ _ => text?_eq) tagField
  | source => cases h.reordered <;> rfl

/-- A shuffled value is a node if the value is. -/
theorem isNode_eq (h : Shuffled value value') (a : Adapter) : a.isNode value = a.isNode value' := by
  unfold Adapter.isNode
  rw [h.kindOf_eq]

/-- A shuffled value is read if the value is. -/
theorem reads_eq (h : Shuffled value value') (a : Adapter) : a.reads value = a.reads value' := by
  unfold Adapter.reads
  rw [h.isNode_eq]

/-- A reordered value is of the same type. -/
theorem typeName_eq (h : Reordered value value') : value.typeName = value'.typeName := by
  cases h <;> rfl

/-- A reordered value is walked with the same adapter. -/
theorem default_eq (h : Reordered value value') :
    Adapter.default value = Adapter.default value' := by
  cases h <;> rfl

/-- A reordered group has as many items, each of them reordered. -/
theorem exists_items {shape : Grouping} {items : List Value}
    (h : Reordered (.group shape items) value') :
    ∃ items', value' = .group shape items' ∧ List.Forall₂ Reordered items items' := by
  cases h with
  | same => exact ⟨items, rfl, List.forall₂_same.mpr fun item _ => .same item⟩
  | @group _ _ items' hitems => exact ⟨items', rfl, hitems⟩

/-- What two fields of the same nodes hold is shuffled if the items of a sequence are. -/
theorem held_items {items items' : List Value} (h : List.Forall₂ Shuffled items items')
    (a : Adapter) (start : Nat) :
    List.Forall₂ (Adapter.SamePlace Shuffled)
      ((items.zipIdx start).filterMap fun (item, i) =>
        if a.isNode item then some (some i, item) else none)
      ((items'.zipIdx start).filterMap fun (item, i) =>
        if a.isNode item then some (some i, item) else none) := by
  induction h generalizing start with
  | nil => exact .nil
  | @cons item item' rest rest' hitem _ ih =>
    simp only [List.zipIdx_cons, List.filterMap_cons, ← hitem.isNode_eq a]
    cases a.isNode item with
    | false => exact ih (start + 1)
    | true => exact .cons ⟨rfl, hitem⟩ (ih (start + 1))

/-- Both fields hold nodes at the same positions. -/
theorem held (h : Shuffled value value') (a : Adapter) :
    List.Forall₂ (Adapter.SamePlace Shuffled) (a.held value) (a.held value') := by
  by_cases hnode : a.isNode value = true
  · have hnode' := hnode
    rw [h.isNode_eq] at hnode'
    rw [Adapter.held_of_isNode hnode, Adapter.held_of_isNode hnode']
    exact .cons ⟨rfl, h⟩ .nil
  · rw [Bool.not_eq_true] at hnode
    have hnode' := hnode
    rw [h.isNode_eq] at hnode'
    obtain ⟨hseparate, hreordered⟩ := h
    -- Only a list holds children without being a node, and its items stay in order.
    cases value with
    | group shape items =>
      obtain ⟨items', rfl, hitems⟩ := exists_items hreordered
      have hparts : ∀ item ∈ items, item.SeparateKeys := fun item hitem => .item hseparate hitem
      have hshuffled : List.Forall₂ Shuffled items items' :=
        ((List.forall₂_and_left _ _).mpr ⟨hparts, hitems⟩).imp fun _ _ h => ⟨h.1, h.2⟩
      cases shape with
      | list | tuple =>
        simp only [Adapter.held, Adapter.isNode_group, Bool.false_eq_true, ↓reduceIte]
        exact held_items hshuffled a 0
      | set => simp [Adapter.held]
    | _ =>
      cases hreordered <;>
        simp [Adapter.held_of_not_isNode hnode, Adapter.held_of_not_isNode hnode']

/-- The children of a dictionary, entry by entry. -/
theorem children?_dict {a : Adapter} {entries : List (Value × Value)}
    (h : a.reads (.dict entries) = true) :
    a.children? (.dict entries) =
      some ((entries.filter fun entry => !a.skips entry.1).flatMap a.placed) := by
  simp [Adapter.children?, Adapter.fields?, h, Adapter.arrange]
  rfl

/-- Field by field, both values hold the same nodes: those of the one in the order of the other
    are shuffled. -/
theorem children (h : Shuffled value value') {a : Adapter} {children : List (Slot × Value)}
    (hchildren : a.children? value = some children) :
    ∃ middle children', a.children? value' = some children' ∧
      List.Forall₂ (Adapter.SamePlace Shuffled) children middle ∧ middle.Perm children' := by
  have hreads : a.reads value = true := by
    rw [← Bool.not_eq_false, ← Adapter.children?_eq_none_iff, hchildren]
    simp
  have hreads' : a.reads value' = true := by
    rw [← h.reads_eq, hreads]
  obtain ⟨hseparate, hreordered⟩ := h
  cases hreordered with
  | same =>
    refine ⟨children, children, hchildren, List.forall₂_same.mpr ?_, .refl _⟩
    rintro ⟨slot, child⟩ hmem
    exact ⟨rfl, ((Adapter.mem_children?_iff hchildren).mp hmem).everyRecord hseparate, .same child⟩
  | group =>
    simp only [Adapter.children?, Adapter.fields?, hreads, ↓reduceIte, Option.map_some,
      List.flatMap_nil, Option.some.injEq] at hchildren
    subst hchildren
    exact ⟨[], [], by simp [Adapter.children?, Adapter.fields?, hreads'], .nil, .nil⟩
  | @dict entries middle entries' hnames hvalues hperm =>
    rw [children?_dict hreads, Option.some.injEq] at hchildren
    subst hchildren
    have hparts : ∀ entry ∈ entries, entry.2.SeparateKeys :=
      fun entry hentry => .entry hseparate.2 hentry
    have hentries : List.Forall₂ (Adapter.SamePlace Shuffled) entries middle :=
      ((List.forall₂_and_left _ _).mpr ⟨hparts, Value.forall₂_entries hnames hvalues⟩).imp
        fun _ _ h => ⟨h.2.1, h.1, h.2.2⟩
    refine ⟨(middle.filter fun entry => !a.skips entry.1).flatMap a.placed, _,
      children?_dict hreads', ?_, (hperm.filter _).flatMap_right _⟩
    -- The same entries are left out, and the others hold shuffled nodes.
    refine List.rel_flatMap (List.rel_filter ?_ hentries) ?_
    · rintro ⟨name, part⟩ ⟨name', part'⟩ ⟨hname, -⟩
      obtain rfl : name = name' := hname
      rfl
    · rintro ⟨name, part⟩ ⟨name', part'⟩ ⟨hname, hpart⟩
      obtain rfl : name = name' := hname
      refine List.rel_map ?_ (held hpart a)
      rintro child child' ⟨hindex, hchild⟩
      exact ⟨congrArg (Slot.mk name) hindex, hchild⟩

end Value.Shuffled

/-! ## Trees -/

namespace Tree

variable {a : Adapter} {P : Tree → Tree → Prop}

/-- Subtrees in the same place that are related by `P`. -/
def PlacedAlike (P : Tree → Tree → Prop) (child child' : Slot × Tree) : Prop :=
  child.1 = child'.1 ∧ P child.2 child'.2

/-- A relation is carried from the children of a node, in whatever order, to the node, for
    all nodes of shuffled documents. -/
structure Carried (a : Adapter) (P : Tree → Tree → Prop) : Prop where
  sealed_sealed : ∀ value value', value.Shuffled value' → P (.sealed value) (.sealed value')
  node_node : ∀ value value' trees middle trees', value.Shuffled value' →
    a.view value = .node value (a.kindOf value) trees →
    a.view value' = .node value' (a.kindOf value) trees' →
    List.Forall₂ (PlacedAlike P) trees middle → middle.Perm trees' →
      P (.node value (a.kindOf value) trees) (.node value' (a.kindOf value) trees')

namespace Carried

mutual

/-- A relation that is carried holds of the trees of shuffled documents. -/
theorem view_shuffled (h : Carried a P) : ∀ (tree : Tree) (value value' : Value),
    a.view value = tree → value.Shuffled value' → P tree (a.view value')
  | .sealed _, value, value', hview, hshuffled => by
    obtain ⟨rfl, -⟩ := Adapter.of_view_eq_sealed hview
    have hreads := Adapter.reads_of_view_eq_sealed hview
    rw [hshuffled.reads_eq] at hreads
    rw [Adapter.view, hreads]
    exact h.sealed_sealed _ _ hshuffled
  | .node top kind trees, value, value', hview, hshuffled => by
    obtain ⟨rfl, rfl, children, hchildren, htrees⟩ := Adapter.of_view_eq_node hview
    -- The children are first related place by place, and then put in another order.
    obtain ⟨middle, children', hchildren', hplaced, hperm⟩ := hshuffled.children hchildren
    have hview' : a.view value' = .node value' (a.kindOf top)
        (children'.map fun child => (child.1, a.view child.2)) := by
      rw [Adapter.view_eq, hchildren', hshuffled.kindOf_eq]
    rw [hview']
    exact h.node_node top value' trees _ _ hshuffled hview hview'
      (viewAll_shuffled h trees children middle htrees hplaced) (hperm.map _)

/-- So it is with children that are shuffled in their places. -/
theorem viewAll_shuffled (h : Carried a P) : ∀ (trees : List (Slot × Tree))
    (children middle : List (Slot × Value)),
    children.map (fun child => (child.1, a.view child.2)) = trees →
    List.Forall₂ (Adapter.SamePlace Value.Shuffled) children middle →
      List.Forall₂ (PlacedAlike P) trees (middle.map fun child => (child.1, a.view child.2))
  | [], children, middle, hview, hplaced => by
    obtain rfl := List.map_eq_nil_iff.mp hview
    rw [List.forall₂_nil_left_iff.mp hplaced]
    exact .nil
  | (slot, tree) :: trees, children, middle, hview, hplaced => by
    obtain ⟨⟨place, child⟩, rest, rfl, hhead, hrest⟩ := List.map_eq_cons_iff.mp hview
    obtain ⟨rfl, hchild⟩ := Prod.mk.inj hhead
    obtain ⟨⟨place', child'⟩, rest', hfirst, hplaced', rfl⟩ := List.forall₂_cons_left_iff.mp hplaced
    obtain ⟨rfl, hshuffled⟩ : place = place' ∧ child.Shuffled child' := hfirst
    exact .cons ⟨rfl, view_shuffled h tree child child' hchild hshuffled⟩
      (viewAll_shuffled h trees rest rest' hrest hplaced')

end

/-- A relation that is carried holds of the trees of shuffled documents. -/
theorem view (h : Carried a P) {value value' : Value} (hshuffled : value.Shuffled value') :
    P (a.view value) (a.view value') :=
  view_shuffled h _ value value' rfl hshuffled

end Carried

/-! ### Depth -/

/-- The depth of a tree is carried over, since a maximum does not depend on an order. -/
theorem carried_depth (a : Adapter) :
    Carried a fun tree tree' => tree.fold gatherDepth = tree'.fold gatherDepth where
  sealed_sealed _ _ _ := rfl
  node_node := by
    intro value value' trees middle trees' _ _ _ hplaced hperm
    have hdepths : foldAll gatherDepth trees = foldAll gatherDepth middle := by
      rw [foldAll_eq, foldAll_eq, ← List.forall₂_eq_eq_eq, List.forall₂_map_left_iff,
        List.forall₂_map_right_iff]
      exact hplaced.imp fun _ _ h => h.2
    have hmax : (foldAll gatherDepth middle).foldl max 0 =
        (foldAll gatherDepth trees').foldl max 0 := by
      rw [foldAll_eq, foldAll_eq]
      exact (hperm.map _).foldl_eq _
    rw [fold, fold, gatherDepth, gatherDepth, hdepths, hmax]

/-! ### Values -/

open Folding in
/-- The operand in a field does not depend on the order of the children. -/
theorem operand_perm (selected : List Operator) (name : String) {trees trees' : List (Slot × Tree)}
    (hslots : (trees.map Prod.fst).Nodup) (h : trees.Perm trees') :
    operand selected name trees = operand selected name trees' := by
  by_cases hmem : ∃ tree, (⟨.str name, none⟩, tree) ∈ trees
  · obtain ⟨tree, hmem⟩ := hmem
    rw [operand_of_mem hslots hmem,
      operand_of_mem ((h.map Prod.fst).nodup_iff.mp hslots) (h.mem_iff.mp hmem)]
  · rw [not_exists] at hmem
    have hmem' := fun tree htree => hmem tree (h.mem_iff.mpr htree)
    rw [operand_of_not_mem hmem, operand_of_not_mem hmem']

open Folding in
/-- The operand in a field is the same if the children have the same values. -/
theorem operand_congr (selected : List Operator) (name : String) {trees middle : List (Slot × Tree)}
    (h : List.Forall₂ (PlacedAlike fun tree tree' => eval selected tree = eval selected tree')
      trees middle) : operand selected name trees = operand selected name middle := by
  induction h with
  | nil => rfl
  | @cons child child' rest rest' hchild _ ih =>
    obtain ⟨slot, tree⟩ := child
    obtain ⟨slot', tree'⟩ := child'
    obtain ⟨rfl, htree⟩ : slot = slot' ∧ eval selected tree = eval selected tree' := hchild
    rw [operand, operand, htree, ih]

end Tree

namespace Value.Shuffled

open Folding

variable {value value' : Value}

/-- A shuffled literal has the same value. -/
theorem literal?_eq (h : Shuffled value value') : literal? value = literal? value' := by
  have hrel := h.lookup_rel "value"
  unfold literal?
  revert hrel
  generalize value.lookup "value" = found, value'.lookup "value" = found'
  rintro (hfound | -)
  · cases hfound <;> rfl
  · rfl

/-- A shuffled expression has the same operator. -/
theorem operator?_eq (h : Shuffled value value') : operator? value = operator? value' := by
  have hop := h.lookup_rel "op"
  have hsymbol := h.lookup_rel "operator"
  unfold operator?
  revert hop hsymbol
  generalize value.lookup "op" = node, value'.lookup "op" = node'
  generalize value.lookup "operator" = symbol, value'.lookup "operator" = symbol'
  intro hop hsymbol
  -- A symbol counts if it is a text.  An operator node counts by its class only, and no class
  -- belongs to a reordered node.
  cases hsymbol with
  | none =>
    rcases hop with hfound | -
    · cases hfound <;> rfl
    · rfl
  | @some found found' hfound =>
    cases hfound with
    | same =>
      cases found with
      | str symbol => rfl
      | _ =>
        rcases hop with hfound | -
        · cases hfound <;> rfl
        · rfl
    | _ =>
      rcases hop with hfound | -
      · cases hfound <;> rfl
      · rfl

/-- A node has the same role in both documents. -/
theorem role_eq (h : Shuffled value value') (selected : List Operator) (kind : Option String) :
    role selected kind value = role selected kind value' := by
  unfold role
  rw [h.literal?_eq, h.operator?_eq]

end Value.Shuffled

/-! ### Nodes -/

namespace Tree

variable (a : Adapter) (selected : List Operator)

/-- The value of a tree is carried over, since operands are found by their fields. -/
theorem carried_eval :
    Carried a fun tree tree' => Folding.eval selected tree = Folding.eval selected tree' where
  sealed_sealed _ _ _ := rfl
  node_node := by
    intro value value' trees middle trees' hshuffled hview _ hplaced hperm
    obtain ⟨-, -, children, hchildren, htrees⟩ := Adapter.of_view_eq_node hview
    -- No two children have the same slot, so the order does not matter for finding one.
    have hslots : (middle.map Prod.fst).Nodup := by
      have hnames := (Adapter.Reaches.root (a := a)).distinctNames hshuffled.separate.distinctKeys
      have hsame : children.map Prod.fst = middle.map Prod.fst := by
        subst htrees
        rw [← List.forall₂_eq_eq_eq, List.forall₂_map_left_iff, List.forall₂_map_right_iff]
        exact ((List.forall₂_map_left_iff).mp hplaced).imp fun _ _ h => h.1
      rw [← hsame]
      exact Adapter.nodup_slots hchildren hnames
    have hoperand : ∀ name, Folding.operand selected name trees =
        Folding.operand selected name trees' := by
      intro name
      rw [operand_congr selected name hplaced, operand_perm selected name hslots hperm]
    rw [Folding.eval, Folding.eval, hoperand, hoperand, hshuffled.role_eq]

mutual

/-- The nodes of a tree in post-order. -/
def nodes : Tree → List Value
  | .node value _ children => nodesAll children ++ [value]
  | .sealed value => [value]

def nodesAll : List (Slot × Tree) → List Value
  | [] => []
  | (_, tree) :: rest => tree.nodes ++ nodesAll rest

end

/-- The nodes of trees side by side. -/
theorem nodesAll_eq (children : List (Slot × Tree)) :
    nodesAll children = children.flatMap fun child => child.2.nodes := by
  induction children with
  | nil => rfl
  | cons child rest ih => rw [nodesAll, ih, List.flatMap_cons]

mutual

/-- The nodes of a tree are those that a walk leaves, in this order. -/
theorem map_node_exits : ∀ (tree : Tree) (address : List Nat) (path : List PathEntry),
    (tree.exits address path).map Stop.node = tree.nodes
  | .sealed value, address, path => rfl
  | .node value kind children, address, path => by
    rw [exits, nodes, List.map_append, map_node_exitsAll]
    rfl

/-- So it is with trees side by side. -/
theorem map_node_exitsAll : ∀ (children : List (Slot × Tree)) (address : List Nat)
    (path : List PathEntry) (parent : Value) (i : Nat),
    (exitsAll address path parent i children).map Stop.node = nodesAll children
  | [], address, path, parent, i => rfl
  | (slot, tree) :: rest, address, path, parent, i => by
    rw [exitsAll, nodesAll, List.map_append, map_node_exits, map_node_exitsAll]

end

/-- What nodes show whether they are shuffled or not is the same for the nodes of shuffled
    documents, up to the order. -/
theorem carried_nodes {f : Value → Option β} (hf : ∀ value value', value.Shuffled value' →
    f value = f value') :
    Carried a fun tree tree' => (tree.nodes.filterMap f).Perm (tree'.nodes.filterMap f) where
  sealed_sealed value value' hshuffled := by
    simp [nodes, hf value value' hshuffled, List.filterMap_cons]
  node_node := by
    intro value value' trees middle trees' hshuffled hview hview' hplaced hperm
    -- Below the node, both the parts and their order have changed, and this is taken in two steps.
    have hbelow : ((nodesAll trees).filterMap f).Perm ((nodesAll trees').filterMap f) := by
      have hfirst : ((nodesAll trees).filterMap f).Perm ((nodesAll middle).filterMap f) := by
        clear hview hview' hperm
        induction hplaced with
        | nil => exact .refl _
        | cons hchild _ ih =>
          rw [nodesAll, nodesAll, List.filterMap_append, List.filterMap_append]
          exact hchild.2.append ih
      rw [nodesAll_eq middle] at hfirst
      rw [nodesAll_eq trees']
      exact hfirst.trans ((hperm.flatMap_right _).filterMap f)
    rw [nodes, nodes, List.filterMap_append, List.filterMap_append]
    refine hbelow.append (.of_eq ?_)
    simp [hf value value' hshuffled, List.filterMap_cons]

end Tree

end TreeWalk
