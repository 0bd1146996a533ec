import Mathlib.Data.List.Forall2
import TreeWalk.Proofs.Names
import TreeWalk.Proofs.Simulation

/-! # Pruned documents

To prune a document is to take the fields of a skip set out of all its nodes, except for the
tag, which makes them nodes.  An adapter that skips nothing sees in the pruned document what
one with the skip set sees in the document itself.

## Key results

* `Value.prune` prunes a node and all nodes below it.
* `Adapter.children?_prune` says that the children of a pruned node are the pruned children
  that are not skipped.
* `Adapter.alike_prune` says that the trees that the two adapters show are alike,
  `Adapter.alike_skipTag` that skipping the tag makes no difference.
-/

namespace TreeWalk

/-! ## Pruning -/

namespace Value

/-- Whether a field is taken out of a node: its name is in the skip set, and it is not the
    tag. -/
def isPruned (tagField : String) (skip : List Value) (key : Value) : Bool :=
  key.memberOf skip && !key.isText tagField

mutual

/-- A node without the fields of a skip set, and so for all nodes below it. -/
def prune (tagField : String) (skip : List Value) : Value → Value
  | .record holder entries aside => .record holder (pruneEntries tagField skip entries) aside
  | value => value

/-- The entries of a node that are left, with the nodes in them pruned. -/
def pruneEntries (tagField : String) (skip : List Value) :
    List (Value × Value) → List (Value × Value)
  | [] => []
  | (key, .group .list items) :: rest =>
    if isPruned tagField skip key then pruneEntries tagField skip rest
    else (key, .group .list (pruneItems tagField skip items)) :: pruneEntries tagField skip rest
  | (key, .group .tuple items) :: rest =>
    if isPruned tagField skip key then pruneEntries tagField skip rest
    else (key, .group .tuple (pruneItems tagField skip items)) :: pruneEntries tagField skip rest
  | (key, value) :: rest =>
    if isPruned tagField skip key then pruneEntries tagField skip rest
    else (key, if (Adapter.tagged tagField).isNode value then prune tagField skip value else value)
      :: pruneEntries tagField skip rest

/-- The items of a sequence, with the nodes among them pruned. -/
def pruneItems (tagField : String) (skip : List Value) : List Value → List Value
  | [] => []
  | item :: rest =>
    (if (Adapter.tagged tagField).isNode item then prune tagField skip item else item) ::
      pruneItems tagField skip rest

end

variable (tagField : String) (skip : List Value)

/-- A value, pruned if it is a node. -/
def pruneNode (value : Value) : Value :=
  if (Adapter.tagged tagField).isNode value then prune tagField skip value else value

/-- The value of a field, with the nodes that it holds pruned. -/
def pruneHeld : Value → Value
  | .group .list items => .group .list (items.map (pruneNode tagField skip))
  | .group .tuple items => .group .tuple (items.map (pruneNode tagField skip))
  | value => pruneNode tagField skip value

/-- The items of a list are pruned one by one. -/
theorem pruneItems_eq (items : List Value) :
    pruneItems tagField skip items = items.map (pruneNode tagField skip) := by
  induction items with
  | nil => rw [pruneItems, List.map_nil]
  | cons item rest ih =>
    rw [pruneItems, ih, List.map_cons]
    rfl

/-- Of the entries of a dictionary those that stay are pruned one by one. -/
theorem pruneEntries_eq (entries : List (Value × Value)) :
    pruneEntries tagField skip entries =
      (entries.filter fun entry => !isPruned tagField skip entry.1).map
        fun entry => (entry.1, pruneHeld tagField skip entry.2) := by
  induction entries with
  | nil => rw [pruneEntries, List.filter_nil, List.map_nil]
  | cons entry rest ih =>
    obtain ⟨key, value⟩ := entry
    have hcons : pruneEntries tagField skip ((key, value) :: rest) =
        if isPruned tagField skip key then pruneEntries tagField skip rest
        else (key, pruneHeld tagField skip value) :: pruneEntries tagField skip rest := by
      cases value with
      | group shape items =>
        cases shape <;> simp [pruneEntries, pruneHeld, pruneItems_eq, pruneNode]
      | _ => simp [pruneEntries, pruneHeld, pruneNode]
    rw [hcons, ih]
    by_cases hkey : isPruned tagField skip key = true
    · simp [hkey]
    · simp [hkey]

/-- A text is not changed by pruning. -/
@[simp] theorem text?_pruneHeld (value : Value) :
    (pruneHeld tagField skip value).text? = value.text? := by
  cases value with
  | group shape items => cases shape <;> simp [pruneHeld, pruneNode, text?]
  | record holder entries aside =>
    show (pruneNode tagField skip (.record holder entries aside)).text? = none
    unfold pruneNode
    split
    · rw [prune]
      rfl
    · rfl
  | _ => simp [pruneHeld, pruneNode, prune]

/-- The tag stays, with the nodes below it pruned. -/
theorem entry?_pruneEntries (entries : List (Value × Value)) :
    entry? tagField (pruneEntries tagField skip entries) =
      ( entry? tagField entries).map (pruneHeld tagField skip) := by
  rw [pruneEntries_eq]
  induction entries with
  | nil => rfl
  | cons entry rest ih =>
    obtain ⟨key, value⟩ := entry
    by_cases htag : key.isText tagField = true
    · simp [isPruned, htag, entry?]
    · by_cases hkey : isPruned tagField skip key = true
      · simp [hkey, entry?, htag, ih]
      · simp [hkey, entry?, htag, ih]

/-- The tag of a pruned value is the one that it had. -/
theorem text?_lookup_prune (value : Value) :
    ((prune tagField skip value).lookup tagField).bind text? =
      (value.lookup tagField).bind text? := by
  cases value with
  | record holder entries aside =>
    rw [prune, lookup, lookup, entry?_pruneEntries]
    cases entry? tagField entries with
    | some value => simp
    | none => rfl
  | _ => simp [prune]

/-- If keys are distinct, looking for a name finds whatever entry has it for its key. -/
theorem lookup_of_isText {name : String} {holder : Holder} {entries aside : List (Value × Value)}
    (hkeys : (entries.map Prod.fst).Nodup) {key value : Value} (hentry : (key, value) ∈ entries)
    (hname : key.isText name = true) : lookup name (.record holder entries aside) = some value := by
  have hfound : entry? name entries = some value := by
    -- With distinct keys, the first entry with the name is the one that is meant.
    induction entries with
    | nil => cases hentry
    | cons first rest ih =>
      obtain ⟨key', value'⟩ := first
      rw [List.map_cons, List.nodup_cons] at hkeys
      rcases List.mem_cons.mp hentry with heq | hrest
      · obtain ⟨rfl, rfl⟩ := Prod.mk.inj heq
        simp only [ entry?, hname, ↓reduceIte]
      · have hother : key'.isText name = false := by
          rw [Bool.eq_false_iff]
          intro hname'
          have hkey : key ∈ rest.map Prod.fst := List.mem_map_of_mem hrest
          rw [eq_str_of_isText hname, ← eq_str_of_isText hname'] at hkey
          exact hkeys.1 hkey
        simp only [ entry?, hother, Bool.false_eq_true, ↓reduceIte]
        exact ih hkeys.2 hrest
  rw [lookup, hfound]

end Value

namespace Adapter

variable {tagField : String} {skip : List Value}

/-! ## Nodes -/

/-- The kind of a dictionary is the text in its tag field. -/
theorem kindOf_tagged (tagField : String) (skip : List Value) (value : Value) :
    (tagged tagField skip).kindOf value = (value.lookup tagField).bind Value.text? :=
  rfl

/-- A node keeps its kind when it is pruned. -/
@[simp] theorem kindOf_prune (tagField : String) (skip : List Value) (value : Value) :
    (tagged tagField).kindOf (value.prune tagField skip) = (tagged tagField).kindOf value :=
  Value.text?_lookup_prune tagField skip value

/-- To prune a value does not change whether it is a node. -/
@[simp] theorem isNode_prune (tagField : String) (skip : List Value) (value : Value) :
    (tagged tagField).isNode (value.prune tagField skip) = (tagged tagField).isNode value := by
  unfold isNode
  rw [kindOf_prune]

/-- Nor does it if only nodes are pruned. -/
@[simp] theorem isNode_pruneNode (tagField : String) (skip : List Value) (value : Value) :
    (tagged tagField).isNode (value.pruneNode tagField skip) = (tagged tagField).isNode value := by
  unfold Value.pruneNode
  split
  · exact isNode_prune tagField skip value
  · rfl

/-- What is neither a node nor a list holds no children. -/
theorem held_of_not_isNode {a : Adapter} {value : Value} (h : a.isNode value = false)
    (hgroup : ∀ shape items, value ≠ .group shape items) : a.held value = [] := by
  cases value with
  | group shape items => exact absurd rfl (hgroup shape items)
  | _ => simp [held, h]

/-- The nodes in a field that has been pruned are those in the field, pruned. -/
theorem held_pruneHeld (tagField : String) (skip : List Value) (value : Value) :
    (tagged tagField).held (value.pruneHeld tagField skip) =
      ((tagged tagField).held value).map fun child => (child.1, child.2.prune tagField skip) := by
  -- The items stay where they are, so that their positions are the same.
  have hitems : ∀ items : List Value,
      ((items.map (Value.pruneNode tagField skip)).zipIdx.filterMap fun entry =>
          if (tagged tagField).isNode entry.1 then some (some entry.2, entry.1) else none) =
        (items.zipIdx.filterMap fun entry =>
          if (tagged tagField).isNode entry.1 then some (some entry.2, entry.1) else none).map
            fun child => (child.1, child.2.prune tagField skip) := by
    intro items
    rw [List.zipIdx_map, List.filterMap_map, List.map_filterMap]
    refine List.filterMap_congr ?_
    rintro ⟨item, i⟩ _
    by_cases hnode : (tagged tagField).isNode item = true
    · simp [Value.pruneNode, hnode]
    · simp [hnode]
  have hsingle : (∀ shape items, value ≠ .group shape items) →
      (tagged tagField).held (value.pruneNode tagField skip) =
        ((tagged tagField).held value).map fun child => (child.1, child.2.prune tagField skip) := by
    intro hgroup
    by_cases hnode : (tagged tagField).isNode value = true
    · have hpruned : value.pruneNode tagField skip = value.prune tagField skip := if_pos hnode
      rw [hpruned, held_of_isNode hnode,
        held_of_isNode ((isNode_prune tagField skip value).trans hnode)]
      rfl
    · have hsame : value.pruneNode tagField skip = value := if_neg hnode
      rw [hsame, held_of_not_isNode (Bool.eq_false_iff.mpr hnode) hgroup]
      rfl
  cases value with
  | group shape items =>
    cases shape with
    | list | tuple =>
      simp only [Value.pruneHeld, held, isNode_group, Bool.false_eq_true, ↓reduceIte]
      exact hitems items
    | set => simp [Value.pruneHeld, Value.pruneNode, held]
  | _ => exact hsingle (by simp)

/-- The tag of a node is a text, so it holds no children. -/
theorem held_tag {holder : Holder} {entries aside : List (Value × Value)}
    (hkeys : (entries.map Prod.fst).Nodup)
    (hnode : (tagged tagField).isNode (.record holder entries aside) = true)
    {key value : Value} (hentry : (key, value) ∈ entries) (htag : key.isText tagField = true) :
    (tagged tagField).held value = [] := by
  unfold isNode at hnode
  rw [kindOf_tagged, Value.lookup_of_isText hkeys hentry htag] at hnode
  cases value with
  | str text => exact held_of_not_isNode rfl (by simp)
  | _ => simp [Value.text?] at hnode

/-! ## Children -/

/-- Whether a record shows an entry with the given name as a field to an adapter of the
    tagged family that does not skip it. -/
def shows (name : Value) : Holder → Bool
  | .dict | .mapping | .results | .declared => true
  | .object | .form _ => !isHidden name
  | .slots | .foreign _ => false

/-- The nodes held in a field, in the slots that they hang in. -/
def placed (a : Adapter) (field : Value × Value) : List (Slot × Value) :=
  (a.held field.2).map fun child => (⟨field.1, child.1⟩, child.2)

/-- Tagged values are read entry by entry, without what is hidden or skipped. -/
theorem arrange_tagged (tagField : String) (skip : List Value) (holder : Holder)
    (entries : List (Value × Value)) :
    (tagged tagField skip).arrange holder entries .null =
      entries.filter fun entry => shows entry.1 holder && !entry.1.memberOf skip := by
  unfold arrange
  cases holder <;> simp [tagged, shows, skips, List.filter_filter, Bool.and_comm]

/-- To go through what is left is to go through everything and pass over the rest. -/
private theorem flatMap_filter {β γ : Type} (p : β → Bool) (f : β → List γ) (xs : List β) :
    (xs.filter p).flatMap f = xs.flatMap fun x => if p x then f x else [] := by
  induction xs with
  | nil => rfl
  | cons x rest ih =>
    by_cases hx : p x = true
    · simp [hx, ih]
    · simp [hx, ih]

/-- The children of a record, entry by entry. -/
theorem children?_record (tagField : String) (skip : List Value) (holder : Holder)
    (entries aside : List (Value × Value)) :
    (tagged tagField skip).children? (.record holder entries aside) =
      some (entries.flatMap fun entry =>
        if (shows entry.1 holder && !entry.1.memberOf skip) = true then
          (tagged tagField).placed entry
        else []) := by
  rw [← flatMap_filter, ← arrange_tagged]
  rfl

/-- The children of a pruned node are the children that are not skipped, pruned. -/
theorem children?_prune {node : Value} (hkeys : node.DistinctKeys)
    (hnode : (tagged tagField).isNode node = true) :
    (tagged tagField).children? (node.prune tagField skip) =
      ((tagged tagField skip).children? node).map
        (List.map fun child => (child.1, child.2.prune tagField skip)) := by
  cases node with
  | record holder entries aside =>
    rw [Value.prune, Value.pruneEntries_eq, children?_record, children?_record, List.flatMap_map,
      flatMap_filter, Option.map_some, List.map_flatMap]
    congr 1
    refine List.flatMap_congr ?_
    rintro ⟨key, value⟩ hentry
    by_cases htag : key.isText tagField = true
    · -- The tag holds no children, so it is the same to skip it and to leave it in.
      have hheld := held_tag hkeys.1 hnode hentry htag
      simp [placed, held_pruneHeld, hheld]
    · by_cases hskip : key.memberOf skip = true
      · simp [Value.isPruned, htag, hskip]
      · have hnone : key.memberOf [] = false := rfl
        by_cases hshows : shows key holder = true
        · simp [Value.isPruned, hskip, hnone, hshows, placed, held_pruneHeld]
        · simp [hshows]
  | _ => simp [isNode, kindOf_tagged, Value.lookup] at hnode

/-- Skipping the tag makes no difference to the children of a node. -/
theorem children?_skipTag {node : Value} (hkeys : node.DistinctKeys)
    (hnode : (tagged tagField).isNode node = true) :
    (tagged tagField (.str tagField :: skip)).children? node =
      (tagged tagField skip).children? node := by
  cases node with
  | record holder entries aside =>
    rw [children?_record, children?_record]
    congr 1
    refine List.flatMap_congr ?_
    rintro ⟨key, value⟩ hentry
    by_cases htag : key.isText tagField = true
    · have hheld := held_tag hkeys.1 hnode hentry htag
      simp [placed, hheld]
    · have hskip : key.memberOf (.str tagField :: skip) = key.memberOf skip := by
        simp [Value.memberOf, htag]
      simp only [hskip]
  | _ => simp [isNode, kindOf_tagged, Value.lookup] at hnode

/-! ## Trees -/

/-- Two parts are in the same place, and related by `R`. -/
def SamePlace {ι : Type} (R : Value → Value → Prop) (part part' : ι × Value) : Prop :=
  part.1 = part'.1 ∧ R part.2 part'.2

/-- Nodes of one document have nodes of another for counterparts: nodes of the same kind, whose
    children are counterparts again, slot by slot. -/
structure Counterparts (a b : Adapter) (R : Value → Value → Prop) : Prop where
  kindOf_eq : ∀ {node node'}, R node node' → a.kindOf node = b.kindOf node'
  exists_children : ∀ {node node'}, R node node' → ∃ children children',
    a.children? node = some children ∧ b.children? node' = some children' ∧
      List.Forall₂ (SamePlace R) children children'

namespace Counterparts

variable {a b : Adapter} {R N : Value → Value → Prop}

mutual

/-- The trees below counterparts are alike in whatever counterparts have in common. -/
theorem alike (h : Counterparts a b R) (hN : ∀ node node', R node node' → N node node') :
    ∀ (tree : Tree) (node node' : Value), a.view node = tree → R node node' →
      Tree.Alike N tree (b.view node')
  | .sealed value, node, node', hview, hnode => by
    obtain ⟨children, -, hsome, -, -⟩ := h.exists_children hnode
    rw [(of_view_eq_sealed hview).2] at hsome
    cases hsome
  | .node value kind trees, node, node', hview, hnode => by
    obtain ⟨rfl, rfl, children, hchildren, htrees⟩ := of_view_eq_node hview
    obtain ⟨children₁, children', hsome, hsome', hrel⟩ := h.exists_children hnode
    obtain rfl : children = children₁ := Option.some.inj (hchildren.symm.trans hsome)
    rw [view_eq b, hsome', h.kindOf_eq hnode]
    exact .node (hN value node' hnode) (alikeAll h hN trees children children' htrees hrel)

/-- Children that are counterparts have trees that are alike. -/
theorem alikeAll (h : Counterparts a b R) (hN : ∀ node node', R node node' → N node node') :
    ∀ (trees : List (Slot × Tree)) (children children' : List (Slot × Value)),
      children.map (fun child => (child.1, a.view child.2)) = trees →
      List.Forall₂ (SamePlace R) children children' →
      Tree.AlikeAll N trees (children'.map fun child => (child.1, b.view child.2))
  | [], children, children', hview, hrel => by
    obtain rfl := List.map_eq_nil_iff.mp hview
    rw [List.forall₂_nil_left_iff.mp hrel]
    exact .nil
  | (slot, tree) :: trees, children, children', hview, hrel => by
    obtain ⟨⟨place, child⟩, rest, rfl, hhead, hrest⟩ := List.map_eq_cons_iff.mp hview
    obtain ⟨rfl, hchild⟩ := Prod.mk.inj hhead
    obtain ⟨⟨place', child'⟩, rest', hfirst, hrel', rfl⟩ := List.forall₂_cons_left_iff.mp hrel
    obtain ⟨rfl, hnode⟩ : place = place' ∧ R child child' := hfirst
    exact .cons place (alike h hN tree child child' hchild hnode)
      (alikeAll h hN trees rest rest' hrest hrel')

end

/-- Counterparts stay counterparts if only those nodes are looked at that a walk reaches. -/
theorem reached (h : Counterparts a b R) (root : Value) :
    Counterparts a b fun node node' => (∃ path, a.Reaches root path node) ∧ R node node' where
  kindOf_eq hnode := h.kindOf_eq hnode.2
  exists_children := by
    rintro node node' ⟨⟨path, hreach⟩, hnode⟩
    obtain ⟨children, children', hsome, hsome', hrel⟩ := h.exists_children hnode
    refine ⟨children, children', hsome, hsome', ?_⟩
    have hbelow : ∀ child ∈ children, ∃ path, a.Reaches root path child.2 := fun child hmem =>
      ⟨_, .child hreach ((mem_children?_iff hsome).mp hmem)⟩
    refine ((List.forall₂_and_left _ _).mpr ⟨hbelow, hrel⟩).imp ?_
    rintro child child' ⟨hchild, hplace, hrestyled⟩
    exact ⟨hplace, hchild, hrestyled⟩

/-- Nodes have counterparts if a function gives them: one under which kinds stay, and so do the
    children of nodes that are `good`, as these children are again. -/
theorem of_function {f : Value → Value} {good : Value → Prop}
    (hkind : ∀ node, b.kindOf (f node) = a.kindOf node)
    (hchildren : ∀ node, good node → a.isNode node = true →
      b.children? (f node) = (a.children? node).map (List.map fun child => (child.1, f child.2)))
    (hdown : ∀ node slot child, good node → a.IsChild node slot child → good child) :
    Counterparts a b fun node node' =>
      good node ∧ a.isNode node = true ∧ f node = node' where
  kindOf_eq := by
    rintro node node' ⟨-, -, rfl⟩
    exact (hkind node).symm
  exists_children := by
    rintro node node' ⟨hgood, hnode, rfl⟩
    obtain ⟨children, hsome⟩ := exists_children?_of_isNode hnode
    refine ⟨children, children.map fun child => (child.1, f child.2), hsome, ?_, ?_⟩
    · rw [hchildren node hgood hnode, hsome]
      -- The children of the counterpart are the images of the children, place by place.
      rfl
    · rw [List.forall₂_map_right_iff, List.forall₂_same]
      rintro ⟨slot, child⟩ hmem
      have hchild := (mem_children?_iff hsome).mp hmem
      exact ⟨rfl, hdown node slot child hgood hchild, hchild.1, rfl⟩

end Counterparts

/-- Distinct keys are handed down to the children of a node. -/
theorem IsChild.distinctKeys {a : Adapter} {node child : Value} {slot : Slot}
    (hchild : a.IsChild node slot child) (hkeys : node.DistinctKeys) : child.DistinctKeys :=
  (Value.distinctKeys_iff child).mpr (hchild.everyRecord ((Value.distinctKeys_iff node).mp hkeys))

/-- A pruned value is the counterpart of the value, where the same fields are skipped. -/
theorem counterparts_prune (tagField : String) (skip : List Value) :
    Counterparts (tagged tagField skip) (tagged tagField) fun node node' =>
      node.DistinctKeys ∧ (tagged tagField skip).isNode node = true ∧
        node.prune tagField skip = node' :=
  .of_function (kindOf_prune tagField skip) (fun _ hkeys hnode => children?_prune hkeys hnode)
    fun _ _ _ hkeys hchild => hchild.distinctKeys hkeys

/-- A value is its own counterpart where the tag is skipped, too. -/
theorem counterparts_skipTag (tagField : String) (skip : List Value) :
    Counterparts (tagged tagField (.str tagField :: skip)) (tagged tagField skip)
      fun node node' => node.DistinctKeys ∧
        (tagged tagField (.str tagField :: skip)).isNode node = true ∧ id node = node' := by
  refine .of_function (fun _ => rfl) ?_ fun _ _ _ hkeys hchild => hchild.distinctKeys hkeys
  intro node hkeys hnode
  rw [id_eq, children?_skipTag hkeys hnode]
  cases (tagged tagField skip).children? node with
  | none => rfl
  | some children => simp

/-- An adapter that skips nothing shows in a pruned document a tree like the one that an
    adapter with the skip set shows in the document. -/
theorem alike_prune (tagField : String) (skip : List Value) {root : Value}
    (hnode : (tagged tagField).isNode root = true) (hkeys : root.DistinctKeys) :
    Tree.Alike
      (fun value value' => (tagged tagField skip).kindOf value = (tagged tagField).kindOf value')
      ((tagged tagField skip).view root) ((tagged tagField).view (root.prune tagField skip)) :=
  (counterparts_prune tagField skip).alike (fun _ _ => (counterparts_prune tagField skip).kindOf_eq)
    _ root _ rfl ⟨hkeys, hnode, rfl⟩

/-- An adapter that skips the tag as well shows a tree like the one without the tag in the
    skip set. -/
theorem alike_skipTag (tagField : String) (skip : List Value) {root : Value}
    (hnode : (tagged tagField).isNode root = true) (hkeys : root.DistinctKeys) :
    Tree.Alike
      (fun value value' => (tagged tagField (.str tagField :: skip)).kindOf value =
        (tagged tagField skip).kindOf value')
      ((tagged tagField (.str tagField :: skip)).view root)
      ((tagged tagField skip).view root) :=
  (counterparts_skipTag tagField skip).alike
    (fun _ _ => (counterparts_skipTag tagField skip).kindOf_eq) _ root _ rfl ⟨hkeys, hnode, rfl⟩

end Adapter

end TreeWalk
