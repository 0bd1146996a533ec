import Mathlib.Data.List.Nodup
import TreeWalk.Context

/-! # The tree an adapter shows, field by field

`Adapter.view` computes the tree below a document in one go.  Here the same tree
is described one node at a time: what a single field holds, which children a node
has, and which values a walk can reach from a root and by which path.

## Key results

* `Adapter.view_eq` opens the view of a value by one level, `Adapter.of_view_eq_node` and
  `Adapter.of_view_eq_sealed` take it apart.
* `Adapter.mem_children?_iff` says which children a node has: those that
  `Adapter.IsChild` describes.
-/

namespace TreeWalk

namespace Adapter

/-- The nodes that the value of a field holds: the value itself if it is a node,
    otherwise the nodes among the items of a list or tuple, with their positions. -/
def held (a : Adapter) (value : Value) : List (Option Nat × Value) :=
  if a.isNode value then [(none, value)]
  else match value with
    | .group .list items | .group .tuple items =>
      items.zipIdx.filterMap fun (item, i) =>
        if a.isNode item then some (some i, item) else none
    | _ => []

/-- The children of a value with their places, in field and item order; the
    source family has no answer for a value that is not one of its nodes. -/
def children? (a : Adapter) (node : Value) : Option (List (Slot × Value)) :=
  (a.fields? node).map fun fields =>
    fields.flatMap fun field => (a.held field.2).map fun child => (⟨field.1, child.1⟩, child.2)

/-- A child of `node` at `slot` is a node that the field of that name holds: as its
    value if the slot has no position, otherwise as the item of a list or tuple at
    that position. -/
def IsChild (a : Adapter) (node : Value) (slot : Slot) (child : Value) : Prop :=
  a.isNode child = true ∧
    ∃ fields value, a.fields? node = some fields ∧ (slot.prop, value) ∈ fields ∧
      match slot.index with
      | none => value = child
      | some i => ∃ shape items, value = .group shape items ∧ shape ≠ .set ∧
          items[i]? = some child

/-- A walk below `root` reaches a value by the path that leads to it from child to
    child. -/
inductive Reaches (a : Adapter) (root : Value) : List PathEntry → Value → Prop where
  | root : Reaches a root [] root
  | child {path node slot child} (hnode : Reaches a root path node)
      (hchild : a.IsChild node slot child) :
      Reaches a root (path ++ [slot.entry node]) child

/-! ## Nodes and what holds them -/

/-- A list is no node. -/
@[simp] theorem isNode_group (a : Adapter) (shape : Grouping) (items : List Value) :
    a.isNode (.group shape items) = false := by
  cases ha : a.family <;> simp [isNode, kindOf, ha, Value.lookup]

/-- Nor is null. -/
@[simp] theorem isNode_null (a : Adapter) : a.isNode .null = false := by
  cases ha : a.family <;> simp [isNode, kindOf, ha, Value.lookup]

/-- Whatever is a node has fields that can be listed. -/
theorem reads_of_isNode {a : Adapter} {value : Value} (h : a.isNode value = true) :
    a.reads value = true := by
  unfold reads
  cases a.family with
  | tagged tagField => rfl
  | source => exact h

/-- A value has no list of children just if it is not read. -/
theorem children?_eq_none_iff (a : Adapter) (node : Value) :
    a.children? node = none ↔ a.reads node = false := by
  unfold children? fields?
  cases a.reads node with
  | false => simp
  | true => cases node <;> simp

/-- The children of a node can be listed. -/
theorem exists_children?_of_isNode {a : Adapter} {node : Value} (h : a.isNode node = true) :
    ∃ children, a.children? node = some children := by
  have hreads := reads_of_isNode h
  cases hc : a.children? node with
  | some children => exact ⟨children, rfl⟩
  | none =>
    rw [children?_eq_none_iff, hreads] at hc
    cases hc

/-- What is not read has no kind. -/
theorem kindOf_of_not_reads {a : Adapter} {node : Value} (h : a.reads node = false) :
    a.kindOf node = none := by
  unfold reads at h
  cases ha : a.family with
  | tagged tagField => simp [ha] at h
  | source => simpa [ha, isNode] using h

/-- A node that a field holds is its only child, and has no position. -/
theorem held_of_isNode {a : Adapter} {value : Value} (h : a.isNode value = true) :
    a.held value = [(none, value)] := by
  simp [held, h]

/-- A field holds a child directly if its value is that child, and at a position
    if its value is a list or tuple with that child there. -/
theorem mem_held_iff {a : Adapter} {value child : Value} {index : Option Nat} :
    (index, child) ∈ a.held value ↔ a.isNode child = true ∧
      match index with
      | none => value = child
      | some i => ∃ shape items, value = .group shape items ∧ shape ≠ .set ∧
          items[i]? = some child := by
  -- A value that is a node is never a list or tuple, so only one of the two cases
  -- of `held` can give anything.
  by_cases hv : a.isNode value = true
  · rw [held_of_isNode hv]
    cases index with
    | none =>
      constructor
      · intro h
        obtain rfl : child = value := by simpa using h
        exact ⟨hv, rfl⟩
      · intro ⟨_, hvalue⟩
        rw [hvalue]
        exact List.mem_singleton.mpr rfl
    | some i =>
      constructor
      · intro h
        simp at h
      · intro ⟨_, shape, items, hvalue, _⟩
        rw [hvalue, isNode_group] at hv
        cases hv
  · have hgroup : ∀ items : List Value, (index, child) ∈ items.zipIdx.filterMap (fun (item, i) =>
        if a.isNode item then some (some i, item) else none) ↔
        a.isNode child = true ∧ ∃ i, index = some i ∧ items[i]? = some child := by
      intro items
      simp only [List.mem_filterMap, Prod.exists, List.mk_mem_zipIdx_iff_getElem?,
        Option.ite_none_right_eq_some, Option.some.injEq, Prod.mk.injEq]
      constructor
      · intro ⟨item, i, hi, hn, hindex, hitem⟩
        rw [hitem] at hi hn
        exact ⟨hn, i, hindex.symm, hi⟩
      · intro ⟨hn, i, hindex, hi⟩
        exact ⟨child, i, hi, hn, hindex.symm, rfl⟩
    have hnone : a.isNode child = true → value ≠ child := by
      intro hc hvalue
      rw [hvalue] at hv
      exact hv hc
    cases value with
    | group shape items =>
      cases shape with
      | list | tuple =>
        simp only [held, isNode_group, Bool.false_eq_true, ↓reduceIte]
        rw [hgroup]
        cases index <;> grind
      | set =>
        simp only [held, isNode_group, Bool.false_eq_true, ↓reduceIte]
        cases index <;> grind
    | _ =>
      simp only [held, hv, Bool.false_eq_true, ↓reduceIte]
      cases index <;> grind

/-- A field holds no two nodes at one position. -/
theorem nodup_held (a : Adapter) (value : Value) :
    ((a.held value).map Prod.fst).Nodup := by
  have hitems : ∀ items : List Value, ((items.zipIdx.filterMap fun (item, i) =>
      if a.isNode item then some (some i, item) else none).map Prod.fst).Nodup := by
    intro items
    -- The positions are a part of those that `zipIdx` numbers, and these are distinct.
    have hfst : (items.zipIdx.filterMap fun (item, i) =>
        if a.isNode item then some (some i, item) else none).map Prod.fst =
        ((items.zipIdx.filter fun entry => a.isNode entry.1).map Prod.snd).map some := by
      induction items.zipIdx with
      | nil => rfl
      | cons entry rest ih =>
        obtain ⟨item, i⟩ := entry
        by_cases h : a.isNode item = true
        · simp [h, ih]
        · simp [h, ih]
    have hsub : ((items.zipIdx.filter fun entry => a.isNode entry.1).map Prod.snd).Sublist
        (items.zipIdx.map Prod.snd) :=
      List.filter_sublist.map Prod.snd
    have hrange : (items.zipIdx.map Prod.snd).Nodup := by
      rw [List.zipIdx_map_snd]
      exact List.nodup_range'
    rw [hfst]
    exact (hrange.sublist hsub).map fun _ _ heq => Option.some.inj heq
  unfold held
  split
  · simp
  · split
    · exact hitems _
    · exact hitems _
    · simp

/-- The children of a node are the nodes held in its fields. -/
theorem mem_children?_iff {a : Adapter} {node child : Value} {slot : Slot}
    {children : List (Slot × Value)} (h : a.children? node = some children) :
    (slot, child) ∈ children ↔ a.IsChild node slot child := by
  unfold children? at h
  obtain ⟨fields, hfields, rfl⟩ := Option.map_eq_some_iff.mp h
  -- A child is held by a field that is read, and this is what both sides say.
  constructor
  · intro hmem
    simp only [List.mem_flatMap, List.mem_map] at hmem
    obtain ⟨⟨prop, value⟩, hfield, ⟨index, child'⟩, hheld, heq⟩ := hmem
    obtain ⟨rfl, rfl⟩ := Prod.mk.inj heq
    obtain ⟨hnode, hplace⟩ := mem_held_iff.mp hheld
    exact ⟨hnode, fields, value, hfields, hfield, hplace⟩
  · intro ⟨hnode, fields', value, hfields', hfield, hplace⟩
    obtain rfl : fields = fields' := by simpa [hfields] using hfields'
    exact List.mem_flatMap.mpr ⟨(slot.prop, value), hfield,
      List.mem_map.mpr ⟨(slot.index, child), mem_held_iff.mpr ⟨hnode, hplace⟩, rfl⟩⟩

/-! ## One level of the view -/

/-- Fields are put in order by their names alone, whatever stands for their
    values. -/
theorem arrange_map (a : Adapter) (holder : Holder) (f : β → γ) (entries : List (Value × β))
    (unset : β) :
    a.arrange holder (entries.map fun e => (e.1, f e.2)) (f unset) =
      (a.arrange holder entries unset).map fun e => (e.1, f e.2) := by
  -- A class looks up its fields by name, which commutes with changing the values.
  have hform : ∀ className, Form.arrange className (entries.map fun e => (e.1, f e.2)) (f unset) =
      (Form.arrange className entries unset).map fun e => (e.1, f e.2) := by
    intro className
    unfold Form.arrange
    rw [List.map_filterMap]
    congr 1
    funext field
    have hcomp : (fun entry : Value × γ => entry.1.isText field.name) ∘
        (fun e : Value × β => (e.1, f e.2)) = fun e => e.1.isText field.name := rfl
    rw [List.find?_map, hcomp]
    cases entries.find? fun e => e.1.isText field.name with
    | some entry => rfl
    | none => cases field.isOptional <;> rfl
  unfold arrange
  cases holder with
  | form className =>
    cases ha : a.family with
    | tagged tagField => simp only [List.filter_map]; rfl
    | source => simp only [hform, List.filter_map]; rfl
  | slots => rfl
  | _ => simp only [List.filter_map]; rfl

/-- The nodes of a field as trees. -/
private def heldTrees (a : Adapter) (value : Value) : List (Option Nat × Tree) :=
  (a.held value).map fun child => (child.1, a.viewNode child.2)

/-- The trees of the items of a list are those of its nodes, with their positions. -/
private theorem viewItems_eq (a : Adapter) (items : List Value) (index : Nat) :
    viewItems a index items = ((items.zipIdx index).filterMap fun (item, i) =>
      if a.isNode item then some (some i, item) else none).map
        fun child => (child.1, a.viewNode child.2) := by
  induction items generalizing index with
  | nil => simp [viewItems]
  | cons item rest ih =>
    rw [viewItems, List.zipIdx_cons, ih]
    by_cases h : a.isNode item = true
    · simp [h]
    · simp [h]

/-- The trees of entries are those of what the entries hold. -/
private theorem viewEntries_eq (a : Adapter) (entries : List (Value × Value)) :
    viewEntries a entries = entries.map fun e => (e.1, heldTrees a e.2) := by
  induction entries with
  | nil => simp [viewEntries]
  | cons entry rest ih =>
    obtain ⟨key, value⟩ := entry
    rw [List.map_cons, ← ih]
    unfold heldTrees
    -- Anything but a list holds itself if it is a node.
    have hother : ∀ v, (if a.isNode v then [(none, viewNode a v)] else []) =
        (if a.isNode v then [((none : Option Nat), v)] else []).map
          fun child => (child.1, a.viewNode child.2) := by
      intro v
      split <;> rfl
    cases value with
    | group shape items =>
      cases shape with
      | list | tuple => simp only [viewEntries, viewItems_eq, held, isNode_group]; rfl
      | set => simp only [viewEntries, held, isNode_group]; rfl
    | _ => simp only [viewEntries, held, hother]

/-- A node is read, so its tree is that of a node. -/
private theorem view_of_isNode {a : Adapter} {value : Value} (h : a.isNode value = true) :
    a.view value = a.viewNode value := by
  simp [view, reads_of_isNode h]

/-- The tree of a node has the trees of its children. -/
private theorem viewNode_eq {a : Adapter} {node : Value} {children : List (Slot × Value)}
    (h : a.children? node = some children) :
    a.viewNode node =
      .node node (a.kindOf node) (children.map fun child => (child.1, a.viewNode child.2)) := by
  unfold children? fields? at h
  cases hreads : a.reads node with
  | false => simp [hreads] at h
  | true =>
    cases node with
    | record holder entries aside =>
      simp only [hreads, ↓reduceIte, Option.map_some, Option.some.injEq] at h
      -- A field that is not set holds no children, so to arrange the values is to arrange their
      -- trees.
      have hnull : heldTrees a .null = [] := by simp [heldTrees, held]
      rw [viewNode, viewEntries_eq, ← hnull, arrange_map a holder (heldTrees a), ← h]
      simp only [place, heldTrees, List.flatMap_map, List.map_flatMap, List.map_map]
      rfl
    | _ =>
      obtain rfl : ([] : List (Slot × Value)) = children := by simpa [hreads] using h
      simp [viewNode]

/-- The tree below a value: one whose fields cannot be listed is sealed, another
    one has the trees below its children under it. -/
theorem view_eq (a : Adapter) (node : Value) :
    a.view node = match a.children? node with
      | none => .sealed node
      | some children =>
        .node node (a.kindOf node) (children.map fun child => (child.1, a.view child.2)) := by
  cases hc : a.children? node with
  | none =>
    have hreads := (children?_eq_none_iff a node).mp hc
    simp [view, hreads]
  | some children =>
    have hreads : a.reads node = true := by
      cases hr : a.reads node with
      | true => rfl
      | false =>
        rw [(children?_eq_none_iff a node).mpr hr] at hc
        cases hc
    -- `viewNode` is what `view` gives for nodes, and the children are nodes.
    have hviews : children.map (fun child => (child.1, a.viewNode child.2)) =
        children.map fun child => (child.1, a.view child.2) := by
      apply List.map_congr_left
      intro (slot, child) hmem
      rw [view_of_isNode ((mem_children?_iff hc).mp hmem).1]
    rw [view, if_pos hreads, viewNode_eq hc, hviews]

/-- A tree that is a node tells of what value it is, and of what children. -/
theorem of_view_eq_node {a : Adapter} {node value : Value} {kind : Option String}
    {trees : List (Slot × Tree)} (h : a.view node = .node value kind trees) :
    value = node ∧ kind = a.kindOf node ∧ ∃ children, a.children? node = some children ∧
      children.map (fun child => (child.1, a.view child.2)) = trees := by
  rw [view_eq] at h
  cases hchildren : a.children? node with
  | none => simp [hchildren] at h
  | some children =>
    rw [hchildren] at h
    obtain ⟨hvalue, hkind, htrees⟩ := Tree.node.inj h
    exact ⟨hvalue.symm, hkind.symm, children, rfl, htrees⟩

/-- A tree that is sealed tells of what value it is, which is not read. -/
theorem of_view_eq_sealed {a : Adapter} {node value : Value} (h : a.view node = .sealed value) :
    value = node ∧ a.children? node = none := by
  rw [view_eq] at h
  cases hchildren : a.children? node with
  | some children => simp [hchildren] at h
  | none =>
    rw [hchildren] at h
    exact ⟨(Tree.sealed.inj h).symm, rfl⟩

/-- Only what cannot be read is sealed. -/
theorem reads_of_view_eq_sealed {a : Adapter} {node value : Value}
    (h : a.view node = .sealed value) : a.reads node = false :=
  (children?_eq_none_iff a node).mp (of_view_eq_sealed h).2

/-- Only what is no node is sealed. -/
theorem isNode_of_view_eq_sealed {a : Adapter} {node value : Value}
    (h : a.view node = .sealed value) : a.isNode node = false := by
  cases hnode : a.isNode node with
  | false => rfl
  | true =>
    obtain ⟨children, hchildren⟩ := exists_children?_of_isNode hnode
    rw [(of_view_eq_sealed h).2] at hchildren
    cases hchildren

end Adapter

end TreeWalk
