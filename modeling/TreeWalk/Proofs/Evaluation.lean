import TreeWalk.Proofs.Gathering
import TreeWalk.Proofs.Prune
import TreeWalk.Steps.Folding

/-! # The value of an expression

A fold walks a whole tree, but what it computes can be told from the tree alone.
`Folding.eval` gives every tree a value, by recursion into the nodes in its operand fields.
`Folding.due` says from this what is due when a walk leaves a node, and `Folding.report` what the
step makes of the results that it finds there.

## Key results

* `Folding.operand_eq` says that the operands of an expression are what its step finds among
  the results of the children.
* `Folding.report_eq_due` says that the step reports what is due.
* `Adapter.exists_exit_iff` says that a walk leaves the nodes that it reaches. -/

namespace TreeWalk

/-! ## Leaving nodes -/

namespace Tree

mutual

/-- The nodes of a tree in the order in which a walk leaves them: a node after those below it,
    and what is below a child before its later siblings. -/
def exits (address : List Nat) (path : List PathEntry) : Tree → List Stop
  | .node value _ children =>
    exitsAll address path value 0 children ++ [⟨address, path, value⟩]
  | .sealed value => [⟨address, path, value⟩]

/-- The nodes below `parent` in the order in which a walk leaves them, the next of its children
    having the number `i`. -/
def exitsAll (address : List Nat) (path : List PathEntry) (parent : Value) (i : Nat) :
    List (Slot × Tree) → List Stop
  | [] => []
  | (slot, tree) :: rest =>
    tree.exits (address ++ [i]) (path ++ [slot.entry parent]) ++
      exitsAll address path parent (i + 1) rest

end

mutual

/-- A walk leaves exactly the nodes that it comes to. -/
theorem exits_perm : ∀ (tree : Tree) (address : List Nat) (path : List PathEntry),
    (tree.exits address path).Perm (tree.stops address path)
  | .sealed value, address, path => .refl _
  | .node value kind children, address, path => by
    rw [exits, stops]
    exact (List.perm_append_singleton _ _).trans
      ((exitsAll_perm children address path value 0).cons _)

/-- So it is with trees side by side. -/
theorem exitsAll_perm : ∀ (children : List (Slot × Tree)) (address : List Nat)
    (path : List PathEntry) (parent : Value) (i : Nat),
    (exitsAll address path parent i children).Perm (stopsAll address path parent i children)
  | [], address, path, parent, i => .refl _
  | (slot, tree) :: rest, address, path, parent, i => by
    rw [exitsAll, stopsAll]
    exact (exits_perm tree _ _).append (exitsAll_perm rest address path parent (i + 1))

end

end Tree

/-- The nodes below `root` in the order in which a walk leaves them. -/
def Adapter.exits (a : Adapter) (root : Value) : List Stop :=
  (a.view root).exits [] []

/-- The nodes that a walk leaves are those that it reaches. -/
theorem Adapter.exists_exit_iff (a : Adapter) (root : Value) (path : List PathEntry)
    (node : Value) :
    (∃ stop ∈ a.exits root, stop.position = (path, node)) ↔ a.Reaches root path node := by
  rw [← a.exists_stop_iff root path node]
  have hperm : (a.exits root).Perm (a.stops root) := Tree.exits_perm (a.view root) [] []
  simp only [hperm.mem_iff]

/-- What is reached below a value that can be read can be read. -/
theorem Adapter.Reaches.reads {a : Adapter} {root : Value} {path : List PathEntry} {node : Value}
    (hreach : a.Reaches root path node) (h : a.reads root = true) : a.reads node = true := by
  cases hreach with
  | root => exact h
  | child _ hchild => exact Adapter.reads_of_isNode hchild.1

/-- The places of the nodes that a walk leaves are distinct. -/
theorem Adapter.nodup_address_exits (a : Adapter) (root : Value) :
    ((a.exits root).map Stop.address).Nodup :=
  ((Tree.exits_perm (a.view root) [] []).map Stop.address).nodup_iff.mpr
    (a.nodup_address_stops root)

/-! ## Values -/

namespace Folding

variable (selected : List Operator)

mutual

/-- The value of a tree: the number of a literal, and for an expression with a selected operator
    what the operator gives for the values of its operands.  An expression without a result, and
    every other node, has no value. -/
def eval : Tree → Option Number
  | .node value kind children =>
    match role selected kind value with
    | .literal number => number
    | .binary op =>
      match operand "left" children, operand "right" children with
      | some x, some y => (op.apply x y).toOption
      | _, _ => none
    | .other => none
  | .sealed _ => none

/-- The value of the child that the field called `name` holds directly. -/
def operand (name : String) : List (Slot × Tree) → Option Number
  | [] => none
  | (slot, tree) :: rest =>
    if slot.prop.isText name && slot.index.isNone then eval tree else operand name rest

end

/-- The value of a node under an adapter. -/
def valueOf (a : Adapter) (node : Value) : Option Number :=
  eval selected (a.view node)

/-- What comes of two operands at an expression of the given kind and place. -/
def compute (op : Operator) (kind location : String) :
    Option Number → Option Number → Except Error Number
  | some x, some y => (op.apply x y).mapError .arithmetic
  | _, _ => .error (.notNumeric kind location)

/-- What is due when a walk leaves a node: for an expression with a selected operator its value,
    or the reason why it has none, and nothing for other nodes. -/
def due (a : Adapter) (stop : Stop) : Option (Except Error Number) :=
  match role selected (a.kindOf stop.node) stop.node with
  | .binary op =>
    let children := (a.view stop.node).children
    some (compute op ((a.kindOf stop.node).getD "None") (a.location stop.path)
      (operand selected "left" children) (operand selected "right" children))
  | _ => none

/-! ## What a step finds -/

/-- The results of the children, as the step of their parent is resumed with them. -/
def results (children : List (Slot × Tree)) : Children Number :=
  .ofVisits (children.map fun child => (child.1, eval selected child.2))

/-- What the step makes of the results that it finds when a walk leaves a node. -/
def report (a : Adapter) (stop : Stop) : Option (Except Error Number) :=
  match role selected (a.kindOf stop.node) stop.node with
  | .binary op =>
    let found := results selected (a.view stop.node).children
    some (combine op ((a.kindOf stop.node).getD "None") (a.location stop.path)
      (found.get? "left") (found.get? "right"))
  | _ => none

end Folding

/-- The result of the child that a field holds directly, if it holds one. -/
def FieldResult.single? {α : Type} : FieldResult α → Option α
  | .single result => result
  | .sequence _ => none

section

variable {a : Adapter} {selected : List Operator}

/-- The first field of the given name is the only one, so what is found under the name is what
    this field contributes. -/
theorem Children.get?_contributions {α : Type} (result : Slot → Option α) (name : String)
    {fields : List (Value × Value)}
    (hseparate : fields.Pairwise fun field later => field.1.sameKey later.1 = false) :
    Children.get? name (fields.filterMap (a.contribution result)) =
      (fields.find? fun field => field.1.isText name).bind fun field =>
        (a.contribution result field).map Prod.snd := by
  unfold get?
  induction fields with
  | nil => rfl
  | cons field rest ih =>
    obtain ⟨hfield, hrest⟩ := List.pairwise_cons.mp hseparate
    by_cases hname : field.1.isText name = true
    · -- The names of the other fields are different, so nothing is found behind this one.
      have hothers : ∀ entry ∈ rest.filterMap (a.contribution result),
          entry.1.isText name = false := by
        intro entry hentry
        obtain ⟨later, hlater, hcontribution⟩ := List.mem_filterMap.mp hentry
        have hapart := hfield later hlater
        rw [contribution_fst hcontribution, Bool.eq_false_iff]
        intro htext
        rw [Value.eq_str_of_isText hname, Value.eq_str_of_isText htext,
          Value.sameKey_self] at hapart
        cases hapart
      have hnone : (rest.filterMap (a.contribution result)).find?
          (fun entry => entry.1.isText name) = none := by
        rw [List.find?_eq_none]
        intro entry hentry
        simp [hothers entry hentry]
      cases hcontribution : a.contribution result field with
      | none => simp [hname, hcontribution, hnone]
      | some entry => simp [hname, hcontribution, contribution_fst hcontribution]
    · rw [Bool.not_eq_true] at hname
      -- A field with another name is passed over, whether it contributes something or not.
      cases hcontribution : a.contribution result field with
      | none =>
        simp only [List.filterMap_cons_none hcontribution, List.find?_cons, hname]
        exact ih hrest
      | some entry =>
        have hentry : entry.1.isText name = false := by
          rwa [contribution_fst hcontribution]
        simp only [List.filterMap_cons_some hcontribution, List.find?_cons, hname, hentry]
        exact ih hrest

/-- A field that is found by its name has that name. -/
theorem Value.of_find?_isText {β : Type} {fields : List (Value × β)} {name : String} {key : Value}
    {value : β} (h : (fields.find? fun field => field.1.isText name) = some (key, value)) :
    key = .str name ∧ (key, value) ∈ fields := by
  have htext : key.isText name = true := by
    have hfound := List.find?_some h
    exact hfound
  exact ⟨Value.eq_str_of_isText htext, List.mem_of_find?_eq_some h⟩

/-- A field that holds no node contributes no single result. -/
theorem Adapter.single?_contribution {α : Type} (result : Slot → Option α) {field : Value × Value}
    (h : ¬a.isNode field.2 = true) :
    ((a.contribution result field).map Prod.snd).bind FieldResult.single? = none := by
  obtain ⟨key, value⟩ := field
  cases value with
  | group shape items =>
    cases shape with
    | list | tuple =>
      simp only [contribution, isNode_group, Bool.false_eq_true, ↓reduceIte]
      split <;> rfl
    | set => simp [contribution]
  | _ => simp [contribution, h]

/-- A field that contributes a sequence holds one with nodes in it. -/
theorem Adapter.exists_items_of_contribution {α : Type} {result : Slot → Option α}
    {key value : Value} {found : List (Nat × Option α)}
    (h : (a.contribution result (key, value)).map Prod.snd = some (.sequence found)) :
    ∃ shape items, value = .group shape items ∧ shape ≠ .set ∧ a.positions items ≠ [] := by
  unfold contribution at h
  -- Only a list or a tuple with nodes in it contributes a sequence.
  split at h
  · simp at h
  · split at h
    · rename_i items hvalue
      refine ⟨.list, items, hvalue, by decide, ?_⟩
      rintro hpositions
      simp [hpositions] at h
    · rename_i items hvalue
      refine ⟨.tuple, items, hvalue, by decide, ?_⟩
      rintro hpositions
      simp [hpositions] at h
    · cases h

/-- The trees below a node are those below its children. -/
theorem Adapter.children_view {node : Value} {children : List (Slot × Value)}
    (h : a.children? node = some children) :
    (a.view node).children = children.map fun child => (child.1, a.view child.2) := by
  rw [Adapter.view_eq, h]
  rfl

namespace Folding

/-- If no two children hang in one slot, the child in the slot that a field has of its own gives
    the operand. -/
theorem operand_of_mem {children : List (Slot × Tree)} {name : String} {tree : Tree}
    (hslots : (children.map Prod.fst).Nodup) (hmem : (⟨.str name, none⟩, tree) ∈ children) :
    operand selected name children = eval selected tree := by
  induction children with
  | nil => cases hmem
  | cons child rest ih =>
    obtain ⟨slot, other⟩ := child
    rw [List.map_cons, List.nodup_cons] at hslots
    rw [operand]
    by_cases hslot : slot = ⟨.str name, none⟩
    · -- The first child hangs in the slot, so it is the one that is meant.
      have hother : tree = other := by
        rcases List.mem_cons.mp hmem with heq | hrest
        · exact (Prod.mk.inj heq).2
        · have hagain := List.mem_map_of_mem (f := Prod.fst) hrest
          rw [hslot] at hslots
          exact absurd hagain hslots.1
      simp [hslot, Value.isText, hother]
    · have hrest : (⟨.str name, none⟩, tree) ∈ rest := by
        rcases List.mem_cons.mp hmem with heq | hrest
        · exact absurd (Prod.mk.inj heq).1.symm hslot
        · exact hrest
      have hpass : (slot.prop.isText name && slot.index.isNone) = false := by
        rw [Bool.eq_false_iff]
        intro htext
        rw [Bool.and_eq_true, Option.isNone_iff_eq_none] at htext
        obtain ⟨hprop, hindex⟩ := htext
        obtain ⟨prop, index⟩ := slot
        exact hslot (congrArg₂ Slot.mk (Value.eq_str_of_isText hprop) hindex)
      rw [hpass]
      exact ih hslots.2 hrest

/-- Without a child in that slot there is no operand. -/
theorem operand_of_not_mem {children : List (Slot × Tree)} {name : String}
    (h : ∀ tree, (⟨.str name, none⟩, tree) ∉ children) : operand selected name children = none := by
  induction children with
  | nil => rfl
  | cons child rest ih =>
    obtain ⟨⟨prop, index⟩, tree⟩ := child
    -- A child in the slot would be a child that is not there.
    have hrest := ih fun tree' hmem => h tree' (List.mem_cons_of_mem _ hmem)
    rw [operand]
    by_cases hslot : (prop.isText name && index.isNone) = true
    · rw [Bool.and_eq_true, Option.isNone_iff_eq_none] at hslot
      obtain ⟨hprop, rfl⟩ := hslot
      obtain rfl := Value.eq_str_of_isText hprop
      exact absurd List.mem_cons_self (h tree)
    · simp [hslot, hrest]

/-- A child that a field holds directly gives the operand of that name. -/
theorem operand_of_isChild {node child : Value} {children : List (Slot × Value)} {name : String}
    (hchildren : a.children? node = some children) (hslots : (children.map Prod.fst).Nodup)
    (h : a.IsChild node ⟨.str name, none⟩ child) :
    operand selected name (a.view node).children = eval selected (a.view child) := by
  rw [Adapter.children_view hchildren]
  refine operand_of_mem ?_ ?_
  · rw [List.map_map]
    exact hslots
  · have hchild := (Adapter.mem_children?_iff hchildren).mpr h
    exact List.mem_map_of_mem (f := fun child : Slot × Value => (child.1, a.view child.2)) hchild

/-- If no field of that name holds a child directly, there is no operand. -/
theorem operand_of_not_isChild {node : Value} {children : List (Slot × Value)} {name : String}
    (hchildren : a.children? node = some children)
    (h : ∀ child, ¬a.IsChild node ⟨.str name, none⟩ child) :
    operand selected name (a.view node).children = none := by
  rw [Adapter.children_view hchildren]
  refine operand_of_not_mem ?_
  intro tree hmem
  obtain ⟨⟨slot, child⟩, hchild, heq⟩ := List.mem_map.mp hmem
  obtain ⟨rfl, -⟩ := Prod.mk.inj heq
  exact h child ((Adapter.mem_children?_iff hchildren).mp hchild)

variable (selected) in
/-- The results of the children are what the fields contribute, given the values of the
    children. -/
theorem exists_results_eq {node : Value} {fields : List (Value × Value)}
    {children : List (Slot × Value)} (hfields : a.fields? node = some fields)
    (hchildren : a.children? node = some children)
    (hseparate : fields.Pairwise fun field later => field.1.sameKey later.1 = false) :
    ∃ result : Slot → Option Number,
      (∀ child ∈ children, result child.1 = eval selected (a.view child.2)) ∧
        results selected (a.view node).children = fields.filterMap (a.contribution result) := by
  obtain ⟨result, hresult, hvisits⟩ := Children.exists_ofVisits_eq hfields hchildren hseparate
    fun child => eval selected (a.view child)
  refine ⟨result, hresult, ?_⟩
  rw [← hvisits, results, Adapter.children_view hchildren, List.map_map]
  rfl

/-- Only a field with a sequence of nodes in it has a sequence of results. -/
theorem exists_index_of_get?_results {node : Value} {name : String}
    (hseparate : ∀ fields, a.fields? node = some fields →
      fields.Pairwise fun field later => field.1.sameKey later.1 = false)
    (hreads : a.reads node = true) {found : List (Nat × Option Number)}
    (h : (results selected (a.view node).children).get? name = some (.sequence found)) :
    ∃ i child, a.IsChild node ⟨.str name, some i⟩ child := by
  cases hchildren : a.children? node with
  | none =>
    have hsealed := (Adapter.children?_eq_none_iff a node).mp hchildren
    rw [hreads] at hsealed
    cases hsealed
  | some children =>
    obtain ⟨fields, hfields, -⟩ := Option.map_eq_some_iff.mp hchildren
    obtain ⟨result, -, hfound⟩ :=
      exists_results_eq selected hfields hchildren (hseparate fields hfields)
    rw [hfound, Children.get?_contributions result name (hseparate fields hfields)] at h
    obtain ⟨⟨key, value⟩, hfield, hcontribution⟩ := Option.bind_eq_some_iff.mp h
    -- The sequence comes from the field of that name, which holds a group with a node in it.
    obtain ⟨rfl, hmem⟩ := Value.of_find?_isText hfield
    obtain ⟨shape, items, rfl, hshape, hpositions⟩ :=
      Adapter.exists_items_of_contribution hcontribution
    obtain ⟨i, hi⟩ := List.exists_mem_of_ne_nil _ hpositions
    obtain ⟨-, hitem⟩ := List.mem_filter.mp hi
    obtain ⟨child, hchild, hnode⟩ := (Option.any_eq_true _ _).mp hitem
    exact ⟨i, child, hnode, fields, _, hfields, hmem, shape, items, rfl, hshape, hchild⟩

/-- The operand in a field is the single result that is found under its name. -/
theorem operand_eq {node : Value} {fields : List (Value × Value)}
    (hfields : a.fields? node = some fields)
    (hseparate : fields.Pairwise fun field later => field.1.sameKey later.1 = false)
    (name : String) :
    operand selected name (a.view node).children =
      ((results selected (a.view node).children).get? name).bind FieldResult.single? := by
  obtain ⟨children, hchildren⟩ : ∃ children, a.children? node = some children := by
    simp [Adapter.children?, hfields]
  obtain ⟨result, hresult, hfound⟩ :=
    exists_results_eq selected hfields hchildren hseparate
  have hdistinct : (fields.map Prod.fst).Nodup := by
    refine List.pairwise_map.mpr (hseparate.imp ?_)
    intro field later hapart heq
    rw [heq, Value.sameKey_self] at hapart
    cases hapart
  have hslots := Adapter.nodup_slots hchildren fun fields' hfields' => by
    obtain rfl : fields = fields' := by simpa [hfields] using hfields'
    exact hdistinct
  rw [hfound, Children.get?_contributions result name hseparate]
  -- What the operand field holds, if there is such a field.
  cases hfield : fields.find? fun field => field.1.isText name with
  | none =>
    refine operand_of_not_isChild hchildren ?_
    rintro child ⟨-, fields', value, hfields', hvalue, -⟩
    obtain rfl : fields = fields' := by simpa [hfields] using hfields'
    have hnone := List.find?_eq_none.mp hfield _ hvalue
    simp [Value.isText] at hnone
  | some field =>
    obtain ⟨key, value⟩ := field
    obtain ⟨rfl, hmem⟩ := Value.of_find?_isText hfield
    by_cases hnode : a.isNode value = true
    · have hchild : a.IsChild node ⟨.str name, none⟩ value :=
        ⟨hnode, fields, value, hfields, hmem, rfl⟩
      rw [operand_of_isChild hchildren hslots hchild,
        ← hresult _ ((Adapter.mem_children?_iff hchildren).mpr hchild)]
      simp [Adapter.contribution, hnode, FieldResult.single?]
    · have hnone : operand selected name (a.view node).children = none := by
        refine operand_of_not_isChild hchildren ?_
        rintro child ⟨hchild, fields', value', hfields', hvalue', heq⟩
        obtain rfl : fields = fields' := by simpa [hfields] using hfields'
        -- There is only one field of that name, and it does not hold a node.
        have hsame := List.inj_on_of_nodup_map hdistinct hmem hvalue' rfl
        obtain rfl : value = value' := (Prod.mk.inj hsame).2
        obtain rfl : value = child := heq
        exact hnode hchild
      rw [hnone, Option.bind_some, a.single?_contribution result hnode]

/-- With operands that are no sequences the operation is that of their values. -/
theorem combine_eq_compute (op : Operator) (kind location : String)
    {left right : Option (FieldResult Number)} (hleft : ∀ results, left ≠ some (.sequence results))
    (hright : ∀ results, right ≠ some (.sequence results)) :
    combine op kind location left right =
      compute op kind location (left.bind FieldResult.single?)
        (right.bind FieldResult.single?) := by
  -- An operand is missing, a value or a sequence, and sequences are out of the question.
  cases left with
  | none => rfl
  | some left =>
    cases left with
    | sequence results => exact absurd rfl (hleft results)
    | single x =>
      cases right with
      | none => cases x <;> rfl
      | some right =>
        cases right with
        | sequence results => exact absurd rfl (hright results)
        | single y => cases x <;> cases y <;> rfl

/-- Whatever an operand field holds, there is a value exactly if both operands have one and the
    operator gives a result for them. -/
theorem toOption_combine (op : Operator) (kind location : String)
    (left right : Option (FieldResult Number)) :
    (combine op kind location left right).toOption =
      (compute op kind location (left.bind FieldResult.single?)
        (right.bind FieldResult.single?)).toOption := by
  -- A sequence has no value as an operand, so neither side has one.
  cases left with
  | none => rfl
  | some left =>
    cases left with
    | sequence results =>
      cases right with
      | none => rfl
      | some right =>
        cases right with
        | sequence results => rfl
        | single y => cases y <;> rfl
    | single x =>
      cases right with
      | none => cases x <;> rfl
      | some right =>
        cases right with
        | sequence results => cases x <;> rfl
        | single y => cases x <;> cases y <;> rfl

/-- What is computed has a value if both operands have one and the operator gives one of these. -/
theorem toOption_compute (op : Operator) (kind location : String) (left right : Option Number) :
    (compute op kind location left right).toOption = match left, right with
      | some x, some y => (op.apply x y).toOption
      | _, _ => none := by
  match left, right with
  | none, _ => rfl
  | some _, none => rfl
  | some x, some y =>
    show ((op.apply x y).mapError Error.arithmetic).toOption = (op.apply x y).toOption
    cases op.apply x y <;> rfl

/-- The value of an expression is what its step makes of the results that it finds. -/
theorem eval_eq_combine {node : Value} {kind : Option String} {trees : List (Slot × Tree)}
    (hview : a.view node = .node node kind trees)
    (hseparate : ∀ fields, a.fields? node = some fields →
      fields.Pairwise fun field later => field.1.sameKey later.1 = false)
    {op : Operator} (hrole : role selected kind node = .binary op) (name location : String) :
    eval selected (.node node kind trees) =
      (combine op name location ((results selected trees).get? "left")
        ((results selected trees).get? "right")).toOption := by
  obtain ⟨-, -, children, hchildren, -⟩ := Adapter.of_view_eq_node hview
  obtain ⟨fields, hfields, -⟩ := Option.map_eq_some_iff.mp hchildren
  have hoperand : ∀ side, operand selected side (a.view node).children = _ :=
    operand_eq hfields (hseparate fields hfields)
  rw [hview] at hoperand
  simp only [Tree.children] at hoperand
  rw [toOption_combine, ← hoperand, ← hoperand, toOption_compute, eval, hrole]

/-- What is due at an expression is its value, if it has one. -/
theorem toOption_due {stop : Stop} {d : Except Error Number} (h : due selected a stop = some d)
    (hreads : a.reads stop.node = true) : d.toOption = valueOf selected a stop.node := by
  unfold due at h
  cases hrole : role selected (a.kindOf stop.node) stop.node with
  | literal number => simp [hrole] at h
  | other => simp [hrole] at h
  | binary op =>
    simp only [hrole, Option.some.injEq] at h
    rw [← h, toOption_compute]
    -- The node can be read, so its tree is not sealed.
    cases hview : a.view stop.node with
    | «sealed» value =>
      rw [Adapter.reads_of_view_eq_sealed hview] at hreads
      cases hreads
    | node value kind trees =>
      obtain ⟨rfl, rfl, -⟩ := Adapter.of_view_eq_node hview
      rw [valueOf, hview, eval, hrole]
      rfl

/-- An operand field holds one node or none, but no sequence of nodes. -/
def DirectOperands (selected : List Operator) (a : Adapter) (root : Value) : Prop :=
  ∀ path node op slot child, a.Reaches root path node →
    role selected (a.kindOf node) node = .binary op → a.IsChild node slot child →
      slot.prop = .str "left" ∨ slot.prop = .str "right" → slot.index = none

/-- If its operands are no sequences, what the step makes of the results that it finds is what
    is due. -/
theorem report_eq_due {root : Value} {stop : Stop} (hreach : a.Reaches root stop.path stop.node)
    (hreads : a.reads stop.node = true) (hseparate : a.SeparateBelow root)
    (hdirect : DirectOperands selected a root) : report selected a stop = due selected a stop := by
  unfold report due
  cases hrole : role selected (a.kindOf stop.node) stop.node with
  | literal number => rfl
  | other => rfl
  | binary op =>
    have hnames : ∀ fields, a.fields? stop.node = some fields →
        fields.Pairwise fun field later => field.1.sameKey later.1 = false :=
      fun _ hfields => hseparate _ _ _ hreach hfields
    -- The operands are single, as no child of these fields has a position.
    have hsingle : ∀ name found, name = "left" ∨ name = "right" →
        (results selected (a.view stop.node).children).get? name ≠ some (.sequence found) := by
      intro name found hname h
      obtain ⟨i, child, hchild⟩ := exists_index_of_get?_results hnames hreads h
      have hindex := hdirect _ _ _ _ _ hreach hrole hchild
        (hname.imp (congrArg Value.str) (congrArg Value.str))
      cases hindex
    obtain ⟨children, hchildren⟩ : ∃ children, a.children? stop.node = some children := by
      cases hchildren : a.children? stop.node with
      | some children => exact ⟨children, rfl⟩
      | none => simp [(Adapter.children?_eq_none_iff a stop.node).mp hchildren] at hreads
    obtain ⟨fields, hfields, -⟩ := Option.map_eq_some_iff.mp hchildren
    simp only [Option.some.injEq]
    rw [combine_eq_compute op _ _ (fun found => hsingle _ found (.inl rfl))
      (fun found => hsingle _ found (.inr rfl)),
      ← operand_eq hfields (hnames fields hfields), ← operand_eq hfields (hnames fields hfields)]

end Folding

end

end TreeWalk
