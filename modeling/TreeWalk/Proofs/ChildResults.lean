import Mathlib.Data.List.Induction
import TreeWalk.Proofs.Schedule
import TreeWalk.Steps.Kinds

/-! # The results of the children

A step that suspended is resumed with the results of its children, gathered one
visit at a time under the names of the fields.  Here they are described from the
other end, field by field: what a field contributes depends on its value and on the
results of the children it holds, and the fields contribute in their order.

## Key results

* `Children.ofVisits_fields` says that gathering visit by visit gives what the fields
  contribute one by one.
* `Visit.enclosesVisits` says that a step is resumed right after the visits of all its
  children, which begin when it suspends, with what they gave.
* `history_delivered` says what the steps of a whole walk are resumed with.
-/

namespace TreeWalk

variable {σ ε α : Type}

/-! ## What a field contributes -/

namespace Adapter

/-- The positions of the nodes among some items, in ascending order. -/
def positions (a : Adapter) (items : List Value) : List Nat :=
  (List.range items.length).filter fun i => items[i]?.any a.isNode

/-- What a field contributes to the results of the children, given the result of each
    child by its place: a node its result, a list or tuple with nodes in it their
    results by position, and anything else nothing. -/
def contribution (a : Adapter) (result : Slot → Option α) (field : Value × Value) :
    Option (Value × FieldResult α) :=
  if a.isNode field.2 then some (field.1, .single (result ⟨field.1, none⟩))
  else match field.2 with
    | .group .list items | .group .tuple items =>
      if (a.positions items).isEmpty then none
      else some (field.1, .sequence ((a.positions items).map fun i =>
        (i, result ⟨field.1, some i⟩)))
    | _ => none

/-- The places of the children that a field holds. -/
def slotsOf (a : Adapter) (field : Value × Value) : List Slot :=
  (a.held field.2).map fun child => ⟨field.1, child.1⟩

/-- One item more adds its position if it is a node. -/
theorem positions_concat (a : Adapter) (items : List Value) (item : Value) :
    a.positions (items ++ [item]) =
      a.positions items ++ if a.isNode item then [items.length] else [] := by
  unfold positions
  rw [List.length_append, List.length_singleton, List.range_succ, List.filter_append]
  congr 1
  · apply List.filter_congr
    intro i hi
    rw [List.getElem?_append_left (List.mem_range.mp hi)]
  · by_cases h : a.isNode item = true
    · simp [h]
    · simp [h]

/-- The positions at which a list or tuple holds nodes. -/
private theorem map_fst_items (a : Adapter) (items : List Value) :
    (items.zipIdx.filterMap fun (item, i) =>
      if a.isNode item then some ((some i : Option Nat), item) else none).map Prod.fst =
      (a.positions items).map some := by
  induction items using List.reverseRecOn with
  | nil => rfl
  | append_singleton items item ih =>
    rw [positions_concat, List.zipIdx_append, List.filterMap_append, List.map_append, ih,
      List.map_append]
    congr 1
    by_cases h : a.isNode item = true
    · simp [h]
    · simp [h]

/-- The places in a field that holds a list or tuple. -/
theorem slotsOf_group (a : Adapter) (name : Value) {shape : Grouping} (hshape : shape ≠ .set)
    (items : List Value) :
    a.slotsOf (name, .group shape items) = (a.positions items).map fun i => ⟨name, some i⟩ := by
  have hmap := congrArg (List.map fun index => (⟨name, index⟩ : Slot)) (a.map_fst_items items)
  rw [List.map_map, List.map_map] at hmap
  cases shape with
  | list | tuple =>
    simp only [slotsOf, held, isNode_group]
    exact hmap
  | set => exact absurd rfl hshape

/-- The children of a node stand at the places of its fields. -/
theorem map_fst_children? {a : Adapter} {node : Value} {fields : List (Value × Value)}
    {children : List (Slot × Value)} (hfields : a.fields? node = some fields)
    (hchildren : a.children? node = some children) :
    children.map Prod.fst = fields.flatMap a.slotsOf := by
  unfold children? at hchildren
  rw [hfields] at hchildren
  obtain rfl := Option.some.inj hchildren
  rw [List.map_flatMap]
  simp only [List.map_map]
  rfl

end Adapter

/-! ## Gathering the results -/

namespace Children

/-- What is recorded passes over the fields that are none of its own. -/
theorem record_append {children : Children α} (slot : Slot) (result : Option α)
    (h : ∀ field ∈ children, field.1.sameKey slot.prop = false) (rest : Children α) :
    record slot result (children ++ rest) = children ++ record slot result rest := by
  induction children with
  | nil => rfl
  | cons field others ih =>
    have hfield := h field List.mem_cons_self
    have hothers := ih fun other hmem => h other (List.mem_cons_of_mem _ hmem)
    simp only [List.cons_append, record, hfield, Bool.false_eq_true, ↓reduceIte, hothers]

/-- Further results of a sequence go behind those that its field has contributed. -/
private theorem foldl_positions {children : Children α} {name : Value}
    (h : ∀ field ∈ children, field.1.sameKey name = false) (result : Slot → Option α)
    (positions : List Nat) (before : List (Nat × Option α)) :
    (positions.map fun i => (⟨name, some i⟩ : Slot)).foldl
        (fun children slot => record slot (result slot) children)
        (children ++ [(name, .sequence before)]) =
      children ++ [(name, .sequence (before ++ positions.map fun i =>
        (i, result ⟨name, some i⟩)))] := by
  induction positions generalizing before with
  | nil => simp
  | cons i rest ih =>
    rw [List.map_cons, List.foldl_cons, record_append _ _ h]
    simp only [record, Value.sameKey_self, ↓reduceIte, FieldResult.add]
    rw [ih, List.append_assoc, List.map_cons]
    rfl

/-- The visits of the children in one field add what the field contributes. -/
theorem foldl_slotsOf (a : Adapter) {children : Children α} {field : Value × Value}
    (h : ∀ earlier ∈ children, earlier.1.sameKey field.1 = false) (result : Slot → Option α) :
    (a.slotsOf field).foldl (fun children slot => record slot (result slot) children) children =
      children ++ (a.contribution result field).toList := by
  obtain ⟨name, value⟩ := field
  by_cases hnode : a.isNode value = true
  · -- A node is in one slot, without a position.
    have hslots : a.slotsOf (name, value) = [⟨name, none⟩] := by
      simp [Adapter.slotsOf, Adapter.held_of_isNode hnode]
    have hrecord := record_append ⟨name, none⟩ (result ⟨name, none⟩) h []
    rw [List.append_nil] at hrecord
    simp only [hslots, List.foldl_cons, List.foldl_nil, Adapter.contribution, hnode, ↓reduceIte]
    exact hrecord
  · -- The first node of a sequence opens an entry for the field, the others join it.
    have hsequence : ∀ positions : List Nat,
        (positions.map fun i => (⟨name, some i⟩ : Slot)).foldl
            (fun children slot => record slot (result slot) children) children =
          children ++ (if positions.isEmpty then none else
            some (name, FieldResult.sequence (positions.map fun i =>
              (i, result ⟨name, some i⟩)))).toList := by
      intro positions
      cases positions with
      | nil => simp
      | cons i rest =>
        have hrecord := record_append ⟨name, some i⟩ (result ⟨name, some i⟩) h []
        rw [List.append_nil] at hrecord
        rw [List.map_cons, List.foldl_cons, hrecord]
        simp only [record, FieldResult.add]
        rw [foldl_positions h result rest]
        simp
    cases value with
    | group shape items =>
      cases shape with
      | list =>
        rw [Adapter.slotsOf_group a name (by decide), hsequence]
        simp [Adapter.contribution]
      | tuple =>
        rw [Adapter.slotsOf_group a name (by decide), hsequence]
        simp [Adapter.contribution]
      | set => simp [Adapter.slotsOf, Adapter.held, Adapter.contribution]
    | _ => simp [Adapter.slotsOf, Adapter.held, Adapter.contribution, hnode]

/-- A field contributes under its own name. -/
theorem contribution_fst {a : Adapter} {result : Slot → Option α} {field : Value × Value}
    {entry : Value × FieldResult α} (h : a.contribution result field = some entry) :
    entry.1 = field.1 := by
  unfold Adapter.contribution at h
  split at h
  · rw [← Option.some.inj h]
  · split at h
    · obtain ⟨-, h⟩ := Option.ite_none_left_eq_some.mp h
      rw [← Option.some.inj h]
    · obtain ⟨-, h⟩ := Option.ite_none_left_eq_some.mp h
      rw [← Option.some.inj h]
    · cases h

/-- Recording the results field by field adds the contributions of the fields. -/
private theorem foldl_fields (a : Adapter) (result : Slot → Option α)
    {fields : List (Value × Value)}
    (hfields : fields.Pairwise fun field later => field.1.sameKey later.1 = false)
    {children : Children α}
    (h : ∀ earlier ∈ children, ∀ field ∈ fields, earlier.1.sameKey field.1 = false) :
    (fields.flatMap a.slotsOf).foldl
        (fun children slot => record slot (result slot) children) children =
      children ++ fields.filterMap (a.contribution result) := by
  induction fields generalizing children with
  | nil => simp
  | cons field rest ih =>
    obtain ⟨hfield, hrest⟩ := List.pairwise_cons.mp hfields
    rw [List.flatMap_cons, List.foldl_append,
      foldl_slotsOf a fun earlier hmem => h earlier hmem field List.mem_cons_self]
    rw [ih hrest, List.append_assoc]
    · cases hcontribution : a.contribution result field with
      | none => rw [List.filterMap_cons_none hcontribution]; rfl
      | some entry => rw [List.filterMap_cons_some hcontribution]; rfl
    · -- What the field itself has added is apart from the later fields as the field is.
      intro earlier hmem later hlater
      rcases List.mem_append.mp hmem with hmem | hmem
      · exact h earlier hmem later (List.mem_cons_of_mem _ hlater)
      · rw [contribution_fst (Option.mem_toList.mp hmem)]
        exact hfield later hlater

/-- Results gathered visit by visit are what the fields contribute one by one, if no two
    fields are one key. -/
theorem ofVisits_fields (a : Adapter) (result : Slot → Option α) {fields : List (Value × Value)}
    (hfields : fields.Pairwise fun field later => field.1.sameKey later.1 = false) :
    ofVisits ((fields.flatMap a.slotsOf).map fun slot => (slot, result slot)) =
      fields.filterMap (a.contribution result) := by
  unfold ofVisits
  rw [List.foldl_map]
  exact foldl_fields a result hfields fun _ hmem => absurd hmem List.not_mem_nil

/-- The results of the children one by one, each with the last path entry of the child
    that gave it. -/
def located (parent : Value) (children : Children α) : List (PathEntry × Option α) :=
  children.flatMap fun field => match field.2 with
    | .single result => [(Slot.entry ⟨field.1, none⟩ parent, result)]
    | .sequence results =>
      results.map fun entry => (Slot.entry ⟨field.1, some entry.1⟩ parent, entry.2)

/-- What the fields contribute is one result for every place in them. -/
theorem located_contribution (a : Adapter) (result : Slot → Option α) (parent : Value)
    (fields : List (Value × Value)) :
    located parent (fields.filterMap (a.contribution result)) =
      (fields.flatMap a.slotsOf).map fun slot => (slot.entry parent, result slot) := by
  induction fields with
  | nil => rfl
  | cons field rest ih =>
    obtain ⟨name, value⟩ := field
    -- It suffices to look at the first field.
    suffices h : located parent (a.contribution result (name, value)).toList =
        (a.slotsOf (name, value)).map fun slot => (slot.entry parent, result slot) by
      rw [List.flatMap_cons, List.map_append, ← ih, ← h]
      cases hcontribution : a.contribution result (name, value) with
      | none => rw [List.filterMap_cons_none hcontribution]; rfl
      | some entry =>
        rw [List.filterMap_cons_some hcontribution]
        simp [located]
    have hgroup : ∀ shape items, shape ≠ Grouping.set → value = .group shape items →
        a.contribution result (name, value) = (if (a.positions items).isEmpty then none
          else some (name, .sequence ((a.positions items).map fun i =>
            (i, result ⟨name, some i⟩)))) →
        located parent (a.contribution result (name, value)).toList =
          (a.slotsOf (name, value)).map fun slot => (slot.entry parent, result slot) := by
      intro shape items hshape hvalue hcontribution
      rw [hcontribution, hvalue, Adapter.slotsOf_group a name hshape]
      cases a.positions items with
      | nil => rfl
      | cons i rest => simp [located]
    by_cases hnode : a.isNode value = true
    · simp [Adapter.contribution, Adapter.slotsOf, Adapter.held_of_isNode hnode, hnode, located]
    · cases value with
      | group shape items =>
        cases shape with
        | list => exact hgroup .list items (by decide) rfl (by simp [Adapter.contribution])
        | tuple => exact hgroup .tuple items (by decide) rfl (by simp [Adapter.contribution])
        | set => simp [Adapter.slotsOf, Adapter.held, Adapter.contribution, located]
      | _ => simp [Adapter.slotsOf, Adapter.held, Adapter.contribution, hnode, located]

/-- What the result of a child adds to the listing of the results: a result that is made of
    parts is taken apart if the child is held directly, but not in a sequence. -/
def listed {ι : Type} (parts : α → Option (List (Option α))) (index : Option ι)
    (result : Option α) : List (Option α) :=
  match index, result with
  | none, some result => (parts result).getD [some result]
  | _, result => [result]

/-- What is listed of a result does not depend on the position of the child. -/
theorem listed_map {ι κ : Type} (parts : α → Option (List (Option α))) (f : ι → κ)
    (index : Option ι) (result : Option α) :
    listed parts (index.map f) result = listed parts index result := by
  cases index <;> cases result <;> rfl

/-- A result that is not made of parts, or that has a position, is listed as it is. -/
theorem listed_eq_singleton {ι : Type} {parts : α → Option (List (Option α))}
    {index : Option ι} {result : Option α}
    (h : index = none → ∀ r, result = some r → parts r = none) :
    listed parts index result = [result] := by
  cases result with
  | none => cases index <;> rfl
  | some r =>
    cases index with
    | none => simp [listed, h rfl r rfl]
    | some i => rfl

/-- The listing goes through the results of the children one by one. -/
theorem results_eq_flatMap_located (parts : α → Option (List (Option α))) (parent : Value)
    (children : Children α) :
    children.results parts =
      (children.located parent).flatMap fun entry => listed parts entry.1.index entry.2 := by
  unfold results located
  rw [List.flatMap_assoc]
  congr 1
  funext field
  cases field.2 with
  | single result => cases result <;> simp [listed, Slot.entry]
  | sequence results =>
    show results.map Prod.snd = (results.map _).flatMap _
    rw [List.flatMap_map, List.map_eq_flatMap]
    rfl

end Children

/-! ## The visits behind a resumption -/

/-- The result of the visit of a node, as some moments show it: what its call gave if it
    finished, otherwise what its resumption gave. -/
def ResultAt (moments : List (Moment ε α)) (path : List PathEntry) (node : Value)
    (result : Option α) : Prop :=
  (∃ acc, .called node path acc (.finished result) ∈ moments) ∨
    ∃ children value, result = some value ∧
      .resumed node path children (.finished (some value)) ∈ moments

/-- A result that is known stays known. -/
theorem ResultAt.mono {moments more : List (Moment ε α)} {path : List PathEntry} {node : Value}
    {result : Option α} (h : ResultAt moments path node result) (hsub : moments ⊆ more) :
    ResultAt more path node result := by
  rcases h with ⟨acc, hcalled⟩ | ⟨children, value, hvalue, hresumed⟩
  · exact .inl ⟨acc, hsub hcalled⟩
  · exact .inr ⟨children, value, hvalue, hsub hresumed⟩

variable {a : Adapter} {verbosity : Option VerbositySetting}

/-- A visit that ends normally shows its result. -/
theorem Visit.resultAt {path : List PathEntry} {acc result : Option α} {node : Value}
    {moments : List (Moment ε α)} (h : Visit a verbosity path acc node moments (.ok result)) :
    ResultAt moments path node result := by
  -- Only a visit that ended with a value has a result: the step has finished at its call or when it
  -- was resumed.
  generalize hfin : Except.ok result = fin at h
  cases h with
  | failed e => cases hfin
  | sealed answer hanswer hchildren => cases hfin
  | interrupted yielded failure hchildren hinner => cases hfin
  | finished result' hchildren hinner =>
    obtain ⟨visits, -, hresult⟩ := exists_of_map_eq_ok hfin.symm
    refine .inl ⟨acc, ?_⟩
    rw [← hresult]
    exact List.mem_append_right _ List.mem_cons_self
  | @resumed _ _ _ _ _ visits _ _ yielded hchildren hinner hafter =>
    cases hafter with
    | finished value =>
      refine .inr ⟨Children.ofVisits visits, value, Except.ok.inj hfin, ?_⟩
      refine List.mem_append_right _ (List.mem_cons_of_mem _ (List.mem_append_right _ ?_))
      exact List.mem_singleton.mpr rfl
    | failed e => cases hfin
    | missing => cases hfin
    | closeFailed e => cases hfin
    | closed => cases hfin

/-- The visits of children that end normally give one result for every child, in order;
    if the children have different places, the place tells the result. -/
theorem VisitAll.exists_results {path : List PathEntry} {parent : Value} {acc : Option α}
    {children : List (Slot × Value)} {moments : List (Moment ε α)}
    {visits : List (Slot × Option α)}
    (h : VisitAll a verbosity path parent acc children moments (.ok visits))
    (hslots : (children.map Prod.fst).Nodup) :
    ∃ result : Slot → Option α,
      visits = (children.map Prod.fst).map (fun slot => (slot, result slot)) ∧
      ∀ child ∈ children,
        ResultAt moments (path ++ [child.1.entry parent]) child.2 (result child.1) := by
  classical
  induction children generalizing moments visits with
  | nil =>
    cases h with
    | nil => exact ⟨fun _ => none, rfl, fun _ hmem => absurd hmem List.not_mem_nil⟩
  | cons first rest ih =>
    obtain ⟨hfresh, hrest⟩ := List.nodup_cons.mp hslots
    generalize hfin : Except.ok visits = fin at h
    cases h with
    | failed slot child _ hfirst => cases hfin
    | @cons _ _ _ part others value ended slot child _ hfirst hothers =>
      obtain ⟨visits', rfl, rfl⟩ := exists_of_map_eq_ok hfin.symm
      obtain ⟨result, hvisits, hresults⟩ := ih hothers hrest
      -- The place of the first child is none of the others'.
      have hother : ∀ slot' ∈ rest.map Prod.fst, Function.update result slot value slot' =
          result slot' := by
        intro slot' hmem
        refine Function.update_of_ne ?_ _ _
        intro heq
        rw [heq] at hmem
        exact hfresh hmem
      refine ⟨Function.update result slot value, ?_, ?_⟩
      · rw [List.map_cons, List.map_cons, Function.update_self, hvisits]
        congr 1
        exact List.map_congr_left fun slot' hmem => by rw [hother slot' hmem]
      · intro sibling hmem
        rcases List.mem_cons.mp hmem with rfl | hmem
        · rw [Function.update_self]
          exact hfirst.resultAt.mono (List.subset_append_left part others)
        · rw [hother sibling.1 (List.mem_map_of_mem hmem)]
          exact (hresults sibling hmem).mono (List.subset_append_right part others)

/-- What is said of a moment: a step that is resumed suspended when it was called, since then
    all its children have been visited and nothing else has happened, and it is handed what
    their visits gave. -/
def EnclosesVisits (a : Adapter) (verbosity : Option VerbositySetting)
    (past : List (Moment ε α)) : Moment ε α → Prop
  | .resumed node path results _ => ∃ before acc yielded inner children visits,
      past = before ++ .called node path acc (.suspended yielded) :: inner ∧
      a.children? node = some children ∧
      VisitAll a verbosity path node (yielded <|> acc) children inner (.ok visits) ∧
      results = Children.ofVisits visits
  | _ => True

/-- In the second phase of a step only its first moment is a resumption. -/
theorem Resumption.enclosesVisits {path : List PathEntry} {node : Value}
    {children : Children α} {moments past : List (Moment ε α)}
    {fin : Except (Failure ε) (Option α)}
    (h : Resumption a verbosity path node children moments fin)
    (hpast : ∀ reply, EnclosesVisits a verbosity past (.resumed node path children reply)) :
    Throughout (EnclosesVisits a verbosity) past moments := by
  cases h with
  | failed e => exact ⟨hpast _, trivial⟩
  | finished result => exact ⟨hpast _, trivial⟩
  | missing => exact ⟨hpast _, .loggedLines (fun _ _ => trivial) _ _⟩
  | closeFailed e => exact ⟨hpast _, trivial, trivial⟩
  | closed => exact ⟨hpast _, trivial, .loggedLines (fun _ _ => trivial) _ _⟩

mutual

/-- The call and the resumption of a step enclose the visits of its children. -/
theorem Visit.enclosesVisits {path : List PathEntry} {acc : Option α} {node : Value}
    {moments past : List (Moment ε α)} {fin : Except (Failure ε) (Option α)}
    (h : Visit a verbosity path acc node moments fin) :
    Throughout (EnclosesVisits a verbosity) past moments := by
  have hentry : Throughout (EnclosesVisits a verbosity) past
      (entryLines a verbosity path node) := .loggedLines (fun _ _ => trivial) _ _
  match h with
  | .failed e => exact hentry.append ⟨trivial, trivial⟩
  | .sealed answer _ _ => exact hentry.append ⟨trivial, trivial⟩
  | .finished result _ hinner => exact hentry.append ⟨trivial, hinner.enclosesVisits⟩
  | .interrupted yielded failure _ hinner => exact hentry.append ⟨trivial, hinner.enclosesVisits⟩
  | .resumed yielded hchildren hinner hafter =>
    -- The children are visited between the call and the resumption, and nothing follows their
    -- visits.
    refine hentry.append ⟨trivial, hinner.enclosesVisits.append (hafter.enclosesVisits ?_)⟩
    intro reply
    refine ⟨past ++ entryLines a verbosity path node, _, _, _, _, _, ?_, hchildren, hinner, rfl⟩
    rw [List.append_assoc]
    rfl
termination_by structural h

/-- So do the visits of children, one after the other. -/
theorem VisitAll.enclosesVisits {path : List PathEntry} {acc : Option α} {parent : Value}
    {children : List (Slot × Value)} {moments past : List (Moment ε α)}
    {fin : Except (Failure ε) (List (Slot × Option α))}
    (h : VisitAll a verbosity path parent acc children moments fin) :
    Throughout (EnclosesVisits a verbosity) past moments := by
  match h with
  | .nil => trivial
  | .failed slot child rest hfirst => exact hfirst.enclosesVisits
  | .cons slot child rest hfirst hrest =>
    exact hfirst.enclosesVisits.append hrest.enclosesVisits
termination_by structural h

end

/-- What is said of a moment: a step that is resumed has had all its children visited,
    and is handed what their visits gave. -/
def FollowsVisits (a : Adapter) (verbosity : Option VerbositySetting)
    (past : List (Moment ε α)) : Moment ε α → Prop
  | .resumed node path results _ => ∃ acc children inner visits,
      a.children? node = some children ∧
      VisitAll a verbosity path node acc children inner (.ok visits) ∧
      results = Children.ofVisits visits ∧ inner ⊆ past
  | _ => True

/-- Steps are resumed right after the visits of their children. -/
theorem Visit.followsVisits {path : List PathEntry} {acc : Option α} {node : Value}
    {moments past : List (Moment ε α)} {fin : Except (Failure ε) (Option α)}
    (h : Visit a verbosity path acc node moments fin) :
    Throughout (FollowsVisits a verbosity) past moments := by
  refine h.enclosesVisits.imp ?_
  intro past m hm
  -- Nothing is asked of moments other than resumptions.
  cases m with
  | resumed node path results reply =>
    obtain ⟨before, acc, yielded, inner, children, visits, hpast, hchildren, hvisits, hresults⟩ :=
      hm
    refine ⟨_, children, inner, visits, hchildren, hvisits, hresults, ?_⟩
    rw [hpast]
    exact List.subset_append_of_subset_right _ (List.subset_cons_self _ _)
  | logged line => trivial
  | called node path acc answer => trivial
  | closed node path failure => trivial

/-- A visit has one result only, if no turn is taken twice. -/
theorem ResultAt.unique {root : Value} {moments : List (Moment ε α)}
    (hnodup : (taken moments).Nodup) (hplaced : Throughout (Placed a root) [] moments)
    {path : List PathEntry} {node node' : Value} {result result' : Option α}
    (h : ResultAt moments path node result) (h' : ResultAt moments path node' result') :
    result = result' := by
  -- A step that is resumed had suspended, so its call did not finish.
  have hmixed : ∀ {node node' acc children reply} {result : Option α},
      .called node path acc (.finished result) ∈ moments →
      .resumed node' path children reply ∉ moments := by
    intro node node' acc children reply result hcalled hresumed
    obtain ⟨before, after, hmoments⟩ := List.append_of_mem hresumed
    rw [hmoments] at hplaced
    obtain ⟨-, acc', yielded, hsuspended⟩ := hplaced.split
    have hmem : .called node' path acc' (.suspended yielded) ∈ moments := by
      rw [hmoments]
      exact List.mem_append_left _ hsuspended
    have heq := eq_of_turn?_eq hnodup hcalled hmem rfl rfl
    cases (Moment.called.inj heq).2.2.2
  rcases h with ⟨acc, hcalled⟩ | ⟨children, value, hvalue, hresumed⟩
  · rcases h' with ⟨acc', hcalled'⟩ | ⟨children', value', -, hresumed'⟩
    · have heq := eq_of_turn?_eq hnodup hcalled hcalled' rfl rfl
      exact Answer.finished.inj (Moment.called.inj heq).2.2.2
    · exact absurd hresumed' (hmixed hcalled)
  · rcases h' with ⟨acc', hcalled'⟩ | ⟨children', value', hvalue', hresumed'⟩
    · exact absurd hresumed (hmixed hcalled')
    · have heq := eq_of_turn?_eq hnodup hresumed hresumed' rfl rfl
      rw [hvalue, hvalue']
      exact Reply.finished.inj (Moment.resumed.inj heq).2.2.2

/-! ## Whole walks -/

/-- At a node with the given path and past, `children` are what the fields of the node
    contribute, given the results of the visits of its children.  One by one they are the
    results of the visits one level down, one for each of these visits. -/
def Delivered (a : Adapter) (past : List (Moment ε α)) (node : Value) (path : List PathEntry)
    (children : Children α) : Prop :=
  ∃ fields result,
    a.fields? node = some fields ∧
    children = fields.filterMap (a.contribution result) ∧
    (∀ slot child, a.IsChild node slot child →
      ResultAt past (path ++ [slot.entry node]) child (result slot)) ∧
    ((children.located node).map Prod.fst).Nodup ∧
    (∀ entry r, (entry, r) ∈ children.located node ↔
      ∃ child, ResultAt past (path ++ [entry]) child r) ∧
    ∀ entry, entry ∈ (children.located node).map Prod.fst ↔
      ∃ child acc answer, .called child (path ++ [entry]) acc answer ∈ past

/-- Whatever has a result was called. -/
theorem ResultAt.exists_called {root : Value} {moments : List (Moment ε α)}
    (hplaced : Throughout (Placed a root) [] moments) {path : List PathEntry} {node : Value}
    {result : Option α} (h : ResultAt moments path node result) :
    ∃ acc answer, .called node path acc answer ∈ moments := by
  rcases h with ⟨acc, hcalled⟩ | ⟨children, value, -, hresumed⟩
  · exact ⟨acc, _, hcalled⟩
  · obtain ⟨before, after, rfl⟩ := List.append_of_mem hresumed
    obtain ⟨-, acc, yielded, hsuspended⟩ := hplaced.split
    exact ⟨acc, _, List.mem_append_left _ hsuspended⟩

/-- A node that is called one level below another is a child of it. -/
theorem isChild_of_called {root : Value} {moments : List (Moment ε α)}
    (hplaced : Throughout (Placed a root) [] moments) (hkeys : root.DistinctKeys)
    {path : List PathEntry} {node child : Value} {entry : PathEntry} {acc : Option α}
    {answer : Answer ε α} (hnode : a.Reaches root path node)
    (hcalled : .called child (path ++ [entry]) acc answer ∈ moments) :
    ∃ slot, entry = slot.entry node ∧ a.IsChild node slot child := by
  obtain ⟨past, hreach⟩ := hplaced.exists_of_mem hcalled
  obtain ⟨parent, slot, hentry, hparent, hchild⟩ := Adapter.Reaches.exists_parent hreach
  obtain rfl := hparent.unique hnode hkeys
  exact ⟨slot, hentry, hchild⟩

/-- Located at a path entry is the result of the child that stands there. -/
theorem mem_located_iff {node : Value} {fields : List (Value × Value)}
    (hfields : a.fields? node = some fields) (result : Slot → Option α) {entry : PathEntry}
    {r : Option α} :
    (entry, r) ∈ Children.located node (fields.filterMap (a.contribution result)) ↔
      ∃ slot child, a.IsChild node slot child ∧ entry = slot.entry node ∧ r = result slot := by
  obtain ⟨children, hchildren⟩ : ∃ children, a.children? node = some children := by
    simp [Adapter.children?, hfields]
  rw [Children.located_contribution, ← Adapter.map_fst_children? hfields hchildren, List.map_map,
    List.mem_map]
  constructor
  · intro ⟨⟨slot, child⟩, hmem, heq⟩
    obtain ⟨rfl, rfl⟩ := Prod.mk.inj heq
    exact ⟨slot, child, (Adapter.mem_children?_iff hchildren).mp hmem, rfl, rfl⟩
  · intro ⟨slot, child, hchild, hentry, hr⟩
    rw [hentry, hr]
    exact ⟨(slot, child), (Adapter.mem_children?_iff hchildren).mpr hchild, rfl⟩

/-- What follows the visits of all children is delivered by the fields. -/
theorem FollowsVisits.delivered {root : Value} {past : List (Moment ε α)} {node : Value}
    {path : List PathEntry} {results : Children α} {reply : Reply ε α}
    (h : FollowsVisits a verbosity past (.resumed node path results reply))
    (hkeys : root.SeparateKeys) (hreach : a.Reaches root path node)
    (hplaced : Throughout (Placed a root) [] past) (hnodup : (taken past).Nodup) :
    Delivered a past node path results := by
  obtain ⟨acc, children, inner, visits, hchildren, hvisits, hresults, hinner⟩ := h
  obtain ⟨fields, hfields, -⟩ := Option.map_eq_some_iff.mp hchildren
  have hslots := Adapter.nodup_slots hchildren (hreach.distinctNames hkeys.distinctKeys)
  -- The slots are distinct, so each child has one result, by its slot.
  obtain ⟨result, rfl, hresult⟩ := hvisits.exists_results hslots
  have hdelivered : ∀ slot child, a.IsChild node slot child →
      ResultAt past (path ++ [slot.entry node]) child (result slot) := by
    intro slot child hchild
    have hmem := (Adapter.mem_children?_iff hchildren).mpr hchild
    exact (hresult (slot, child) hmem).mono hinner
  have hfst := Adapter.map_fst_children? hfields hchildren
  rw [hfst, Children.ofVisits_fields a result (hreach.separateNames hkeys hfields)] at hresults
  subst hresults
  refine ⟨fields, result, hfields, rfl, hdelivered, ?_, ?_, ?_⟩
  · -- No two results have one entry.
    rw [Children.located_contribution, ← hfst, List.map_map]
    exact hslots.map fun _ _ heq => Slot.entry_inj heq
  · -- The results with their entries are those of the children, as nothing else has been called
    -- there.
    intro entry r
    rw [mem_located_iff hfields]
    constructor
    · intro ⟨slot, child, hchild, hentry, hr⟩
      rw [hentry, hr]
      exact ⟨child, hdelivered slot child hchild⟩
    · intro ⟨child, hr⟩
      obtain ⟨acc', answer, hcalled⟩ := hr.exists_called hplaced
      obtain ⟨slot, rfl, hchild⟩ := isChild_of_called hplaced hkeys.distinctKeys hreach hcalled
      exact ⟨slot, child, hchild, rfl, hr.unique hnodup hplaced (hdelivered slot child hchild)⟩
  · -- An entry is there just if a call was.
    intro entry
    constructor
    · intro hmem
      obtain ⟨⟨_, r⟩, hlocated, rfl⟩ := List.mem_map.mp hmem
      obtain ⟨slot, child, hchild, rfl, -⟩ := (mem_located_iff hfields result).mp hlocated
      obtain ⟨acc', answer, hcalled⟩ := (hdelivered slot child hchild).exists_called hplaced
      exact ⟨child, acc', answer, hcalled⟩
    · intro ⟨child, acc', answer, hcalled⟩
      obtain ⟨slot, rfl, hchild⟩ := isChild_of_called hplaced hkeys.distinctKeys hreach hcalled
      have hlocated := (mem_located_iff hfields result).mpr ⟨slot, child, hchild, rfl, rfl⟩
      exact List.mem_map_of_mem hlocated

/-- In a document with separate keys the results that a step is resumed with are delivered by
    what happened before. -/
theorem Visit.delivered {root : Value} {init : Option α} {moments past after : List (Moment ε α)}
    {fin : Except (Failure ε) (Option α)} {node : Value} {path : List PathEntry}
    {children : Children α} {reply : Reply ε α} (h : Visit a verbosity [] init root moments fin)
    (hplaced : Throughout (Placed a root) [] moments) (hkeys : root.SeparateKeys)
    (hmoments : moments = past ++ .resumed node path children reply :: after) :
    Delivered a past node path children := by
  have hfollows : Throughout _ [] _ := h.followsVisits
  have hnodup := h.nodup_taken hkeys.distinctKeys
  rw [hmoments] at hplaced hfollows hnodup
  -- What holds throughout the walk holds throughout the past of the resumption.
  rw [taken_append] at hnodup
  have hpast : (taken past).Nodup := (List.nodup_append.mp hnodup).1
  exact hfollows.split.delivered hkeys hplaced.split.1 hplaced.left hpast

/-- In a document with separate keys every step that is resumed, also in a walk that
    fails later, is handed exactly the results of the visits of its children: under the
    names of the fields that hold nodes, in their order, a node's own result or the
    results of a list or tuple by position. -/
theorem history_delivered (root : Value) (step : Step σ ε α) (init : Option α) (own : σ)
    (adapter : Option Adapter) (logger : Option (Logger σ)) (hkeys : root.SeparateKeys) :
    ∀ past node path children reply after,
      history root step init own adapter logger =
        past ++ .resumed node path children reply :: after →
      Delivered (adapter.getD (.default root)) past node path children := by
  intro past node path children reply after hmoments
  have hvisit := (visit_history root step init own adapter logger).1
  have hplaced := history_placed root step init own adapter logger
  exact hvisit.delivered hplaced hkeys hmoments

/-- The document of a labelled block: a list with two nodes and a number between them, a
    node, and a list without nodes. -/
def labelledBlock : Value :=
  .dict [(.str "type", .str "Block"),
    (.str "body", .list [.dict [(.str "type", .str "A")], .int 5, .dict [(.str "type", .str "B")]]),
    (.str "label", .dict [(.str "type", .str "Name")]),
    (.str "marks", .list [.int 7])]

/-- What a resumption hands over, every result with the end of its path as text. -/
def Moment.handedOver : Moment ε α → Option (List (String × Option α))
  | .resumed node _ children _ =>
    some ((Children.located node children).map fun entry => (entry.1.describe, entry.2))
  | _ => none

/-- Measuring the depth of a labelled block, its step is resumed with two results for the
    list, at the positions of its nodes, and with one for the label. -/
theorem history_delivered_labelledBlock :
    labelledBlock.SeparateKeys ∧ ∃ past node path children reply after,
      history labelledBlock (maxDepth : Step Unit Unit Nat) none () none none =
          past ++ .resumed node path children reply :: after ∧
        Delivered .tagged past node path children ∧
        (Children.located node children).map (fun entry => (entry.1.describe, entry.2)) =
          [(".body[0]", some 1), (".body[2]", some 1), (".label", some 1)] := by
  have hkeys : labelledBlock.SeparateKeys := by
    simp [labelledBlock, Value.SeparateKeys, Value.EveryRecord, Value.EveryRecordEntries,
      Value.EveryRecordItems, Value.sameKey_str]
  have hany : ∃ m ∈ history labelledBlock (maxDepth : Step Unit Unit Nat) none () none none,
      m.handedOver = some [(".body[0]", some 1), (".body[2]", some 1), (".label", some 1)] := by
    decide +kernel
  obtain ⟨m, hmem, hm⟩ := hany
  obtain ⟨past, after, hmoments⟩ := List.append_of_mem hmem
  -- Only a resumption hands anything over.
  cases m with
  | resumed node path children reply =>
    have hdelivered := history_delivered labelledBlock maxDepth none () none none hkeys past node
      path children reply after hmoments
    exact ⟨hkeys, past, node, path, children, reply, after, hmoments, hdelivered,
      Option.some.inj hm⟩
  | logged line => cases hm
  | called node path acc answer => cases hm
  | closed node path failure => cases hm

end TreeWalk
