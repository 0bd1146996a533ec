import TreeWalk.Proofs.ChildResults
import TreeWalk.Proofs.Documents
import TreeWalk.Proofs.LogLines
import TreeWalk.Proofs.Preorder
import TreeWalk.Proofs.Tallies

/-! # Steps that gather

The steps that look at nothing but kinds do one of two things.  Some build the result of a
node from its kind and the results of its children, so that a walk computes a fold of the
tree; counting kinds and measuring the depth are such folds.  Another one hands a list down
and appends to it at every node, so that a walk leaves the nodes in the list in pre-order.

## Key results

* `Walker.visit_gathers` says that the walk of a step that gathers is a fold of the tree.
* `Adapter.fold_tally` and `Tree.fold_depth` say what the folds for counting and measuring are
  in terms of the nodes in pre-order.
* `Walker.visit_collectKinds` is the walk that lists kinds.
-/

namespace TreeWalk

variable {σ ε α β : Type}

/-! ## Walks without a log -/

namespace Walker

variable {w : Walker σ ε α} {value : Value} {acc : Option α} {path : List PathEntry} {own own' : σ}

/-- Without a logger nothing is logged. -/
private theorem logEntry_silent (hlogger : w.logger = none) (kind : Option String)
    (s : WalkState σ) : w.logEntry kind s = .ok () s := by
  unfold logEntry log
  rw [hlogger]
  rfl

/-- Without a logger, a call of the step is its start. -/
private theorem call_of_start {started : Started σ ε α}
    (hstart : w.step.start value acc { path, adapter := some w.adapter } own =
      .ok started own') : w.call value acc ⟨path, own⟩ = .ok started ⟨path, own'⟩ := by
  have hcontext : w.context ⟨path, own⟩ = .ok { path, adapter := some w.adapter } ⟨path, own⟩ :=
    rfl
  rw [call_eq, bind_of_ok hcontext]
  unfold Walk.ofStep
  rw [hstart]

/-- A node whose step finishes at once has that result, once its children have been visited. -/
theorem visit_eq_of_finished {result : Option α} (hlogger : w.logger = none)
    (hstart : w.step.start value acc { path, adapter := some w.adapter } own =
      .ok (.finished result) own') (kind : Option String) (children : List (Slot × Tree)) :
    w.visit (.node value kind children) acc ⟨path, own⟩ =
      match w.visitAll value children (result <|> acc) ⟨path, own'⟩ with
      | .ok _ s => .ok result s
      | .error failure s => .error failure s := by
  rw [visit, bind_of_ok (logEntry_silent hlogger kind _), bind_of_ok (call_of_start hstart)]
  show (w.visitAll value children (result <|> acc) >>= fun _ => _) _ = _
  cases hvisits : w.visitAll value children (result <|> acc) ⟨path, own'⟩ with
  | ok visits s => rw [bind_of_ok hvisits]; rfl
  | error failure s => rw [bind_of_error hvisits]

/-- A value whose fields cannot be listed ends the walk, once its step has been started. -/
theorem visit_sealed_eq {started : Started σ ε α} (hlogger : w.logger = none)
    (hstart : w.step.start value acc { path, adapter := some w.adapter } own = .ok started own') :
    w.visit (.sealed value) acc ⟨path, own⟩ = .error (.noFields value.typeName) ⟨path, own'⟩ := by
  rw [visit, bind_of_ok (logEntry_silent hlogger none _), bind_of_ok (call_of_start hstart)]
  rfl

/-- A node whose step suspends has its children visited, and the step is then resumed with their
    results. -/
theorem visit_eq_of_suspended {yielded : Option α}
    {resume : Children α → Context → EStateM ε σ (Resumed σ ε α)} (hlogger : w.logger = none)
    (hstart : w.step.start value acc { path, adapter := some w.adapter } own =
      .ok (.suspended yielded resume) own') (kind : Option String)
    (children : List (Slot × Tree)) :
    w.visit (.node value kind children) acc ⟨path, own⟩ =
      match w.visitAll value children (yielded <|> acc) ⟨path, own'⟩ with
      | .ok visits s => w.resume kind resume (Children.ofVisits visits) s
      | .error failure s => .error failure s := by
  rw [visit, bind_of_ok (logEntry_silent hlogger kind _), bind_of_ok (call_of_start hstart)]
  show (w.visitAll value children (yielded <|> acc) >>= fun visits => _) _ = _
  cases hvisits : w.visitAll value children (yielded <|> acc) ⟨path, own'⟩ with
  | ok visits s => rw [bind_of_ok hvisits]
  | error failure s => rw [bind_of_error hvisits]

section

variable {resume : Children α → Context → EStateM ε σ (Resumed σ ε α)} {children : Children α}
  {s : WalkState σ}

/-- A step that is resumed and finishes gives the result of the visit. -/
theorem resume_of_finished {result : α}
    (hresume : resume children { path := s.path, adapter := some w.adapter } s.own =
      .ok (.finished (some result)) own') (kind : Option String) :
    w.resume kind resume children s = .ok (some result) { s with own := own' } := by
  have hcontext : w.context s = .ok { path := s.path, adapter := some w.adapter } s := rfl
  have hpart : Walk.ofStep (resume children { path := s.path, adapter := some w.adapter }) s =
      .ok (.finished (some result)) { s with own := own' } := by
    unfold Walk.ofStep
    rw [hresume]
  rw [Walker.resume, bind_of_ok hcontext, bind_of_ok hpart]
  rfl

/-- A step that raises when it is resumed ends the visit. -/
theorem resume_of_error {error : ε}
    (hresume : resume children { path := s.path, adapter := some w.adapter } s.own =
      .error error own') (kind : Option String) :
    w.resume kind resume children s = .error (.step error) { s with own := own' } := by
  have hcontext : w.context s = .ok { path := s.path, adapter := some w.adapter } s := rfl
  have hpart : Walk.ofStep (resume children { path := s.path, adapter := some w.adapter }) s =
      .error (.step error) { s with own := own' } := by
    unfold Walk.ofStep
    rw [hresume]
  rw [Walker.resume, bind_of_ok hcontext, bind_of_error hpart]

end

end Walker

/-! ## The results of the children -/

/-- Results listed one by one are those that are located. -/
theorem Children.map_snd_located (parent : Value) (children : Children α) :
    (children.located parent).map Prod.snd = children.all := by
  rw [all, results_eq_flatMap_located _ parent, List.map_eq_flatMap]
  refine List.flatMap_congr ?_
  intro entry _
  exact (listed_eq_singleton fun _ _ _ => rfl).symm

/-- The children of a value with separate field names have distinct places. -/
theorem Adapter.distinctNames_of_separate {a : Adapter} {node : Value}
    (h : ∀ fields, a.fields? node = some fields →
      fields.Pairwise fun field later => field.1.sameKey later.1 = false) :
    a.DistinctNames node := by
  intro fields hfields
  refine List.pairwise_map.mpr ((h fields hfields).imp ?_)
  intro field later hapart heq
  rw [heq, Value.sameKey_self] at hapart
  cases hapart

/-- If the results of the visits depend on the children, they are what the fields contribute,
    given the result of each child by its place. -/
theorem Children.exists_ofVisits_eq {a : Adapter} {node : Value} {children : List (Slot × Value)}
    {fields : List (Value × Value)} (hfields : a.fields? node = some fields)
    (hchildren : a.children? node = some children)
    (hseparate : fields.Pairwise fun field later => field.1.sameKey later.1 = false)
    (f : Value → Option α) :
    ∃ result : Slot → Option α, (∀ child ∈ children, result child.1 = f child.2) ∧
      ofVisits (children.map fun child => (child.1, f child.2)) =
        fields.filterMap (a.contribution result) := by
  have hnames : ∀ fields', a.fields? node = some fields' →
      fields'.Pairwise fun field later => field.1.sameKey later.1 = false := by
    intro fields' hfields'
    obtain rfl : fields = fields' := by simpa [hfields] using hfields'
    exact hseparate
  have hslots := Adapter.nodup_slots hchildren (Adapter.distinctNames_of_separate hnames)
  -- The places are distinct, so the result of a child is one for its place.
  let places : { child // child ∈ children } → Slot := fun child => child.1.1
  have hinjective : Function.Injective places := by
    intro child child' heq
    exact Subtype.ext (List.inj_on_of_nodup_map hslots child.2 child'.2 heq)
  let given : { child // child ∈ children } → Option α := fun child => f child.1.2
  let result : Slot → Option α := Function.extend places given fun _ => none
  have hresult : ∀ child ∈ children, result child.1 = f child.2 := fun child hmem =>
    hinjective.extend_apply given (fun _ => none) ⟨child, hmem⟩
  have hvisits : children.map (fun child => (child.1, f child.2)) =
      (fields.flatMap a.slotsOf).map fun slot => (slot, result slot) := by
    rw [← Adapter.map_fst_children? hfields hchildren, List.map_map]
    exact List.map_congr_left fun child hmem => by rw [← hresult child hmem]; rfl
  refine ⟨result, hresult, ?_⟩
  rw [hvisits, ofVisits_fields a result hseparate]

/-- If the results of the visits depend on the children, the results that a step is resumed
    with are those of the children, in visiting order. -/
theorem Children.all_ofVisits {a : Adapter} {node : Value} {children : List (Slot × Value)}
    (hchildren : a.children? node = some children)
    (hseparate : ∀ fields, a.fields? node = some fields →
      fields.Pairwise fun field later => field.1.sameKey later.1 = false)
    (f : Value → Option α) :
    (ofVisits (children.map fun child => (child.1, f child.2))).all =
      children.map fun child => f child.2 := by
  obtain ⟨fields, hfields, -⟩ := Option.map_eq_some_iff.mp hchildren
  obtain ⟨result, hresult, hvisits⟩ :=
    exists_ofVisits_eq hfields hchildren (hseparate fields hfields) f
  rw [hvisits, ← map_snd_located node, located_contribution, List.map_map,
    ← Adapter.map_fst_children? hfields hchildren, List.map_map]
  exact List.map_congr_left fun child hmem => hresult child hmem

/-! ## Folds -/

namespace Tree

variable (g : Option String → List β → β)

mutual

/-- Builds the value of a tree: that of a node is made by `g` from its kind and the values of
    its children. -/
def fold : Tree → β
  | .node _ kind children => g kind (foldAll children)
  | .sealed _ => g none []

/-- The values of children in order. -/
def foldAll : List (Slot × Tree) → List β
  | [] => []
  | (_, tree) :: rest => tree.fold :: foldAll rest

end

/-- The values of trees side by side are those of the single trees. -/
theorem foldAll_eq (children : List (Slot × Tree)) :
    foldAll g children = children.map fun child => child.2.fold g := by
  induction children with
  | nil => rfl
  | cons child rest ih => rw [foldAll, ih, List.map_cons]

end Tree

/-- A step gathers by `g` if it builds its result from the kind of the node and the results
    of its children, once they all have one. -/
def Step.Gathers (step : Step σ ε α) (g : Option String → List α → α) : Prop :=
  ∃ f : Value → Children α → Context → EStateM ε σ (Option α), step = Step.bottomUp f ∧
    ∀ node children context results, children.all = results.map some →
      f node children context = pure (some (g (context.kindOf node) results))

namespace Walker

variable {a : Adapter} {root : Value} {step : Step σ ε α} {g : Option String → List α → α}

mutual

/-- The visit of a node by a step that gathers has the fold of its tree as result and leaves
    the state alone. -/
theorem visit_gathers (hstep : step.Gathers g) (hseparate : a.SeparateBelow root) :
    ∀ (tree : Tree) (node : Value), a.view node = tree → a.reads node = true →
    ∀ (path : List PathEntry) (acc : Option α) (own : σ), a.Reaches root path node →
      Walker.visit { step, adapter := a } tree acc ⟨path, own⟩ =
        .ok (some (tree.fold g)) ⟨path, own⟩
  | .sealed value, node, hview, hreads, path, acc, own, hreach => by
    rw [Adapter.reads_of_view_eq_sealed hview] at hreads
    cases hreads
  | .node value kind trees, node, hview, hreads, path, acc, own, hreach => by
    obtain ⟨rfl, rfl, children, hchildren, htrees⟩ := Adapter.of_view_eq_node hview
    have hvisits := visitAll_gathers hstep hseparate value trees children htrees
      (fun slot child hmem => (Adapter.mem_children?_iff hchildren).mp hmem) path acc own hreach
    obtain ⟨f, rfl, hf⟩ := hstep
    let w : Walker σ ε α := { step := .bottomUp f, adapter := a }
    have hstart : w.step.start value acc { path, adapter := some a } own =
        .ok (.suspended none fun children context =>
          return .finished (← f value children context)) own := rfl
    have hbelow : w.visitAll value trees (none <|> acc) ⟨path, own⟩ = _ := hvisits
    -- Every child has a result, which is the fold of its tree.
    have hall := Children.all_ofVisits hchildren
      (fun _ hfields => hseparate _ _ _ hreach hfields) fun child => some ((a.view child).fold g)
    have hresults : (Children.ofVisits (children.map fun child =>
        (child.1, some ((a.view child.2).fold g)))).all = (Tree.foldAll g trees).map some := by
      rw [hall, Tree.foldAll_eq, ← htrees, List.map_map, List.map_map]
      rfl
    rw [visit_eq_of_suspended (w := w) rfl hstart, hbelow]
    refine resume_of_finished (w := w) ?_ (a.kindOf value)
    rw [hf _ _ _ _ hresults]
    rfl

/-- The visits of children gather the values of their trees. -/
theorem visitAll_gathers (hstep : step.Gathers g) (hseparate : a.SeparateBelow root)
    (parent : Value) : ∀ (trees : List (Slot × Tree)) (children : List (Slot × Value)),
    children.map (fun child => (child.1, a.view child.2)) = trees →
    (∀ slot child, (slot, child) ∈ children → a.IsChild parent slot child) →
    ∀ (path : List PathEntry) (acc : Option α) (own : σ), a.Reaches root path parent →
      Walker.visitAll { step, adapter := a } parent trees acc ⟨path, own⟩ =
        .ok (children.map fun child => (child.1, some ((a.view child.2).fold g))) ⟨path, own⟩
  | [], children, hview, hchildren, path, acc, own, hreach => by
    obtain rfl := List.map_eq_nil_iff.mp hview
    rw [visitAll]
    rfl
  | (slot, tree) :: trees, children, hview, hchildren, path, acc, own, hreach => by
    obtain ⟨⟨place, child⟩, rest, rfl, hhead, hrest⟩ := List.map_eq_cons_iff.mp hview
    obtain ⟨rfl, rfl⟩ := Prod.mk.inj hhead
    have hchild := hchildren place child List.mem_cons_self
    have hfirst := visit_gathers hstep hseparate (a.view child) child rfl
      (Adapter.reads_of_isNode hchild.1) (path ++ [place.entry parent]) acc own
      (.child hreach hchild)
    have hothers := visitAll_gathers hstep hseparate parent trees rest hrest
      (fun slot child hmem => hchildren slot child (List.mem_cons_of_mem _ hmem)) path acc own
      hreach
    rw [visitAll_cons, hfirst]
    simp only [List.dropLast_concat, hothers]
    rfl

end

end Walker

/-- A walk by a step that gathers gives the fold of the tree, whether the root is a node or a
    value that is only read like one. -/
theorem traverse_gathers_of_reads {step : Step σ ε α} {g : Option String → List α → α}
    (hstep : step.Gathers g) {root : Value} {adapter : Option Adapter} {a : Adapter}
    (ha : adapter.getD (.default root) = a) (hreads : a.reads root = true)
    (hseparate : a.SeparateBelow root) (init : Option α) (own : σ) :
    traverse root step init own adapter = ⟨.ok (some ((a.view root).fold g)), [], own⟩ := by
  subst ha
  rw [traverse_eq]
  exact congrArg Ending.ofVisit
    (Walker.visit_gathers hstep hseparate _ root rfl hreads [] init own .root)

/-- A walk by a step that gathers gives the fold of the tree. -/
theorem traverse_gathers {step : Step σ ε α} {g : Option String → List α → α}
    (hstep : step.Gathers g) {root : Value} {adapter : Option Adapter} {a : Adapter}
    (ha : adapter.getD (.default root) = a) (hnode : a.isNode root = true)
    (hseparate : a.SeparateBelow root) (init : Option α) (own : σ) :
    traverse root step init own adapter = ⟨.ok (some ((a.view root).fold g)), [], own⟩ :=
  traverse_gathers_of_reads hstep ha (Adapter.reads_of_isNode hnode) hseparate init own

/-! ## Counting -/

/-- The tally of a node: it counts itself and takes in the tallies of its children. -/
def Tally.gather (kind : Option String) (tallies : List Tally) : Tally :=
  tallies.foldl Tally.merge (Tally.ofKinds [kind])

/-- The counting of kinds gathers tallies. -/
theorem countKinds_gathers : (countKinds : Step σ ε Tally).Gathers Tally.gather := by
  refine ⟨_, rfl, ?_⟩
  intro node children context results hall
  rw [hall, List.foldl_map]
  rfl

/-- The kinds of stops in order. -/
def Adapter.kindsAt (a : Adapter) (stops : List Stop) : List (Option String) :=
  stops.map fun stop => a.kindOf stop.node

@[simp] theorem Adapter.kindsAt_append (a : Adapter) (stops stops' : List Stop) :
    a.kindsAt (stops ++ stops') = a.kindsAt stops ++ a.kindsAt stops' :=
  List.map_append

mutual

/-- Gathering tallies counts the kinds of the nodes in pre-order. -/
theorem Adapter.fold_tally {a : Adapter} : ∀ (tree : Tree) (node : Value),
    a.view node = tree → a.reads node = true → ∀ (address : List Nat) (path : List PathEntry),
      tree.fold Tally.gather = Tally.ofKinds (a.kindsAt (tree.stops address path))
  | .sealed value, node, hview, hreads, address, path => by
    rw [Adapter.reads_of_view_eq_sealed hview] at hreads
    cases hreads
  | .node value kind trees, node, hview, hreads, address, path => by
    obtain ⟨rfl, rfl, children, hchildren, htrees⟩ := Adapter.of_view_eq_node hview
    obtain ⟨lists, hlists, hflatten⟩ := Adapter.foldAll_tally value trees children htrees
      (fun child hmem => ((Adapter.mem_children?_iff hchildren).mp hmem).1) address path 0
    rw [Tree.fold, Tally.gather, hlists, Tally.foldl_merge_ofKinds, hflatten]
    rfl

/-- The tallies of children count the kinds below each of them. -/
theorem Adapter.foldAll_tally {a : Adapter} (parent : Value) : ∀ (trees : List (Slot × Tree))
    (children : List (Slot × Value)),
    children.map (fun child => (child.1, a.view child.2)) = trees →
    (∀ child ∈ children, a.isNode child.2 = true) →
    ∀ (address : List Nat) (path : List PathEntry) (i : Nat),
      ∃ lists : List (List (Option String)),
        Tree.foldAll Tally.gather trees = lists.map Tally.ofKinds ∧
        lists.flatten = a.kindsAt (Tree.stopsAll address path parent i trees)
  | [], children, hview, hchildren, address, path, i => ⟨[], rfl, rfl⟩
  | (slot, tree) :: trees, children, hview, hchildren, address, path, i => by
    obtain ⟨⟨place, child⟩, rest, rfl, hhead, hrest⟩ := List.map_eq_cons_iff.mp hview
    obtain ⟨rfl, hchild⟩ := Prod.mk.inj hhead
    rw [List.forall_mem_cons] at hchildren
    have hfirst := Adapter.fold_tally tree child hchild (Adapter.reads_of_isNode hchildren.1)
      (address ++ [i])
      (path ++ [place.entry parent])
    obtain ⟨lists, hlists, hflatten⟩ :=
      Adapter.foldAll_tally parent trees rest hrest hchildren.2 address path (i + 1)
    refine ⟨a.kindsAt (tree.stops (address ++ [i]) (path ++ [place.entry parent])) :: lists, ?_, ?_⟩
    · rw [Tree.foldAll, hfirst, hlists]
      rfl
    · rw [List.flatten_cons, hflatten, Tree.stopsAll, Adapter.kindsAt_append]

end

/-! ## Measuring -/

/-- The depth of a node: one more than the greatest of the depths of its children. -/
def gatherDepth (_kind : Option String) (depths : List Nat) : Nat :=
  1 + depths.foldl max 0

/-- The measuring of depths gathers depths. -/
theorem maxDepth_gathers : (maxDepth : Step σ ε Nat).Gathers gatherDepth := by
  refine ⟨_, rfl, ?_⟩
  intro node children context results hall
  rw [hall, List.foldl_map]
  rfl

/-- The greatest of some depths is the first one or the greatest of the others. -/
theorem foldl_max_cons (depth : Nat) (depths : List Nat) :
    (depth :: depths).foldl max 0 = max depth (depths.foldl max 0) := by
  rw [List.foldl_cons, Nat.max_comm 0 depth, List.foldl_assoc]

/-- Some stops below `above` ancestors lie on `depth` levels: one of them on the last level, if
    there is one, and there are at least as many stops as levels. -/
structure Levels (above depth : Nat) (stops : List Stop) : Prop where
  le : ∀ stop ∈ stops, stop.path.length + 1 ≤ above + depth
  exists_eq : 0 < depth → ∃ stop ∈ stops, stop.path.length + 1 = above + depth
  le_length : depth ≤ stops.length

namespace Levels

/-- No places fill no levels. -/
theorem nil (above : Nat) : Levels above 0 [] :=
  ⟨fun _ hstop => absurd hstop List.not_mem_nil, fun h => absurd h (Nat.lt_irrefl 0), Nat.le_refl 0⟩

/-- Stops in two parts lie on the levels of the deeper part. -/
theorem append {above depth depth' : Nat} {stops stops' : List Stop} (h : Levels above depth stops)
    (h' : Levels above depth' stops') : Levels above (max depth depth') (stops ++ stops') := by
  -- The deeper of the two parts has a place at the greatest depth.
  refine ⟨?_, ?_, ?_⟩
  · intro stop hstop
    rcases List.mem_append.mp hstop with hstop | hstop
    · have hle := h.le stop hstop
      omega
    · have hle := h'.le stop hstop
      omega
  · intro hpos
    rcases Nat.le_total depth depth' with hle | hle
    · rw [Nat.max_eq_right hle] at hpos ⊢
      obtain ⟨stop, hstop, heq⟩ := h'.exists_eq hpos
      exact ⟨stop, List.mem_append_right _ hstop, heq⟩
    · rw [Nat.max_eq_left hle] at hpos ⊢
      obtain ⟨stop, hstop, heq⟩ := h.exists_eq hpos
      exact ⟨stop, List.mem_append_left _ hstop, heq⟩
  · have hle := h.le_length
    have hle' := h'.le_length
    rw [List.length_append]
    omega

/-- A stop above all others is on a level of its own. -/
theorem cons {above depth : Nat} {stops : List Stop} {stop : Stop}
    (hstop : stop.path.length = above) (h : Levels (above + 1) depth stops) :
    Levels above (1 + depth) (stop :: stops) := by
  refine ⟨?_, ?_, ?_⟩
  · intro other hother
    rcases List.mem_cons.mp hother with rfl | hother
    · omega
    · have hle := h.le other hother
      omega
  · intro _
    -- If there is nothing below, the stop itself is on the last level.
    rcases Nat.eq_zero_or_pos depth with hzero | hpos
    · exact ⟨stop, List.mem_cons_self, by omega⟩
    · obtain ⟨other, hother, heq⟩ := h.exists_eq hpos
      exact ⟨other, List.mem_cons_of_mem _ hother, by omega⟩
  · have hle := h.le_length
    rw [List.length_cons]
    omega

end Levels

namespace Tree

mutual

/-- The depth of a tree is the number of levels on which its nodes lie. -/
theorem fold_depth : ∀ (tree : Tree) (address : List Nat) (path : List PathEntry),
    Levels path.length (tree.fold gatherDepth) (tree.stops address path)
  | .sealed _, _, path => (Levels.nil (path.length + 1)).cons rfl
  | .node value _ trees, address, path => (foldAll_depth trees address path value 0).cons rfl

/-- The depth of trees side by side is that of the deepest. -/
theorem foldAll_depth : ∀ (trees : List (Slot × Tree)) (address : List Nat)
    (path : List PathEntry) (parent : Value) (i : Nat),
    Levels (path.length + 1) ((foldAll gatherDepth trees).foldl max 0)
      (stopsAll address path parent i trees)
  | [], address, path, parent, i => Levels.nil _
  | (slot, tree) :: trees, address, path, parent, i => by
    have hfirst := fold_depth tree (address ++ [i]) (path ++ [slot.entry parent])
    rw [List.length_append, List.length_singleton] at hfirst
    rw [foldAll, foldl_max_cons, stopsAll]
    exact hfirst.append (foldAll_depth trees address path parent (i + 1))

end

/-- Every tree has a level. -/
theorem fold_depth_pos (tree : Tree) : 0 < tree.fold gatherDepth := by
  cases tree <;> exact Nat.lt_add_right _ Nat.one_pos

end Tree

/-! ## Listing -/

/-- The node of a visit appends its kind, then its children theirs. -/
theorem collectKinds_start (node : Value) (context : Context) (items : List Value) :
    collectKinds.start node (some .listing) context items =
      .ok (.finished (some .listing)) (items ++ [kindItem (context.kindOf node)]) :=
  rfl

namespace Walker

variable {a : Adapter}

mutual

/-- The visit of a node by the step that lists kinds appends the kinds of the nodes in
    pre-order. -/
theorem visit_collectKinds : ∀ (tree : Tree) (node : Value), a.view node = tree →
    a.isNode node = true → ∀ (address : List Nat) (path : List PathEntry) (items : List Value),
      Walker.visit { step := collectKinds, adapter := a } tree (some .listing) ⟨path, items⟩ =
        .ok (some .listing)
          ⟨path, items ++ (a.kindsAt (tree.stops address path)).map kindItem⟩
  | .sealed value, node, hview, hnode, address, path, items => by
    rw [Adapter.isNode_of_view_eq_sealed hview] at hnode
    cases hnode
  | .node value kind trees, node, hview, hnode, address, path, items => by
    obtain ⟨rfl, rfl, children, hchildren, htrees⟩ := Adapter.of_view_eq_node hview
    let w : Walker (List Value) NoListing Collector := { step := collectKinds, adapter := a }
    obtain ⟨visits, hvisits⟩ := visitAll_collectKinds value trees children htrees
      (fun child hmem => ((Adapter.mem_children?_iff hchildren).mp hmem).1) address path 0
      (items ++ [kindItem (a.kindOf value)])
    -- The item of the node itself is appended before those of the nodes below it.
    have hstart : w.step.start value (some .listing) { path, adapter := some a } items =
        .ok (.finished (some .listing)) (items ++ [kindItem (a.kindOf value)]) :=
      collectKinds_start value _ items
    have hbelow : w.visitAll value trees (some .listing <|> some .listing) _ = _ := hvisits
    rw [visit_eq_of_finished (w := w) rfl hstart, hbelow, Tree.stops]
    simp [Adapter.kindsAt]

/-- The visits of children list the kinds of the nodes below them, one child after the other. -/
theorem visitAll_collectKinds (parent : Value) : ∀ (trees : List (Slot × Tree))
    (children : List (Slot × Value)),
    children.map (fun child => (child.1, a.view child.2)) = trees →
    (∀ child ∈ children, a.isNode child.2 = true) →
    ∀ (address : List Nat) (path : List PathEntry) (i : Nat) (items : List Value),
      ∃ visits, Walker.visitAll { step := collectKinds, adapter := a } parent trees
          (some .listing) ⟨path, items⟩ =
        .ok visits ⟨path, items ++
          (a.kindsAt (Tree.stopsAll address path parent i trees)).map kindItem⟩
  | [], children, hview, hchildren, address, path, i, items => by
    refine ⟨[], ?_⟩
    rw [visitAll, Tree.stopsAll, Adapter.kindsAt, List.map_nil, List.map_nil, List.append_nil]
    rfl
  | (slot, tree) :: trees, children, hview, hchildren, address, path, i, items => by
    obtain ⟨⟨place, child⟩, rest, rfl, hhead, hrest⟩ := List.map_eq_cons_iff.mp hview
    obtain ⟨rfl, hchild⟩ := Prod.mk.inj hhead
    rw [List.forall_mem_cons] at hchildren
    have hfirst := visit_collectKinds tree child hchild hchildren.1 (address ++ [i])
      (path ++ [place.entry parent]) items
    obtain ⟨visits, hothers⟩ := visitAll_collectKinds parent trees rest hrest hchildren.2 address
      path (i + 1) (items ++ (a.kindsAt (tree.stops (address ++ [i])
        (path ++ [place.entry parent]))).map kindItem)
    refine ⟨(place, some .listing) :: visits, ?_⟩
    rw [visitAll_cons, hfirst]
    simp only [List.dropLast_concat, hothers]
    rw [Tree.stopsAll, Adapter.kindsAt_append, List.map_append, List.append_assoc]

end

end Walker

/-- A walk that lists kinds appends those of the nodes in pre-order to the list that it
    starts from, whether it is logged or not. -/
theorem listKinds_eq {root : Value} {adapter : Option Adapter} {a : Adapter}
    (ha : adapter.getD (.default root) = a) (hnode : a.isNode root = true) (items : List Value)
    (verbosity : Option VerbositySetting) :
    let ending := listKinds root (.list items) adapter verbosity
    ending.outcome = .ok (some .listing) ∧
      ending.own.own = items ++ (a.kindsAt (a.stops root)).map kindItem := by
  intro ending
  -- The log changes nothing of what is listed, so the walk without one is computed.
  have hwalk : traverse root collectKinds (some .listing) items adapter none =
      ⟨.ok (some .listing), [], items ++ (a.kindsAt (a.stops root)).map kindItem⟩ := by
    subst ha
    rw [traverse_eq]
    exact congrArg Ending.ofVisit
      (Walker.visit_collectKinds _ root rfl hnode [] [] items)
  obtain ⟨houtcome, hown⟩ :=
    traverseLogged_eq root collectKinds (some .listing) items adapter verbosity
  rw [hwalk] at houtcome hown
  exact ⟨houtcome, hown⟩

end TreeWalk
