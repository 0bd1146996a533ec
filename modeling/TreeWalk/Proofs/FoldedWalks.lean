import TreeWalk.Proofs.Evaluation

/-! # Walks that fold

A walk leaves the nodes of a tree in post-order.  At each expression with a selected operator
something is due: its value, or the reason why it has none.  The walk reports the values until
something else is due, and this breaks it off.

## Key results

* `Walker.visit_fold` says what a visit reports and how it ends, for every tree.
* `traverse_fold` says so of whole walks in terms of the values of the expressions. -/

namespace TreeWalk

/-! ## What is reported -/

namespace Folding

/-- The values that are reported when some things are due one after the other, and how it ends:
    the first thing that is no value breaks it off. -/
def announce : List (Except Error Number) → List Number × Except Error Unit
  | [] => ([], .ok ())
  | .ok value :: rest => (value :: (announce rest).1, (announce rest).2)
  | .error error :: _ => ([], .error error)

/-- What is due later is reported if nothing before it broke off. -/
theorem announce_append (first later : List (Except Error Number)) :
    announce (first ++ later) = match (announce first).2 with
      | .ok () => ((announce first).1 ++ (announce later).1, (announce later).2)
      | .error error => ((announce first).1, .error error) := by
  induction first with
  | nil => rfl
  | cons d rest ih =>
    cases d with
    | error error => rfl
    | ok value =>
      simp only [List.cons_append, announce, ih]
      cases (announce rest).2 <;> rfl

/-- Values that are due are all reported. -/
theorem announce_values (values : List Number) : announce (values.map .ok) = (values, .ok ()) := by
  induction values with
  | nil => rfl
  | cons value rest ih => simp [announce, ih]

/-- Either everything that is due at some places is a value, or there is a first place where
    something else is due. -/
theorem announced_or_error {ι ε : Type} (due : ι → Option (Except ε Number)) (places : List ι) :
    (∃ values : List Number, places.filterMap due = values.map .ok) ∨
      ∃ before place after error, ∃ values : List Number, places = before ++ place :: after ∧
        before.filterMap due = values.map .ok ∧ due place = some (.error error) := by
  -- The induction is on the places; the first of them decides unless nothing else than a value is
  -- due there.
  induction places with
  | nil => exact .inl ⟨[], rfl⟩
  | cons place rest ih =>
    match hdue : due place with
    | some (.error error) => exact .inr ⟨[], place, rest, error, [], rfl, rfl, hdue⟩
    | none =>
      rcases ih with ⟨values, hvalues⟩ | ⟨before, last, after, error, values, rfl, hvalues, herror⟩
      · refine .inl ⟨values, ?_⟩
        rw [List.filterMap_cons_none hdue, hvalues]
      · refine .inr ⟨place :: before, last, after, error, values, rfl, ?_, herror⟩
        rw [List.filterMap_cons_none hdue, hvalues]
    | some (.ok value) =>
      rcases ih with ⟨values, hvalues⟩ | ⟨before, last, after, error, values, rfl, hvalues, herror⟩
      · refine .inl ⟨value :: values, ?_⟩
        rw [List.filterMap_cons_some hdue, hvalues, List.map_cons]
      · refine .inr ⟨place :: before, last, after, error, value :: values, rfl, ?_, herror⟩
        rw [List.filterMap_cons_some hdue, hvalues, List.map_cons]

/-- What is due after an error is not reported. -/
theorem announce_error (values : List Number) (error : Error) (rest : List (Except Error Number)) :
    announce (values.map .ok ++ .error error :: rest) = (values, .error error) := by
  rw [announce_append, announce_values]
  simp [announce]

end Folding

/-! ## The walk -/

namespace Folding

/-- What the step does when it is resumed at an expression. -/
def finish (op : Operator) (kind : Option String) (children : Children Number)
    (context : Context) :
    EStateM Error (List Number) (Resumed (List Number) Error Number) :=
  match combine op (kind.getD "None") context.describe (children.get? "left")
      (children.get? "right") with
  | .error error => throw error
  | .ok value => do
    modify (· ++ [value])
    return .finished (some value)

section

variable {selected : List Operator} {node : Value} {acc : Option Number} {context : Context}
  {reported : List Number}

/-- At a literal the step finishes with its value. -/
theorem start_literal {number : Option Number}
    (h : role selected (context.kindOf node) node = .literal number) :
    (step selected).start node acc context reported = .ok (.finished number) reported := by
  unfold Step.start step
  simp only [pure_bind, h]
  rfl

/-- Elsewhere the step finishes without a value. -/
theorem start_other (h : role selected (context.kindOf node) node = .other) :
    (step selected).start node acc context reported = .ok (.finished none) reported := by
  unfold Step.start step
  simp only [pure_bind, h]
  rfl

/-- At an expression with a selected operator the step waits for the values of the operands. -/
theorem start_binary {op : Operator} (h : role selected (context.kindOf node) node = .binary op) :
    (step selected).start node acc context reported =
      .ok (.suspended none (finish op (context.kindOf node))) reported := by
  unfold Step.start step
  simp only [pure_bind, h]
  rfl

variable (reported) in
/-- Operands that do not combine make the step fail, and nothing is reported. -/
theorem finish_of_error {op : Operator} {kind : Option String} {children : Children Number}
    {error : Error}
    (h : combine op (kind.getD "None") context.describe (children.get? "left")
      (children.get? "right") = .error error) :
    finish op kind children context reported = .error error reported := by
  rw [finish, h]
  rfl

variable (reported) in
/-- Operands that combine give the value that the step reports and has as result. -/
theorem finish_of_ok {op : Operator} {kind : Option String} {children : Children Number}
    {value : Number}
    (h : combine op (kind.getD "None") context.describe (children.get? "left")
      (children.get? "right") = .ok value) :
    finish op kind children context reported =
      .ok (.finished (some value)) (reported ++ [value]) := by
  rw [finish, h]
  rfl

end

end Folding

namespace Walker

/-- The walker that folds the selected expressions. -/
def folding (selected : List Operator) (a : Adapter) :
    Walker (List Number) Folding.Error Number :=
  { step := Folding.step selected, adapter := a }

variable {a : Adapter} {root : Value} {selected : List Operator}

/-- The end of a walk at `path` in which some things were due, with its result if nothing broke
    it off. -/
def settled (path : List PathEntry) (reported : List Number)
    (dues : List (Except Folding.Error Number)) (result : β) :
    EStateM.Result (Failure Folding.Error) (WalkState (List Number)) β :=
  match (Folding.announce dues).2 with
  | .ok () => .ok result ⟨path, reported ++ (Folding.announce dues).1⟩
  | .error error => .error (.step error) ⟨path, reported ++ (Folding.announce dues).1⟩

mutual

/-- The visit of a node reports what is due at the nodes below it and at itself, in post-order,
    and has the value of the tree as result. -/
theorem visit_fold (hseparate : a.SeparateBelow root) :
    ∀ (tree : Tree) (node : Value), a.view node = tree → a.reads node = true →
    ∀ (address : List Nat) (path : List PathEntry) (acc : Option Number) (reported : List Number),
      a.Reaches root path node →
      (folding selected a).visit tree acc ⟨path, reported⟩ =
        settled path reported ((tree.exits address path).filterMap (Folding.report selected a))
          (Folding.eval selected tree)
  | .sealed value, node, hview, hreads, address, path, acc, reported, hreach => by
    rw [Adapter.reads_of_view_eq_sealed hview] at hreads
    cases hreads
  | .node value kind trees, node, hview, hreads, address, path, acc, reported, hreach => by
    obtain ⟨rfl, rfl, children, hchildren, htrees⟩ := Adapter.of_view_eq_node hview
    have hbelow := fun acc => visitAll_fold hseparate value trees children htrees
      (fun slot child hmem => (Adapter.mem_children?_iff hchildren).mp hmem) address path 0 acc
      reported hreach
    rw [Tree.exits, List.filterMap_append]
    -- What is due below the node comes first, whatever the step makes of the node itself.
    generalize (Tree.exitsAll address path value 0 trees).filterMap
      (Folding.report selected a) = dues at hbelow ⊢
    cases hrole : Folding.role selected (a.kindOf value) value with
    | literal number =>
      have hstart : (folding selected a).step.start value acc { path, adapter := some a } reported =
          .ok (.finished number) reported := Folding.start_literal hrole
      rw [visit_eq_of_finished rfl hstart, hbelow, Folding.eval, hrole]
      simp only [List.filterMap_cons, List.filterMap_nil, Folding.report, hrole, List.append_nil]
      unfold settled
      cases (Folding.announce dues).2 <;> rfl
    | other =>
      have hstart : (folding selected a).step.start value acc { path, adapter := some a } reported =
          .ok (.finished none) reported := Folding.start_other hrole
      rw [visit_eq_of_finished rfl hstart, hbelow, Folding.eval, hrole]
      simp only [List.filterMap_cons, List.filterMap_nil, Folding.report, hrole, List.append_nil]
      unfold settled
      cases (Folding.announce dues).2 <;> rfl
    | binary op =>
      have hstart : (folding selected a).step.start value acc { path, adapter := some a } reported =
          .ok (.suspended none (Folding.finish op (a.kindOf value))) reported :=
        Folding.start_binary hrole
      -- The step finds the values of the children, which are those of their trees.
      have heval := Folding.eval_eq_combine hview (fun _ hfields => hseparate _ _ _ hreach hfields)
        hrole ((a.kindOf value).getD "None") (a.location path)
      rw [visit_eq_of_suspended rfl hstart, hbelow, settled, settled, Folding.announce_append,
        heval]
      simp only [List.filterMap_cons, List.filterMap_nil, Folding.report, hrole, hview,
        Tree.children]
      cases (Folding.announce dues).2 with
      | error error => rfl
      | ok _ =>
        let s : WalkState (List Number) := ⟨path, reported ++ (Folding.announce dues).1⟩
        cases hcombine : Folding.combine op ((a.kindOf value).getD "None") (a.location path)
            ((Folding.results selected trees).get? "left")
            ((Folding.results selected trees).get? "right") with
        | error error =>
          have hfailed := resume_of_error (w := folding selected a)
            (Folding.finish_of_error s.own hcombine) (a.kindOf value)
          simp only [Folding.announce, List.append_nil]
          exact hfailed
        | ok result =>
          have hfinished := resume_of_finished (w := folding selected a)
            (Folding.finish_of_ok s.own hcombine) (a.kindOf value)
          simp only [Folding.announce, ← List.append_assoc]
          exact hfinished

/-- The visits of children report what is due below one child after the other, and have the values
    of the trees as results. -/
theorem visitAll_fold (hseparate : a.SeparateBelow root)
    (parent : Value) : ∀ (trees : List (Slot × Tree)) (children : List (Slot × Value)),
    children.map (fun child => (child.1, a.view child.2)) = trees →
    (∀ slot child, (slot, child) ∈ children → a.IsChild parent slot child) →
    ∀ (address : List Nat) (path : List PathEntry) (i : Nat) (acc : Option Number)
      (reported : List Number), a.Reaches root path parent →
      (folding selected a).visitAll parent trees acc ⟨path, reported⟩ =
        settled path reported
          ((Tree.exitsAll address path parent i trees).filterMap (Folding.report selected a))
          (trees.map fun child => (child.1, Folding.eval selected child.2))
  | [], children, hview, hchildren, address, path, i, acc, reported, hreach => by
    rw [visitAll, Tree.exitsAll]
    simp [settled, Folding.announce]
    rfl
  | (slot, tree) :: trees, children, hview, hchildren, address, path, i, acc, reported, hreach => by
    obtain ⟨⟨place, child⟩, rest, rfl, hhead, hrest⟩ := List.map_eq_cons_iff.mp hview
    obtain ⟨rfl, rfl⟩ := Prod.mk.inj hhead
    have hchild := hchildren place child List.mem_cons_self
    have hfirst := visit_fold hseparate (a.view child) child rfl
      (Adapter.reads_of_isNode hchild.1) (address ++ [i]) (path ++ [place.entry parent]) acc
      reported (.child hreach hchild)
    have hothers := fun reported => visitAll_fold hseparate parent trees rest hrest
      (fun slot child hmem => hchildren slot child (List.mem_cons_of_mem _ hmem)) address path
      (i + 1) acc reported hreach
    rw [visitAll_cons, hfirst, Tree.exitsAll, List.filterMap_append, settled, settled,
      Folding.announce_append]
    cases (Folding.announce (((a.view child).exits (address ++ [i])
        (path ++ [place.entry parent])).filterMap (Folding.report selected a))).2 with
    | error error => simp
    | ok _ =>
      simp only [List.dropLast_concat, hothers, settled, List.append_assoc]
      generalize (Tree.exitsAll address path parent (i + 1) trees).filterMap
        (Folding.report selected a) = dues
      cases (Folding.announce dues).2 <;> rfl

end

end Walker

/-- A walk that folds reports what its step makes of the results that it finds, in post-order,
    and ends at the first that is no value. -/
theorem traverse_fold_settled {root : Value} {adapter : Option Adapter} {a : Adapter}
    (ha : adapter.getD (.default root) = a) (hreads : a.reads root = true)
    (hseparate : a.SeparateBelow root) (selected : List Operator) (init : Option Number)
    (reported : List Number) :
    traverse root (Folding.step selected) init reported adapter =
      Ending.ofVisit (Walker.settled [] reported
        ((a.exits root).filterMap (Folding.report selected a))
        (Folding.valueOf selected a root)) := by
  subst ha
  rw [traverse_eq]
  exact congrArg Ending.ofVisit
    (Walker.visit_fold hseparate _ root rfl hreads [] [] init reported .root)

/-- A walk that folds leaves every node that it reaches once, in post-order, and at each
    expression with a selected operator the value of the expression is due, or an error if it has
    none.  If all of them have a value, the walk reports these values and has that of the root as
    its result.  Otherwise it fails with the first error, and the values before it have been
    reported. -/
theorem traverse_fold (root : Value) (adapter : Option Adapter) (selected : List Operator)
    (init : Option Number) (reported : List Number) :
    let a := adapter.getD (.default root)
    let due := Folding.due selected a
    let ending := traverse root (Folding.step selected) init reported adapter
    a.isNode root = true → a.SeparateBelow root → Folding.DirectOperands selected a root →
      ((∃ values, (a.exits root).filterMap due = values.map .ok ∧
          ending = ⟨.ok (Folding.valueOf selected a root), [], reported ++ values⟩) ∨
        ∃ before stop after error values, a.exits root = before ++ stop :: after ∧
          before.filterMap due = values.map .ok ∧ due stop = some (.error error) ∧
          ending = ⟨.error (.step error), [], reported ++ values⟩) ∧
      (∀ stop ∈ a.exits root, ∀ d, due stop = some d →
        d.toOption = Folding.valueOf selected a stop.node) ∧
      (∀ path node, (∃ stop ∈ a.exits root, stop.position = (path, node)) ↔
        a.Reaches root path node) ∧
      ((a.exits root).map Stop.address).Nodup := by
  intro a due ending hnode hseparate hdirect
  have hreads : ∀ stop ∈ a.exits root, a.reads stop.node = true := by
    intro stop hstop
    exact ((a.exists_exit_iff root _ _).mp ⟨stop, hstop, rfl⟩).reads (Adapter.reads_of_isNode hnode)
  -- What the step makes of the results is the value of the expression, as operands are direct.
  have hdues : (a.exits root).filterMap (Folding.report selected a) =
      (a.exits root).filterMap due := by
    refine List.filterMap_congr ?_
    intro stop hstop
    exact Folding.report_eq_due ((a.exists_exit_iff root _ _).mp ⟨stop, hstop, rfl⟩)
      (hreads stop hstop) hseparate hdirect
  have hending : ending = Ending.ofVisit (Walker.settled [] reported ((a.exits root).filterMap due)
      (Folding.valueOf selected a root)) := by
    rw [← hdues]
    exact traverse_fold_settled rfl (Adapter.reads_of_isNode hnode) hseparate selected init reported
  refine ⟨?_, fun stop hstop d hd => Folding.toOption_due hd (hreads stop hstop),
    a.exists_exit_iff root, a.nodup_address_exits root⟩
  rcases Folding.announced_or_error due (a.exits root) with
    ⟨values, hvalues⟩ | ⟨before, stop, after, error, values, hsplit, hvalues, herror⟩
  · refine .inl ⟨values, hvalues, ?_⟩
    rw [hending, hvalues, Walker.settled, Folding.announce_values]
    rfl
  · refine .inr ⟨before, stop, after, error, values, hsplit, hvalues, herror, ?_⟩
    have hrest : (a.exits root).filterMap due =
        values.map .ok ++ .error error :: after.filterMap due := by
      rw [hsplit, List.filterMap_append, hvalues, List.filterMap_cons_some herror]
    rw [hending, hrest, Walker.settled, Folding.announce_error]
    rfl

/-- Operands are no sequences if the nodes that a walk leaves show no child of such a field with
    a position. -/
theorem Folding.directOperands_of_exits {a : Adapter} {root : Value} (selected : List Operator)
    (h : ∀ stop ∈ a.exits root, ∀ child ∈ (a.view stop.node).children,
      (child.1.prop.isText "left" || child.1.prop.isText "right") = true →
        child.1.index.isNone = true) : Folding.DirectOperands selected a root := by
  intro path node op slot child hreach _ hchild hname
  -- A node that the walk reaches is one that it leaves, and its children are those of its view.
  obtain ⟨stop, hstop, hposition⟩ := (a.exists_exit_iff root path node).mpr hreach
  obtain ⟨-, rfl⟩ := Prod.mk.inj hposition
  obtain ⟨children, hchildren⟩ : ∃ children, a.children? stop.node = some children := by
    obtain ⟨-, fields, -, hfields, -⟩ := hchild
    simp [Adapter.children?, hfields]
  have hmem : (slot, a.view child) ∈ (a.view stop.node).children := by
    rw [Adapter.children_view hchildren]
    exact List.mem_map_of_mem (f := fun child : Slot × Value => (child.1, a.view child.2))
      ((Adapter.mem_children?_iff hchildren).mpr hchild)
  have hindex := h stop hstop _ hmem
  rcases hname with hname | hname <;> rw [hname] at hindex <;>
    exact Option.isNone_iff_eq_none.mp (hindex (by decide))

/-- The document of `(1 + 2) + 1 / 0`. -/
def sumWithFailure : Value :=
  .dict [(.str "type", .str "BinaryExpression"),
    (.str "left", onePlusTwo),
    (.str "operator", .str "+"),
    (.str "right", .dict [(.str "type", .str "BinaryExpression"),
      (.str "left", .dict [(.str "type", .str "NumericLiteral"), (.str "value", .int 1)]),
      (.str "operator", .str "/"),
      (.str "right", .dict [(.str "type", .str "NumericLiteral"), (.str "value", .int 0)])])]

/-- If all that is due are values, a fold has reported them. -/
theorem Folding.ending_of_dues {values : List Number} {exits : List Stop}
    {due : Stop → Option (Except Folding.Error Number)}
    {ending : Ending (List Number) Folding.Error Number} {result : Option Number}
    (hdues : exits.filterMap due = values.map .ok)
    (h : (∃ values, exits.filterMap due = values.map .ok ∧ ending = ⟨.ok result, [], values⟩) ∨
      ∃ before stop after error values, exits = before ++ stop :: after ∧
        before.filterMap due = values.map .ok ∧ due stop = some (.error error) ∧
        ending = ⟨.error (.step error), [], values⟩) :
    ending = ⟨.ok result, [], values⟩ := by
  rcases h with ⟨others, hvalues, hend⟩ | ⟨before, stop, after, error, others, hsplit, -, herror, -⟩
  · obtain rfl : values = others :=
      List.map_injective_iff.mpr (fun _ _ h => Except.ok.inj h) (hdues.symm.trans hvalues)
    exact hend
  · -- What fails would be due.
    have hmem : Except.error error ∈ exits.filterMap due :=
      List.mem_filterMap.mpr ⟨stop, by rw [hsplit]; simp, herror⟩
    rw [hdues] at hmem
    simp at hmem

/-- Folding `1 + 2` reports the sum and has it as result.  Folding the same sum inside a function
    without a name reports it and has no result.  Folding `(1 + 2) + 1 / 0` reports the inner sum,
    before the division fails. -/
theorem traverse_fold_onePlusTwo :
    (Adapter.tagged.isNode onePlusTwo = true ∧ Adapter.tagged.SeparateBelow onePlusTwo ∧
      Folding.DirectOperands [.plus] .tagged onePlusTwo ∧
      traverse onePlusTwo (Folding.step [.plus]) none [] (some .tagged) =
        ⟨.ok (some (.int 3)), [], [.int 3]⟩) ∧
    (Adapter.source.isNode lambdaSum = true ∧ Adapter.source.SeparateBelow lambdaSum ∧
      Folding.DirectOperands [.plus] .source lambdaSum ∧
      traverse lambdaSum (Folding.step [.plus]) none [] (some .source) =
        ⟨.ok none, [], [.int 3]⟩) ∧
    Adapter.tagged.isNode sumWithFailure = true ∧ Adapter.tagged.SeparateBelow sumWithFailure ∧
      Folding.DirectOperands [.plus, .over] .tagged sumWithFailure ∧
      ∃ error, traverse sumWithFailure (Folding.step [.plus, .over]) none [] (some .tagged) =
        ⟨.error (.step (.arithmetic error)), [], [.int 3]⟩ := by
  have hkeys' : sumWithFailure.SeparateKeys := by
    simp [sumWithFailure, onePlusTwo, Value.SeparateKeys, Value.EveryRecord,
      Value.EveryRecordEntries, Value.sameKey_str]
  have hseparate := Adapter.tagged.separateBelow_of_separateKeys separateKeys_onePlusTwo
  have hseparateSource := Adapter.source.separateBelow_of_separateKeys separateKeys_lambdaSum
  have hseparate' := Adapter.tagged.separateBelow_of_separateKeys hkeys'
  have hdirect : Folding.DirectOperands [.plus] .tagged onePlusTwo :=
    Folding.directOperands_of_exits _ (by decide +kernel)
  have hdirectSource : Folding.DirectOperands [.plus] .source lambdaSum :=
    Folding.directOperands_of_exits _ (by decide +kernel)
  have hdirect' : Folding.DirectOperands [.plus, .over] .tagged sumWithFailure :=
    Folding.directOperands_of_exits _ (by decide +kernel)
  -- What is due at the nodes of each tree is computed; the theorem says what becomes of it.
  have hdues : (Adapter.tagged.exits onePlusTwo).filterMap (Folding.due [.plus] .tagged) =
      [Number.int 3].map .ok := by
    rfl
  have hduesSource : (Adapter.source.exits lambdaSum).filterMap (Folding.due [.plus] .source) =
      [Number.int 3].map .ok := by
    rfl
  have hdues' : (Adapter.tagged.exits sumWithFailure).filterMap
      (Folding.due [.plus, .over] .tagged) =
        [.ok (.int 3), .error (.arithmetic .divisionByZero),
          .error (.notNumeric "BinaryExpression" "<root>")] := by
    rfl
  obtain ⟨hending, -⟩ :=
    traverse_fold onePlusTwo (some .tagged) [.plus] none [] (by decide) hseparate hdirect
  obtain ⟨hendingSource, -⟩ :=
    traverse_fold lambdaSum (some .source) [.plus] none [] (by decide) hseparateSource hdirectSource
  obtain ⟨hending', -⟩ := traverse_fold sumWithFailure (some .tagged) [.plus, .over] none []
    (by decide) hseparate' hdirect'
  simp only [Option.getD_some, List.nil_append] at hending hendingSource hending'
  refine ⟨⟨by decide, hseparate, hdirect, Folding.ending_of_dues hdues hending⟩,
    ⟨by decide, hseparateSource, hdirectSource, Folding.ending_of_dues hduesSource hendingSource⟩,
    by decide, hseparate', hdirect', ?_⟩
  rcases hending' with
    ⟨values, hvalues, -⟩ | ⟨before, stop, after, error, values, hsplit, hvalues, herror, hend⟩
  · have hmem : Except.error (.arithmetic .divisionByZero) ∈
        values.map (Except.ok : Number → Except Folding.Error Number) := by
      rw [← hvalues, hdues']
      simp
    simp at hmem
  · -- The values before the failure and the failure itself are what is due first.
    rw [hsplit, List.filterMap_append, hvalues, List.filterMap_cons_some herror] at hdues'
    cases values with
    | nil => cases hdues'
    | cons value values =>
      obtain ⟨hvalue, hrest⟩ := List.cons.inj hdues'
      cases values with
      | nil =>
        obtain ⟨hfirst, -⟩ := List.cons.inj hrest
        rw [Except.ok.inj hvalue, Except.error.inj hfirst] at hend
        exact ⟨_, hend⟩
      | cons _ _ => cases hrest

end TreeWalk
