import TreeWalk.Proofs.Restyling
import TreeWalk.Proofs.SkippedFields

/-! # Walks through restyled documents

No walk can tell a document from a restyled one if its step sees only kinds, evaluates arithmetic
or collects scopes.  A step of the first two sorts is also left in the same state.  Scopes hold
the nodes that are declared in them, so they are the same but for the style of these nodes.

## Key results

* `Folding.step_agree` and `collectScopes_agree` say that the two steps that look into nodes do
  the same at restyled ones.
* `ScopeStore.Alike` and `ScopeTree.Alike` relate scopes that are the same but for their
  declarations.
* `traverse_restyled` is the result for all shipped steps.
-/

namespace TreeWalk

variable {σ ε α : Type}

/-! ## Arithmetic -/

/-- A fold does the same at nodes that are of the same kind and play the same role. -/
theorem Folding.step_agree (selected : List Operator) (silent : Bool)
    {kind : Value → Option String} {N : Value → Value → Prop}
    (hkind : ∀ node node', N node node' → kind node = kind node')
    (hrole : ∀ node node' kind, N node node' → role selected kind node = role selected kind node') :
    Step.Agree ⟨Eq, Context.Alike kind, N⟩ (step selected silent) (step selected silent) := by
  intro node node' acc c c' hnode hcontext
  have hkinds : c.kindOf node = c'.kindOf node' := hcontext.kindOf_eq (hkind node node' hnode)
  unfold Step.start step
  simp only [pure_bind]
  rw [hkinds, hrole node node' _ hnode]
  cases role selected (c'.kindOf node') node' with
  | literal value => exact .pure (.finished value)
  | other => exact .pure (.finished none)
  | binary op =>
    refine .pure (.suspended none fun children c₁ c₁' hresumed => ?_)
    -- What is reported and what fails depends on the place only by its description.
    rw [Context.Alike.describe hresumed]
    cases combine op ((c'.kindOf node').getD "None") c₁'.describe (children.get? "left")
        (children.get? "right") with
    | error e => exact .throw e
    | ok value =>
      cases silent with
      | true => exact .pure (.finished (some value))
      | false => exact (Agree.of_eq rfl).bind_eq fun _ => .pure (.finished (some value))

/-! ## Stores of scopes -/

section

variable {D : Value → Value → Prop}

/-- Two scopes are alike if they lie in the same scope and have the same scopes in them, and
    their declarations are related one by one. -/
structure Scope.Alike (D : Value → Value → Prop) (scope scope' : Scope) : Prop where
  parent_eq : scope.parent = scope'.parent
  forall₂_declarations : List.Forall₂ D scope.declarations scope'.declarations
  children_eq : scope.children = scope'.children

/-- Two trees of scopes are alike if they have the same shape, and the declarations are related
    one by one. -/
inductive ScopeTree.Alike (D : Value → Value → Prop) : ScopeTree → ScopeTree → Prop where
  | scope {declarations declarations' : List Value} {children children' : List ScopeTree}
      (hdeclarations : List.Forall₂ D declarations declarations')
      (hchildren : List.Forall₂ (Alike D) children children') :
      Alike D (.scope declarations children) (.scope declarations' children')

/-- Two stores are alike if the scopes of the same numbers are. -/
structure ScopeStore.Alike (D : Value → Value → Prop) (store store' : ScopeStore) : Prop where
  size_eq : store.size = store'.size
  rel_scope : ∀ id : Nat, Option.Rel (Scope.Alike D) store[id]? store'[id]?

namespace ScopeStore.Alike

/-- A store is like itself. -/
theorem refl (hrefl : ∀ value, D value value) (store : ScopeStore) : Alike D store store where
  size_eq := rfl
  rel_scope := by
    intro id
    cases store[id]? with
    | none => exact .none
    | some scope => exact .some ⟨rfl, List.forall₂_same.mpr fun value _ => hrefl value, rfl⟩

variable {store store' : ScopeStore} (h : Alike D store store')

include h

/-- Stores stay alike when scopes that are alike are changed to scopes that are alike. -/
theorem modify (id : Nat) {f f' : Scope → Scope}
    (hf : ∀ scope scope', Scope.Alike D scope scope' → Scope.Alike D (f scope) (f' scope')) :
    Alike D (store.modify id f) (store'.modify id f') where
  size_eq := by
    rw [Array.size_modify, Array.size_modify, h.size_eq]
  rel_scope := by
    intro k
    rw [Array.getElem?_modify, Array.getElem?_modify]
    have hscope := h.rel_scope k
    -- Only the scope that is changed is not the old one.
    split
    · generalize store[k]? = found at hscope ⊢
      generalize store'[k]? = found' at hscope ⊢
      cases hscope with
      | none => exact .none
      | some hscope => exact .some (hf _ _ hscope)
    · exact hscope

/-- Stores stay alike when a scope is opened in both. -/
theorem openScope (parent : Option Nat) :
    Alike D (store.openScope parent) (store'.openScope parent) := by
  have hpush : Alike D (store.push { parent }) (store'.push { parent }) := by
    refine ⟨?_, ?_⟩
    · rw [Array.size_push, Array.size_push, h.size_eq]
    · intro k
      rw [Array.getElem?_push, Array.getElem?_push, h.size_eq]
      split
      · exact .some ⟨rfl, .nil, rfl⟩
      · exact h.rel_scope k
  cases parent with
  | none => exact hpush
  | some id =>
    unfold ScopeStore.openScope adopt
    rw [h.size_eq]
    refine hpush.modify id ?_
    intro scope scope' hscope
    exact ⟨hscope.parent_eq, hscope.forall₂_declarations,
      congrArg (· ++ [store'.size]) hscope.children_eq⟩

/-- Stores stay alike when values that are alike are declared in both. -/
theorem declare (id : Nat) {value value' : Value} (hvalue : D value value') :
    Alike D (store.declare id value) (store'.declare id value') := by
  refine h.modify id ?_
  intro scope scope' hscope
  exact ⟨hscope.parent_eq,
    List.rel_append hscope.forall₂_declarations (.cons hvalue .nil), hscope.children_eq⟩

/-- Stores stay alike when lists of values that are alike are declared in both. -/
theorem declareAll (id : Nat) {values values' : List Value}
    (hvalues : List.Forall₂ D values values') :
    Alike D (store.declareAll id values) (store'.declareAll id values') := by
  unfold ScopeStore.declareAll
  induction hvalues generalizing store store' with
  | nil => exact h
  | cons hvalue _ ih => exact ih (h.declare id hvalue)

/-- Stores stay alike when several scopes are opened in both. -/
theorem openMany (scope count : Nat) :
    Alike D (Scopes.openMany scope count store) (Scopes.openMany scope count store') := by
  induction count generalizing store store' with
  | zero => exact h
  | succ count ih =>
    rw [Scopes.openMany_succ, Scopes.openMany_succ]
    exact ih (h.openScope (some scope))

/-- Entering nodes of which the same is to be said opens the same scopes. -/
theorem enter (kind : String) (parentKind : Option String) {node node' : Value}
    (hnode : D node node')
    (hinside : Scopes.declaresInside kind node = Scopes.declaresInside kind node') (scope : Nat) :
    Alike D (Scopes.enter kind parentKind node scope store).1
        (Scopes.enter kind parentKind node' scope store').1 ∧
      (Scopes.enter kind parentKind node scope store).2 =
        (Scopes.enter kind parentKind node' scope store').2 := by
  have hopened := h.openMany scope (Scopes.openings kind parentKind)
  unfold Scopes.enter
  rw [hinside, h.size_eq]
  refine ⟨?_, rfl⟩
  dsimp only
  split
  · exact hopened.declare _ hnode
  · exact hopened

/-- The trees of scopes in stores that are alike are alike. -/
theorem treeTo (fuel id : Nat) :
    ScopeTree.Alike D (store.treeTo fuel id) (store'.treeTo fuel id) := by
  induction fuel generalizing id with
  | zero => exact .scope .nil .nil
  | succ fuel ih =>
    have hscope := h.rel_scope id
    unfold ScopeStore.treeTo
    generalize store[id]? = found at hscope ⊢
    generalize store'[id]? = found' at hscope ⊢
    cases hscope with
    | none => exact .scope .nil .nil
    | @some scope scope' hscope =>
      refine .scope hscope.forall₂_declarations ?_
      rw [hscope.children_eq, List.forall₂_map_left_iff, List.forall₂_map_right_iff,
        List.forall₂_same]
      exact fun child _ => ih child

/-- The trees of stores that are alike are alike. -/
theorem tree (id : Nat) : ScopeTree.Alike D (store.tree id) (store'.tree id) := by
  unfold ScopeStore.tree
  rw [h.size_eq]
  exact h.treeTo store'.size id

end ScopeStore.Alike

/-- Collecting scopes does the same at nodes that are of the same kind, declare related values
    and are named both or neither. -/
theorem collectScopes_agree {kind : Value → Option String} {N : Value → Value → Prop}
    (hD : ∀ node node', N node node' → D node node')
    (hkind : ∀ node node', N node node' → kind node = kind node')
    (hdeclared : ∀ node node', N node node' → ∃ declared declared',
      Scopes.declared ((kind node).getD "") node = .ok declared ∧
      Scopes.declared ((kind node).getD "") node' = .ok declared' ∧
      List.Forall₂ D declared declared')
    (hinside : ∀ node node' kind, N node node' →
      Scopes.declaresInside kind node = Scopes.declaresInside kind node') :
    Step.Agree ⟨ScopeStore.Alike D, Context.Alike kind, N⟩ collectScopes collectScopes := by
  intro node node' acc c c' hnode hcontext
  obtain ⟨declared, declared', hok, hok', hvalues⟩ := hdeclared node node' hnode
  have hkinds : c.kindOf node = kind node := hcontext.left node
  have hkinds' : c'.kindOf node' = kind node :=
    (hcontext.right node').trans (hkind node node' hnode).symm
  have hparent : c.parentKind = c'.parentKind := hcontext.parentKind_eq
  unfold Step.start collectScopes
  simp only [pure_bind, hkinds, hkinds', hok, hok', hparent]
  -- The two steps do the same to their stores: they declare, open scopes and enter one of them.
  intro store store' hstore
  obtain ⟨hentered, hinner⟩ := (ScopeStore.Alike.declareAll hstore (acc.getD 0) hvalues).enter
    ((kind node).getD "") c'.parentKind (hD node node' hnode) (hinside node node' _ hnode)
    (acc.getD 0)
  refine ⟨?_, hentered⟩
  rw [hinner]
  exact .suspended _ fun _ _ _ _ => .pure (.finished (some (acc.getD 0)))

end

/-! ## Walks -/

section

variable {tagField : String} {seen : List String} {root root' : Value}
  (h : root.Restyled seen root') (htag : tagField ∈ seen) (skip : List Value)

include h htag

/-- The trees that a document and a restyled one show are alike in whatever nodes have in common
    with restyled ones. -/
theorem Adapter.alike_restyled {N : Value → Value → Prop}
    (hN : ∀ path node node', (tagged tagField skip).Reaches root path node →
      node.Restyled seen node' → N node node') :
    Tree.Alike N ((tagged tagField skip).view root) ((tagged tagField skip).view root') := by
  have hreached := (counterparts_restyled htag skip).reached root
  refine hreached.alike ?_ _ root root' rfl ⟨⟨[], .root⟩, h⟩
  rintro node node' ⟨⟨path, hreach⟩, hnode⟩
  exact hN path node node' hreach hnode

/-- To a step that sees only kinds a restyled document looks the same. -/
theorem Step.SeesOnlyKinds.looksAlike_restyled {step : Step σ ε α} (hstep : step.SeesOnlyKinds)
    (init : Option α) (own : σ) (logger : Option (Logger σ)) :
    LooksAlike step init own logger (.tagged tagField skip) root (.tagged tagField skip) root' :=
  hstep.looksAlike (fun _ => rfl)
    (Adapter.alike_restyled h htag skip fun _ _ _ _ hnode => hnode.kindOf_eq htag skip) init own
    logger

/-- A walk through a restyled document comes to the same end and leaves its step in a related
    state, if the step does the same at nodes that are related, as restyled ones are, and its
    logger keeps states related. -/
private theorem traverse_related {step : Step σ ε α} {R : σ → σ → Prop}
    {N : Value → Value → Prop}
    (hN : ∀ path node node', (Adapter.tagged tagField skip).Reaches root path node →
      node.Restyled seen node' → N node node')
    (hkind : ∀ node node', N node node' →
      (Adapter.tagged tagField skip).kindOf node = (Adapter.tagged tagField skip).kindOf node')
    (hstep : Step.Agree ⟨R, Context.Alike (Adapter.tagged tagField skip).kindOf, N⟩ step step)
    (init : Option α) {own : σ} (hown : R own own) {logger : Option (Logger σ)}
    (hlogger : ∀ l, logger = some l → ∀ severity message s s', R s s' →
      R (l.log severity message s) (l.log severity message s')) :
    let a := Adapter.tagged tagField skip
    (traverse root step init own (some a) logger).outcome =
        (traverse root' step init own (some a) logger).outcome ∧
      R (traverse root step init own (some a) logger).own
        (traverse root' step init own (some a) logger).own := by
  intro a
  have hwalker : Walker.Agree ⟨R, Context.Alike a.kindOf, N⟩
      (traverseWalker root step (some a) logger) (traverseWalker root' step (some a) logger) := by
    -- A logger of both sides keeps the states related, and contexts and nodes do not depend on it.
    refine ⟨Likeness.lawful_kinds (fun _ => rfl) R hkind, hstep, ?_⟩
    intro severity message s s' hs
    cases logger with
    | none => exact ⟨rfl, hs⟩
    | some logger => exact ⟨rfl, hs.1, hlogger logger rfl severity message s.own s'.own hs.2⟩
  have hending := traverse_agree init hwalker ⟨fun _ => rfl, fun _ => rfl, rfl⟩ hown
    (Adapter.alike_restyled h htag skip hN)
  exact ⟨hending.outcome, hending.own⟩

/-- A fold of a restyled document reports the same values and comes to the same end. -/
theorem Folding.fold_restyled (hseen : partsRead ⊆ seen) (selected : List Operator)
    (silent : Bool) (init : Option Number) (own : List Number)
    (logger : Option (Logger (List Number))) :
    let fold := step selected silent
    let a := Adapter.tagged tagField skip
    (traverse root fold init own (some a) logger).outcome =
        (traverse root' fold init own (some a) logger).outcome ∧
      (traverse root fold init own (some a) logger).own =
        (traverse root' fold init own (some a) logger).own := by
  have hkind : ∀ node node', Value.Restyled seen node node' →
      (Adapter.tagged tagField skip).kindOf node = (Adapter.tagged tagField skip).kindOf node' :=
    fun _ _ hnode => hnode.kindOf_eq htag skip
  have hstep := step_agree selected silent hkind
    fun _ _ kind hnode => hnode.role_eq hseen selected kind
  exact traverse_related h htag skip (fun _ _ _ _ hnode => hnode) hkind hstep init rfl
    fun _ _ _ _ _ _ hs => congrArg _ hs

/-- Collecting the scopes of a restyled document comes to the same end, with the same scopes but
    for the style of what is declared in them, if every variable declaration has its declarators
    in a list or tuple, or has none. -/
theorem Scopes.collect_restyled (hseen : partsRead ⊆ seen)
    (hdeclarators : ∀ stop ∈ (Adapter.tagged tagField skip).stops root,
      (Adapter.tagged tagField skip).kindOf stop.node = some "VariableDeclaration" →
        stop.node.holdsDeclarators = true)
    (init : Option Nat) (store : ScopeStore) :
    let a := Adapter.tagged tagField skip
    (traverse root collectScopes init store (some a)).outcome =
        (traverse root' collectScopes init store (some a)).outcome ∧
      ScopeStore.Alike (Value.Restyled seen)
        (traverse root collectScopes init store (some a)).own
        (traverse root' collectScopes init store (some a)).own := by
  intro a
  let N : Value → Value → Prop := fun node node' =>
    node.Restyled seen node' ∧
      (a.kindOf node = some "VariableDeclaration" → node.holdsDeclarators = true)
  have hkind : ∀ node node', N node node' → a.kindOf node = a.kindOf node' :=
    fun _ _ hnode => hnode.1.kindOf_eq htag skip
  have hdeclared : ∀ node node', N node node' → ∃ declared declared',
      Scopes.declared ((a.kindOf node).getD "") node = .ok declared ∧
      Scopes.declared ((a.kindOf node).getD "") node' = .ok declared' ∧
      List.Forall₂ (Value.Restyled seen) declared declared' := by
    rintro node node' ⟨hnode, hlist⟩
    refine hnode.exists_declared hseen fun hvariable => hlist ?_
    -- A value that is no node has the empty kind here, which is not that of a declaration.
    cases hfound : a.kindOf node with
    | none => simp [hfound] at hvariable
    | some kind => rw [hfound, Option.getD_some] at hvariable; rw [hvariable]
  have hN : ∀ path node node', a.Reaches root path node → node.Restyled seen node' →
      N node node' := by
    intro path node node' hreach hnode
    obtain ⟨stop, hstop, hposition⟩ := (a.exists_stop_iff root path node).mpr hreach
    obtain ⟨-, rfl⟩ := Prod.mk.inj hposition
    exact ⟨hnode, hdeclarators stop hstop⟩
  have hstep := collectScopes_agree (fun _ _ hnode => hnode.1) hkind hdeclared
    fun _ _ kind hnode => hnode.1.declaresInside_eq hseen kind
  exact traverse_related h htag skip hN hkind hstep init (ScopeStore.Alike.refl .same store)
    fun _ hnone => nomatch hnone

end

/-- However the nodes of a document are restyled, and whatever the tag and the skip set are, as
    long as no attribute found besides the listed parts has the name of a part looked up:

    * if that is so of the tag, listing and counting kinds and measuring depths look the same,
      and so does every walk whose step sees only kinds: calls, resumptions and closes, log
      lines, the outcome and the final state;
    * if it is so of the parts that arithmetic looks up too, evaluating arithmetic, whatever the
      operators and however loudly, reports the same values and has the same outcome;
    * if it is so of the parts that collecting scopes looks up, that has the same outcome and
      gives the same scopes but for the style of the declared nodes, provided that variable
      declarations have their declarators in a list or tuple, or have none. -/
theorem traverse_restyled (tagField : String) (skip : List Value) (root root' : Value) :
    let a := Adapter.tagged tagField skip
    (root.Restyled [tagField] root' →
      (∀ init own logger, LooksAlike collectKinds init own logger a root a root') ∧
      (∀ (σ ε : Type) init own logger,
        LooksAlike (countKinds : Step σ ε Tally) init own logger a root a root') ∧
      (∀ (σ ε : Type) init own logger,
        LooksAlike (maxDepth : Step σ ε Nat) init own logger a root a root') ∧
      ∀ (σ ε α : Type) (step : Step σ ε α), step.SeesOnlyKinds →
        ∀ init own logger, LooksAlike step init own logger a root a root') ∧
    (root.Restyled (tagField :: Folding.partsRead) root' →
      ∀ selected silent init own logger,
        let walk := traverse root (Folding.step selected silent) init own (some a) logger
        let walk' := traverse root' (Folding.step selected silent) init own (some a) logger
        walk.outcome = walk'.outcome ∧ walk.own = walk'.own) ∧
    (root.Restyled (tagField :: Scopes.partsRead) root' →
      (∀ stop ∈ a.stops root, a.kindOf stop.node = some "VariableDeclaration" →
        stop.node.holdsDeclarators = true) →
      ∀ init store,
        let walk := traverse root collectScopes init store (some a)
        let walk' := traverse root' collectScopes init store (some a)
        walk.outcome = walk'.outcome ∧
          ScopeStore.Alike (Value.Restyled (tagField :: Scopes.partsRead)) walk.own walk'.own ∧
          ∀ id, ScopeTree.Alike (Value.Restyled (tagField :: Scopes.partsRead))
            (walk.own.tree id) (walk'.own.tree id)) := by
  -- The tag is looked up in each of the three cases, besides what the step itself looks up.
  have htag : ∀ parts, tagField ∈ tagField :: parts := fun _ => List.mem_cons_self
  have hparts : ∀ parts, parts ⊆ tagField :: parts := fun _ _ => List.mem_cons_of_mem _
  refine ⟨fun h => ⟨collectKinds_seesOnlyKinds.looksAlike_restyled h (htag _) skip,
    fun _ _ => countKinds_seesOnlyKinds.looksAlike_restyled h (htag _) skip,
    fun _ _ => maxDepth_seesOnlyKinds.looksAlike_restyled h (htag _) skip,
    fun _ _ _ _ hstep => hstep.looksAlike_restyled h (htag _) skip⟩,
    fun h => Folding.fold_restyled h (htag _) skip (hparts _), ?_⟩
  intro h hdeclarators init store
  obtain ⟨houtcome, hstores⟩ :=
    Scopes.collect_restyled h (htag _) skip (hparts _) hdeclarators init store
  exact ⟨houtcome, hstores, hstores.tree⟩

/-- A program that declares the sum of 2 and 5, the program held in one way, declarations and
    expressions in another, and literals in a third. -/
def declaredSum (program expression literal : Holder) (aside : List (Value × Value)) : Value :=
  let number (i : Int) : Value :=
    .record literal [(.str "type", .str "NumericLiteral"), (.str "value", .int i)] []
  let sum : Value :=
    .record expression [(.str "type", .str "BinaryExpression"), (.str "left", number 2),
      (.str "operator", .str "+"), (.str "right", number 5)] []
  let declarator : Value :=
    .record expression [(.str "type", .str "VariableDeclarator"), (.str "init", sum)] []
  let declaration : Value :=
    .record expression [(.str "type", .str "VariableDeclaration"),
      (.str "declarations", .list [declarator])] []
  .record program [(.str "type", .str "Program"), (.str "body", .list [declaration])] aside

/-- In whatever styles its nodes are held, the program comes to 7, counts the same kinds in the
    same order and declares its declarator, also if it is of a class with attributes that nothing
    looks up. -/
theorem traverse_restyled_declaredSum :
    let plain := declaredSum .dict .dict .dict []
    let mixed := declaredSum .object .mapping .declared
      [(.str "__module__", .str "nodes"), (.str "indent", .int 4)]
    let a := Adapter.tagged "type"
    plain.Restyled ["type"] mixed ∧
    plain.Restyled ("type" :: Folding.partsRead) mixed ∧
    plain.Restyled ("type" :: Scopes.partsRead) mixed ∧
    (∀ stop ∈ a.stops plain, a.kindOf stop.node = some "VariableDeclaration" →
      stop.node.holdsDeclarators = true) ∧
    (traverse mixed (Folding.step [.plus]) none [] (some a)).own.map (fun
      | .int i => some i
      | .float _ => none) = [some 7] ∧
    (traverse mixed (countKinds : Step Unit Unit Tally) none () (some a)).outcome.toOption =
      some (some [(some "Program", 1), (some "VariableDeclaration", 1),
        (some "VariableDeclarator", 1), (some "BinaryExpression", 1),
        (some "NumericLiteral", 2)]) ∧
    ScopeTree.Alike (Value.Restyled ("type" :: Scopes.partsRead))
      ((traverse plain collectScopes (some 0) #[{}] (some a)).own.tree 0)
      ((traverse mixed collectScopes (some 0) #[{}] (some a)).own.tree 0) := by
  intro plain mixed a
  have hrestyled : ∀ seen, "__module__" ∉ seen → "indent" ∉ seen →
      plain.Restyled seen mixed := by
    intro seen hmodule hindent
    have hnone : Value.Unnoticed seen [] := fun _ hpart => absurd hpart List.not_mem_nil
    have haside : Value.Unnoticed seen
        [(.str "__module__", .str "nodes"), (.str "indent", .int 4)] := by
      intro part hpart name hname
      rcases List.mem_pair.mp hpart with rfl | rfl
      · exact beq_false_of_ne fun heq => hmodule (heq ▸ hname)
      · exact beq_false_of_ne fun heq => hindent (heq ▸ hname)
    have hnumber : ∀ i, Value.Restyled seen
        (.record .dict [(.str "type", .str "NumericLiteral"), (.str "value", .int i)] [])
        (.record .declared [(.str "type", .str "NumericLiteral"), (.str "value", .int i)] []) := by
      intro i
      refine .node rfl rfl (List.cons_ne_nil _ _) rfl ?_ (.cons (.same _) (.cons (.same _) .nil))
        hnone hnone
      show ∀ name ∈ [Value.str "type", .str "value"], _
      decide +kernel
    -- The program, the declaration, the declarator and the sum, from the outside inwards.
    refine .node rfl rfl (List.cons_ne_nil _ _) rfl (by decide +kernel)
      (.cons (.same _) (.cons (.group _ (.cons ?_ .nil)) .nil)) hnone haside
    refine .node rfl rfl (List.cons_ne_nil _ _) rfl (by decide +kernel)
      (.cons (.same _) (.cons (.group _ (.cons ?_ .nil)) .nil)) hnone hnone
    refine .node rfl rfl (List.cons_ne_nil _ _) rfl (by decide +kernel)
      (.cons (.same _) (.cons ?_ .nil)) hnone hnone
    exact .node rfl rfl (List.cons_ne_nil _ _) rfl (by decide +kernel)
      (.cons (.same _) (.cons (hnumber 2) (.cons (.same _) (.cons (hnumber 5) .nil)))) hnone hnone
  have hdeclarators : ∀ stop ∈ a.stops plain, a.kindOf stop.node = some "VariableDeclaration" →
      stop.node.holdsDeclarators = true := by decide +kernel
  have hkinds : plain.Restyled ["type"] mixed := hrestyled _ (by decide) (by decide)
  have hsums : plain.Restyled ("type" :: Folding.partsRead) mixed :=
    hrestyled _ (by decide) (by decide)
  have hnames : plain.Restyled ("type" :: Scopes.partsRead) mixed :=
    hrestyled _ (by decide) (by decide)
  obtain ⟨htagged, hfold, hscopes⟩ := traverse_restyled "type" [] plain mixed
  obtain ⟨-, hcount, -, -⟩ := htagged hkinds
  refine ⟨hkinds, hsums, hnames, hdeclarators, ?_, ?_,
    (hscopes hnames hdeclarators (some 0) #[{}]).2.2 0⟩
  · rw [← (hfold hsums [.plus] false none [] none).2]
    decide +kernel
  · rw [← (hcount Unit Unit none () none).outcome]
    decide +kernel

/-- An attribute of a class may count as a part of its objects: a literal without a value comes
    to nothing as a dictionary, and to 5 as an object of a class that has the value 5. -/
theorem traverse_restyled_classValue :
    let tag : List (Value × Value) := [(.str "type", .str "NumericLiteral")]
    let plain : Value := .record .dict tag []
    let object : Value := .record .object tag [(.str "value", .int 5)]
    let a := Adapter.tagged "type"
    let result (root : Value) : Option (Option (Option Int)) :=
      (traverse root (Folding.step [.plus]) none [] (some a)).outcome.toOption.map
        (Option.map fun
          | .int i => some i
          | .float _ => none)
    plain.Restyled ["type"] object ∧ result plain = some none ∧
      result object = some (some (some 5)) := by
  intro tag plain object a result
  refine ⟨?_, by decide +kernel, by decide +kernel⟩
  refine .node rfl rfl (List.cons_ne_nil _ _) rfl (by decide +kernel) (.cons (.same _) .nil)
    (fun _ hpart => absurd hpart List.not_mem_nil) ?_
  -- The class attribute that makes the difference has a name which is none of those looked up.
  intro part hpart name hname
  rw [List.mem_singleton.mp hpart, List.mem_singleton.mp hname]
  decide

end TreeWalk
