import TreeWalk.Proofs.ScopeWalk

/-! # Where declarations end up

A walk that collects scopes puts every declaration into one scope: functions, classes and
declarators into the scope around them, a named function expression into the one that it
opens itself.  Nothing else is declared, and nothing is left out.

## Key results

* `Placement.contribution` says what a node contributes to a scope.
* `traverse_declarations` says that the declarations of every scope are those that it had
  and the contributions of the nodes, in the order of the walk.
-/

namespace TreeWalk

namespace Value

/-- Whether the field for the declarators is missing, empty, or a list or tuple. -/
def holdsDeclarators (node : Value) : Bool :=
  match node.lookup "declarations" with
  | none | some .null | some (.group .list _) | some (.group .tuple _) => true
  | some _ => false

/-- The declarators of a variable declaration. -/
def declarators (node : Value) : List Value :=
  match node.lookup "declarations" with
  | some (.group _ items) => items
  | _ => []

end Value

namespace Scopes

/-- A node of whatever kind declares itself, if it declares a function or a class, and then
    its declarators, if it is a variable declaration. -/
theorem declared_eq_ok {kind : String} {node : Value}
    (h : kind = "VariableDeclaration" → node.holdsDeclarators = true) :
    declared kind node = .ok ((if isDeclaration kind = true then [node] else []) ++
      if kind = "VariableDeclaration" then node.declarators else []) := by
  by_cases hkind : kind = "VariableDeclaration"
  · subst hkind
    have hholds := h rfl
    unfold Value.holdsDeclarators at hholds
    unfold declared Value.declarators
    -- An empty sequence is not gone through, but it has no items anyway.
    split at hholds
    · next hlookup => rw [hlookup]; rfl
    · next hlookup => rw [hlookup]; rfl
    · next elements hlookup => rw [hlookup]; cases elements <;> rfl
    · next elements hlookup => rw [hlookup]; cases elements <;> rfl
    · cases hholds
  · unfold declared
    simp only [beq_eq_false_iff_ne.mpr hkind, Bool.false_eq_true, ↓reduceIte, hkind]
    rfl

end Scopes

/-- What a node contributes to the declarations of the scope `k`: to the scope that it stands
    in itself, if it declares a function or a class, and its declarators, if it is a variable
    declaration; to the scope that it opens itself, if it is a named function expression. -/
def Placement.contribution (a : Adapter) (p : Placement) (k : Nat) : List Value :=
  (if p.scope = k then
      (if Scopes.isDeclaration (p.stop.kind a) = true then [p.stop.node] else []) ++
        if p.stop.kind a = "VariableDeclaration" then p.stop.node.declarators else []
    else []) ++
    if p.first = k ∧ Scopes.declaresInside (p.stop.kind a) p.stop.node = true then [p.stop.node]
    else []

/-- Where the declarators are in a list or tuple, what is recorded in a scope for a stop is its
    contribution. -/
theorem Placement.declaredIn_eq {a : Adapter} {p : Placement}
    (h : p.stop.kind a = "VariableDeclaration" → p.stop.node.holdsDeclarators = true) (k : Nat) :
    p.declaredIn a k = p.contribution a k := by
  have hdeclared := Scopes.declared_eq_ok h
  unfold declaredIn contribution Stop.declared Stop.declaredInside
  rw [hdeclared, ite_and]
  rfl

/-- A tagged adapter can list the fields of every value, so a walk can pass a node if its
    declarators are in order. -/
theorem Stop.passable_of_tagged {tagField : String} {skip : List Value} {stop : Stop}
    (h : stop.kind (.tagged tagField skip) = "VariableDeclaration" →
      stop.node.holdsDeclarators = true) :
    stop.Passable (.tagged tagField skip) :=
  ⟨rfl, _, Scopes.declared_eq_ok h⟩

/-- A walk with tagged nodes in which all variable declarations have their declarators in a
    list or tuple gives back the scope that it was given.  In the end every scope has the
    declarations that it had before, and after them what the nodes of the tree contribute,
    in the order in which the walk came to them: a function, a class or a declarator goes
    into the scope around its node, which is the last one opened by the nearest node above
    that opens any; a named function expression goes into the scope that it opens. -/
theorem traverse_declarations (root : Value) (adapter : Option Adapter) {tagField : String}
    {skip : List Value} (hadapter : adapter.getD (.default root) = .tagged tagField skip)
    {s : Nat} {store : ScopeStore} (hs : s < store.size)
    (hdeclarators : ∀ stop ∈ (Adapter.tagged tagField skip).stops root,
      (Adapter.tagged tagField skip).kindOf stop.node = some "VariableDeclaration" →
        stop.node.holdsDeclarators = true) :
    let a := Adapter.tagged tagField skip
    let walk := traverse root collectScopes (some s) store adapter none
    let moments := history root collectScopes (some s) store adapter none
    let ledger := a.ledger root s store.size
    walk.outcome = .ok (some s) ∧
      moments.filterMap Moment.calledAt = (a.stops root).map Stop.position ∧
      IsLedger a s store.size (a.stops root) ledger ∧
      (∀ p ∈ ledger, 0 < p.stop.openings a ↔
        Scopes.isFunction (p.stop.kind a) = true ∨ Scopes.isLoop (p.stop.kind a) = true ∨
          p.stop.kind a = "CatchClause" ∨ p.stop.kind a = "BlockStatement" ∧
            p.stop.parentKind a ≠ some "FunctionDeclaration") ∧
      (∀ p ∈ ledger, Scopes.declaresInside (p.stop.kind a) p.stop.node = true →
        p.opened a = [p.first]) ∧
      ∀ k, (walk.own.scope k).declarations =
        (store.scope k).declarations ++ ledger.flatMap fun p => p.contribution a k := by
  intro a walk moments ledger
  have hledger : IsLedger a s store.size (a.stops root) ledger := a.isLedger_ledger root hs
  have hkind : ∀ stop ∈ a.stops root, stop.kind a = "VariableDeclaration" →
      stop.node.holdsDeclarators = true := by
    intro stop hstop hkind
    refine hdeclarators stop hstop ?_
    unfold Stop.kind at hkind
    cases hkindOf : a.kindOf stop.node with
    | none => simp [hkindOf] at hkind
    | some kind => simpa [hkindOf] using hkind
  -- Every stop can be passed, so the walk ends and the scopes are settled as the ledger says.
  obtain ⟨-, hended⟩ := traverse_collectScopes root adapter hs
  rw [hadapter] at hended
  obtain ⟨houtcome, hsettled⟩ := hended fun stop hstop =>
    Stop.passable_of_tagged (hkind stop hstop)
  have hcalls := filterMap_calledAt_history root collectScopes (some s) store adapter none houtcome
  rw [hadapter] at hcalls
  refine ⟨houtcome, hcalls, hledger, fun p _ => Scopes.openings_pos_iff .., ?_, ?_⟩
  · intro p _ hinside
    have hopenings : p.stop.openings a = 1 := Scopes.openings_of_declaresInside hinside _
    rw [Placement.opened, hopenings]
    rfl
  · intro k
    rw [hsettled.declarations_eq k]
    congr 1
    refine List.flatMap_congr ?_
    intro p hp
    refine Placement.declaredIn_eq (hkind p.stop ?_) k
    rw [← hledger.stops_eq]
    exact List.mem_map_of_mem hp

/-- The document of a program with two functions: a declared one with two variables in it,
    and a named one as the value of a variable. -/
def twoFunctions : Value :=
  let node (kind : String) (fields : List (String × Value)) : Value :=
    .dict ((.str "type", .str kind) :: fields.map fun field => (.str field.1, field.2))
  let name (text : String) : Value := node "Identifier" [("name", .str text)]
  let block (body : List Value) : Value := node "BlockStatement" [("body", .list body)]
  let declare (declarators : List Value) : Value :=
    node "VariableDeclaration" [("declarations", .list declarators)]
  node "Program" [("body", .list [
    node "FunctionDeclaration" [("id", name "f"), ("body", block [declare [
      node "VariableDeclarator" [("id", name "x")],
      node "VariableDeclarator" [("id", name "y")]]])],
    declare [node "VariableDeclarator" [("id", name "h"),
      ("init", node "FunctionExpression" [("id", name "g"), ("body", block [])])]]])]

/-- The document of a program with a loop that declares a variable and has another one in its
    body, a block with a variable, and an attempt with a variable whose failure is caught. -/
def loopAndCatch : Value :=
  let node (kind : String) (fields : List (String × Value)) : Value :=
    .dict ((.str "type", .str kind) :: fields.map fun field => (.str field.1, field.2))
  let name (text : String) : Value := node "Identifier" [("name", .str text)]
  let block (body : List Value) : Value := node "BlockStatement" [("body", .list body)]
  let declare (text : String) : Value := node "VariableDeclaration"
    [("declarations", .list [node "VariableDeclarator" [("id", name text)]])]
  node "Program" [("body", .list [
    node "ForStatement" [("init", declare "i"), ("body", block [declare "x"])],
    block [declare "y"],
    node "TryStatement" [("block", block [declare "z"]),
      ("handler", node "CatchClause" [("param", name "e"), ("body", block [])])]])]

/-- In the program with two functions the outer scope declares the first function and the
    variable with the second, the scope of the first function its two variables, and the
    scope of the second that function; its body has nothing to declare.

    In the program with the loop the outer scope declares nothing.  Six nodes open scopes: the
    loop, its body, the block, the attempt, the clause that catches its failure and the body of
    that, and none of the last two declares anything. -/
theorem traverse_declarations_twoFunctions :
    let a := Adapter.tagged "type" []
    let walk (root : Value) := traverse root collectScopes (some 0) #[{}] (some a) none
    let ledger (root : Value) := a.ledger root 0 1
    ((∀ stop ∈ a.stops twoFunctions, a.kindOf stop.node = some "VariableDeclaration" →
        stop.node.holdsDeclarators = true) ∧
      (walk twoFunctions).outcome = .ok (some 0) ∧
      IsLedger a 0 1 (a.stops twoFunctions) (ledger twoFunctions) ∧
      (∀ k, ((walk twoFunctions).own.scope k).declarations =
        (ScopeStore.scope #[{}] k).declarations ++
          (ledger twoFunctions).flatMap fun p => p.contribution a k) ∧
      (List.range 4).map (fun k => ((walk twoFunctions).own.scope k).declarations.length) =
        [2, 2, 1, 0]) ∧
    (∀ stop ∈ a.stops loopAndCatch, a.kindOf stop.node = some "VariableDeclaration" →
        stop.node.holdsDeclarators = true) ∧
      (walk loopAndCatch).outcome = .ok (some 0) ∧
      IsLedger a 0 1 (a.stops loopAndCatch) (ledger loopAndCatch) ∧
      (∀ k, ((walk loopAndCatch).own.scope k).declarations =
        (ScopeStore.scope #[{}] k).declarations ++
          (ledger loopAndCatch).flatMap fun p => p.contribution a k) ∧
      (walk loopAndCatch).own.size = 7 ∧
      (List.range 7).map (fun k => ((walk loopAndCatch).own.scope k).declarations.length) =
        [0, 1, 1, 1, 1, 0, 0] := by
  intro a walk ledger
  have hholds : ∀ stop ∈ a.stops twoFunctions,
      a.kindOf stop.node = some "VariableDeclaration" → stop.node.holdsDeclarators = true := by
    decide +kernel
  have hholds' : ∀ stop ∈ a.stops loopAndCatch,
      a.kindOf stop.node = some "VariableDeclaration" → stop.node.holdsDeclarators = true := by
    decide +kernel
  -- In both programs the declarators are in lists, which is all that is asked.
  have hsize : 0 < Array.size #[({} : Scope)] := by decide
  obtain ⟨houtcome, -, hledger, -, -, hdeclarations⟩ :=
    traverse_declarations twoFunctions (some a) rfl hsize hholds
  obtain ⟨houtcome', -, hledger', -, -, hdeclarations'⟩ :=
    traverse_declarations loopAndCatch (some a) rfl hsize hholds'
  exact ⟨⟨hholds, houtcome, hledger, hdeclarations, by decide +kernel⟩,
    hholds', houtcome', hledger', hdeclarations', by decide +kernel, by decide +kernel⟩

end TreeWalk
