import TreeWalk.Steps.Scopes

/-! # The store of scopes

What the operations on a store of scopes do to the scope with a given number: to declare
adds to its declarations, to open a scope adds a number to the scopes inside it, and
nothing else is changed.

## Key results

* `ScopeStore.scope` is the view of a store, one scope for every number.
* `ScopeStore.scope_declareAll` and `Scopes.scope_openMany` say what declaring and
  opening do to it, `Scopes.scope_enter` what a node does that opens its scopes.
* `Scopes.openings_pos_iff` says which nodes open a scope, `Scopes.openings_le_two` which
  open two.
-/

namespace TreeWalk

namespace ScopeStore

/-- The scope with a number; a number that was never given out has an empty one. -/
def scope (store : ScopeStore) (id : Nat) : Scope :=
  store[id]?.getD {}

/-- Where there is no scope, an empty one is read. -/
theorem scope_of_size_le {store : ScopeStore} {id : Nat} (h : store.size ≤ id) :
    store.scope id = {} := by
  unfold scope
  rw [Array.getElem?_eq_none h]
  rfl

/-- To change a scope changes this one only. -/
theorem scope_modify (store : ScopeStore) {id : Nat} (h : id < store.size) (f : Scope → Scope)
    (k : Nat) :
    scope (store.modify id f) k = if k = id then f (store.scope k) else store.scope k := by
  unfold scope
  rw [Array.getElem?_modify]
  by_cases hk : id = k
  · subst hk
    simp [h]
  · simp [hk, Ne.symm hk]

/-- A new scope has the next number. -/
theorem scope_push (store : ScopeStore) (added : Scope) (k : Nat) :
    scope (store.push added) k = if k = store.size then added else store.scope k := by
  unfold scope
  rw [Array.getElem?_push]
  split <;> rfl

/-! ## Declaring -/

/-- To declare something opens no scope. -/
@[simp] theorem size_declare (store : ScopeStore) (id : Nat) (value : Value) :
    (store.declare id value).size = store.size := by
  simp [declare]

/-- To declare something appends it to the declarations of one scope. -/
theorem scope_declare (store : ScopeStore) {id : Nat} (h : id < store.size) (value : Value)
    (k : Nat) :
    (store.declare id value).scope k =
      { store.scope k with
        declarations := (store.scope k).declarations ++ if k = id then [value] else [] } := by
  unfold declare
  rw [scope_modify store h]
  split <;> simp

/-- To declare several things opens no scope. -/
@[simp] theorem size_declareAll (store : ScopeStore) (id : Nat) (values : List Value) :
    (store.declareAll id values).size = store.size := by
  unfold declareAll
  induction values generalizing store with
  | nil => rfl
  | cons value rest ih => rw [List.foldl_cons, ih, size_declare]

/-- To declare several things appends them to the declarations of one scope, in order. -/
theorem scope_declareAll (store : ScopeStore) {id : Nat} (h : id < store.size)
    (values : List Value) (k : Nat) :
    (store.declareAll id values).scope k =
      { store.scope k with
        declarations := (store.scope k).declarations ++ if k = id then values else [] } := by
  unfold declareAll
  induction values generalizing store with
  | nil => simp
  | cons value rest ih =>
    rw [List.foldl_cons, ih _ (by rw [size_declare]; exact h), scope_declare store h]
    split <;> simp

/-! ## Opening -/

/-- To open a scope makes one more. -/
@[simp] theorem size_openScope (store : ScopeStore) (parent : Option Nat) :
    (store.openScope parent).size = store.size + 1 := by
  cases parent <;> simp [openScope, adopt]

/-- A scope that is opened gets the next number and becomes the last inside its parent. -/
theorem scope_openScope (store : ScopeStore) {parent : Nat} (h : parent < store.size) (k : Nat) :
    (store.openScope (some parent)).scope k =
      { parent := if k = store.size then some parent else (store.scope k).parent
        declarations := (store.scope k).declarations
        children := (store.scope k).children ++ if k = parent then [store.size] else [] } := by
  have hsize : parent < (store.push { parent := some parent } : ScopeStore).size := by
    rw [Array.size_push]
    omega
  show scope ((store.push { parent := some parent } : ScopeStore).modify parent _) k = _
  rw [scope_modify _ hsize, scope_push]
  -- A scope is the new one, its parent, or another; the new one is not its own parent.
  by_cases hk : k = store.size
  · subst hk
    have hne : store.size ≠ parent := by omega
    simp [scope_of_size_le (Nat.le_refl store.size), hne]
  · by_cases hp : k = parent
    · subst hp
      simp [hk]
    · simp [hk, hp]

end ScopeStore

namespace Scopes

/-- The first of several scopes is opened before the others. -/
theorem openMany_succ (scope count : Nat) (store : ScopeStore) :
    openMany scope (count + 1) store = openMany scope count (store.openScope (some scope)) :=
  rfl

/-- To open several scopes makes that many more. -/
@[simp] theorem size_openMany (scope count : Nat) (store : ScopeStore) :
    (openMany scope count store).size = store.size + count := by
  induction count generalizing store with
  | zero => rfl
  | succ count ih =>
    rw [openMany_succ, ih, ScopeStore.size_openScope]
    omega

/-- Scopes opened side by side get the next numbers and become the last inside their
    parent. -/
theorem scope_openMany {scope : Nat} (count : Nat) {store : ScopeStore} (h : scope < store.size)
    (k : Nat) :
    (openMany scope count store).scope k =
      { parent := if store.size ≤ k ∧ k < store.size + count then some scope
          else (store.scope k).parent
        declarations := (store.scope k).declarations
        children := (store.scope k).children ++
          if k = scope then List.range' store.size count else [] } := by
  induction count generalizing store with
  | zero =>
    have hk : ¬ (store.size ≤ k ∧ k < store.size + 0) := by omega
    simp only [hk, ↓reduceIte, List.range'_zero, ite_self, List.append_nil]
    rfl
  | succ count ih =>
    have hsize : scope < (store.openScope (some scope)).size := by
      rw [ScopeStore.size_openScope]
      omega
    rw [openMany_succ, ih hsize, ScopeStore.size_openScope, ScopeStore.scope_openScope store h]
    -- The first of the new numbers is that of the scope opened first.
    simp only [List.append_assoc, Scope.mk.injEq, true_and, List.append_cancel_left_eq]
    refine ⟨?_, ?_⟩
    · by_cases hk : k = store.size
      · simp [hk]
      · have hiff : store.size + 1 ≤ k ∧ k < store.size + 1 + count ↔
            store.size ≤ k ∧ k < store.size + (count + 1) := by omega
        rw [if_neg hk]
        simp only [hiff]
    · rw [List.range'_succ]
      split <;> rfl

/-! ## What a kind mentions -/

/-- A pattern occurs in a text if it is a part of it. -/
theorem occursIn_iff (pattern text : List Char) :
    occursIn pattern text = true ↔ pattern <:+: text := by
  induction text with
  | nil => simp [occursIn]
  | cons c rest ih =>
    rw [occursIn, Bool.or_eq_true, ih, List.isPrefixOf_iff_prefix, List.infix_cons_iff]

/-- A kind mentions a pattern if the pattern stands in it in one piece. -/
theorem mentions_iff (kind pattern : String) :
    mentions kind pattern = true ↔ pattern.toList <:+: kind.toList :=
  occursIn_iff pattern.toList kind.toList

/-- A function expression opens one scope, as a function. -/
theorem openings_functionExpression (parentKind : Option String) :
    openings "FunctionExpression" parentKind = 1 := by
  have hfunction : opensAsFunction "FunctionExpression" = true := by decide +kernel
  have hloop : opensAsLoop "FunctionExpression" = false := by decide +kernel
  have hblock : opensAsBlock "FunctionExpression" parentKind = false := by simp [opensAsBlock]
  simp [openings, hfunction, hloop, hblock]

/-- What declares itself inside opens one scope. -/
theorem openings_of_declaresInside {kind : String} {node : Value}
    (h : declaresInside kind node = true) (parentKind : Option String) :
    openings kind parentKind = 1 := by
  obtain ⟨hkind, -⟩ := Bool.and_eq_true_iff.mp h
  rw [beq_iff_eq.mp hkind, openings_functionExpression]

/-- The kinds of nodes that open a scope. -/
theorem openings_pos_iff (kind : String) (parentKind : Option String) :
    0 < openings kind parentKind ↔ isFunction kind = true ∨ isLoop kind = true ∨
      kind = "CatchClause" ∨ kind = "BlockStatement" ∧ parentKind ≠ some "FunctionDeclaration" := by
  have hpos : ∀ b : Bool, 0 < b.toNat ↔ b = true := by decide
  unfold openings
  rw [Nat.add_pos_iff_pos_or_pos, Nat.add_pos_iff_pos_or_pos, hpos, hpos, hpos, opensAsFunction,
    opensAsLoop, opensAsBlock, Bool.or_eq_true, Bool.and_eq_true, beq_iff_eq, beq_iff_eq,
    bne_iff_ne, or_assoc, or_assoc]

/-- A node opens two scopes exactly if its kind is that of a function and of a loop, and
    never more. -/
theorem openings_le_two (kind : String) (parentKind : Option String) :
    openings kind parentKind ≤ 2 ∧
      (openings kind parentKind = 2 ↔ isFunction kind = true ∧ isLoop kind = true) := by
  -- Blocks and catch clauses are neither functions nor loops.
  by_cases hblock : kind = "BlockStatement"
  · have hfunction : isFunction "BlockStatement" = false := by decide +kernel
    have hloop : opensAsLoop "BlockStatement" = false := by decide +kernel
    subst hblock
    unfold openings
    rw [opensAsFunction, hfunction, hloop]
    cases opensAsBlock "BlockStatement" parentKind <;> simp
  · have hnone : opensAsBlock kind parentKind = false := by simp [opensAsBlock, hblock]
    unfold openings
    rw [hnone]
    by_cases hcatch : kind = "CatchClause"
    · have hfunction : isFunction "CatchClause" = false := by decide +kernel
      subst hcatch
      simp [opensAsFunction, opensAsLoop, hfunction]
    · simp only [opensAsFunction, opensAsLoop, beq_false_of_ne hcatch, Bool.or_false]
      cases isFunction kind <;> cases isLoop kind <;> simp

/-! ## Entering a node -/

/-- To enter a node opens its scopes. -/
@[simp] theorem size_enter (kind : String) (parentKind : Option String) (node : Value)
    (scope : Nat) (store : ScopeStore) :
    (enter kind parentKind node scope store).1.size = store.size + openings kind parentKind := by
  unfold enter
  split
  · rw [ScopeStore.size_declare, size_openMany]
  · exact size_openMany ..

/-- A node that is entered opens its scopes in the one it stands in, and declares itself in
    the first of them if it is a named function expression. -/
theorem scope_enter (kind : String) (parentKind : Option String) (node : Value) {scope : Nat}
    {store : ScopeStore} (h : scope < store.size) (k : Nat) :
    (enter kind parentKind node scope store).1.scope k =
      { parent := if store.size ≤ k ∧ k < store.size + openings kind parentKind then some scope
          else (store.scope k).parent
        declarations := (store.scope k).declarations ++
          if declaresInside kind node = true ∧ k = store.size then [node] else []
        children := (store.scope k).children ++
          if k = scope then List.range' store.size (openings kind parentKind) else [] } := by
  unfold enter
  -- What is declared inside goes to the first scope that is opened, which is a new one.
  by_cases hinside : declaresInside kind node = true
  · have hsize : store.size < (openMany scope (openings kind parentKind) store).size := by
      rw [size_openMany, openings_of_declaresInside hinside]
      omega
    simp only [hinside, ↓reduceIte, true_and]
    rw [ScopeStore.scope_declare _ hsize, scope_openMany _ h]
  · simp only [hinside, Bool.false_eq_true, ↓reduceIte, false_and, List.append_nil]
    exact scope_openMany _ h k

end Scopes

end TreeWalk
