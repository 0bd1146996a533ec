import TreeWalk.Walk

/-! # Lexical scopes

`collectScopes` builds the scope tree of a program in the style of ESTree and
Babel trees.  Scopes refer to each other, so they live in a store and are known
by their number; `ScopeStore.tree?` reads the finished scopes off as a tree.

## Key results

* `Scopes.declared` says what a node declares in the scope it stands in.
* `Scopes.openings` says how many scopes a node opens, nested or side by side. -/

namespace TreeWalk

/-- A scope with what is declared directly in it, the scope around it and the
    scopes directly inside it. -/
structure Scope where
  parent : Option Nat := none
  declarations : List Value := []
  children : List Nat := []

/-- All scopes, by number. -/
abbrev ScopeStore := Array Scope

/-- A scope with the scopes inside it. -/
inductive ScopeTree where
  | scope (declarations : List Value) (children : List ScopeTree)

namespace ScopeTree

def declarations : ScopeTree → List Value
  | .scope declarations _ => declarations

def children : ScopeTree → List ScopeTree
  | .scope _ children => children

end ScopeTree

namespace ScopeStore

/-- Adds `child` to the scopes inside the scope `id`. -/
def adopt (store : ScopeStore) (id child : Nat) : ScopeStore :=
  store.modify id fun scope => { scope with children := scope.children ++ [child] }

/-- Opens a scope inside the given one, or on its own; its number is the size of
    the store before. -/
def openScope (store : ScopeStore) (parent : Option Nat) : ScopeStore :=
  let added : ScopeStore := store.push { parent }
  match parent with
  | some id => added.adopt id store.size
  | none => added

/-- Declares a value in a scope. -/
def declare (store : ScopeStore) (id : Nat) (value : Value) : ScopeStore :=
  store.modify id fun scope => { scope with declarations := scope.declarations ++ [value] }

/-- Declares values in a scope, in order. -/
def declareAll (store : ScopeStore) (id : Nat) (values : List Value) : ScopeStore :=
  values.foldl (fun store value => store.declare id value) store

/-- The scope `id` with all scopes inside it, at most `fuel` levels deep. -/
def treeTo (store : ScopeStore) : Nat → Nat → ScopeTree
  | 0, _ => .scope [] []
  | fuel + 1, id =>
    match store[id]? with
    | some scope => .scope scope.declarations (scope.children.map (treeTo store fuel))
    | none => .scope [] []

/-- The scope `id` with all scopes inside it.  A scope is opened after the one it
    lies in, so no chain of scopes is longer than the store. -/
def tree (store : ScopeStore) (id : Nat) : ScopeTree :=
  store.treeTo store.size id

/-- The numbers of the scopes that lie in no other. -/
def roots (store : ScopeStore) : List Nat :=
  (List.range store.size).filter fun id => (store[id]?.bind Scope.parent).isNone

end ScopeStore

namespace Scopes

/-- Whether `pattern` occurs in a list of characters. -/
def occursIn (pattern : List Char) : List Char → Bool
  | [] => pattern.isEmpty
  | c :: rest => pattern.isPrefixOf (c :: rest) || occursIn pattern rest

/-- Whether `pattern` occurs in a kind. -/
def mentions (kind pattern : String) : Bool :=
  occursIn pattern.toList kind.toList

/-- Kinds of nodes that are declared themselves. -/
def isDeclaration (kind : String) : Bool :=
  mentions kind "FunctionDeclaration" || mentions kind "ClassDeclaration"

def isFunction (kind : String) : Bool :=
  mentions kind "Function"

def isLoop (kind : String) : Bool :=
  mentions kind "ForStatement" || mentions kind "ForInStatement" || mentions kind "ForOfStatement"

/-- A value that is not a sequence was to be gone through; its type is named. -/
structure NotIterable where
  typeName : String
  deriving DecidableEq, Repr

/-- The wording of the failure. -/
def NotIterable.message (e : NotIterable) : String :=
  Quoted.text e.typeName ++ " object is not iterable"

/-- What going through a value gives, one after the other: the items of a group,
    the keys of a mapping, the characters of a string, the bytes as numbers. -/
def items : Value → Except NotIterable (List Value)
  | .group _ items => .ok items
  | .str s => .ok (s.toList.map fun c => .str (String.singleton c))
  | .bytes data => .ok (data.map fun b => .int b.toNat)
  | .record holder entries aside =>
    if holder.isMapping then .ok (entries.map Prod.fst)
    else .error ⟨Value.typeName (.record holder entries aside)⟩
  | value => .error ⟨value.typeName⟩

/-- What a node of the given kind declares in the scope it stands in: itself, if
    it declares a function or a class, and the declarators of a variable
    declaration. -/
def declared (kind : String) (node : Value) : Except NotIterable (List Value) := do
  let itself := if isDeclaration kind then [node] else []
  let declarators ←
    if kind == "VariableDeclaration" then
      -- A value that counts as false is as good as a missing one.
      match node.lookup "declarations" with
      | some value => if value.isTrue then items value else pure []
      | none => pure []
    else pure []
  return itself ++ declarators

/-- Whether a node is a named function expression, which is declared in the scope
    that it opens itself. -/
def declaresInside (kind : String) (node : Value) : Bool :=
  kind == "FunctionExpression" && ((node.lookup "id").map Value.isTrue).getD false

/-- Whether a node opens a scope as a function. -/
def opensAsFunction (kind : String) : Bool :=
  isFunction kind

/-- Whether a node opens a scope as a loop or as a catch clause. -/
def opensAsLoop (kind : String) : Bool :=
  isLoop kind || kind == "CatchClause"

/-- Whether a node opens a scope as a block; the body of a function declaration
    shares the scope of the function. -/
def opensAsBlock (kind : String) (parentKind : Option String) : Bool :=
  kind == "BlockStatement" && parentKind != some "FunctionDeclaration"

/-- How many scopes a node opens.  All of them lie in the scope it stands in, and
    its children stand in the last. -/
def openings (kind : String) (parentKind : Option String) : Nat :=
  (opensAsFunction kind).toNat + (opensAsLoop kind).toNat + (opensAsBlock kind parentKind).toNat

/-- Opens `count` scopes side by side in the given one. -/
def openMany (scope count : Nat) (store : ScopeStore) : ScopeStore :=
  (List.replicate count (some scope)).foldl ScopeStore.openScope store

/-- The store after a node in the given scope has opened its scopes, and the
    scope in which its children stand: the last one opened, if there is one. -/
def enter (kind : String) (parentKind : Option String) (node : Value) (scope : Nat)
    (store : ScopeStore) : ScopeStore × Nat :=
  let count := openings kind parentKind
  let opened := openMany scope count store
  -- Among several scopes opened here the first one is that of the function.
  (if declaresInside kind node then opened.declare store.size node else opened,
    if count = 0 then scope else store.size + count - 1)

end Scopes

/-- Builds the scope tree: records what a node declares in the scope handed down
    to it, and hands down the scope it opened last, if it opened any. -/
def collectScopes : Step ScopeStore Scopes.NotIterable Nat := fun node acc context =>
  return .routine do
    let scope := acc.getD 0
    let kind := (context.kindOf node).getD ""
    match Scopes.declared kind node with
    | .error error => throw error
    | .ok declarations =>
      -- What the node declares goes to the scope around it, before its own scopes are opened.
      let store := ScopeStore.declareAll (← get) scope declarations
      let (store, inner) := Scopes.enter kind context.parentKind node scope store
      set store
      return .suspended (some inner) fun _ _ => return .finished (some scope)

end TreeWalk
