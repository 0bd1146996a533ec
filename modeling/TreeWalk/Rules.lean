import TreeWalk.Rules.Store
import TreeWalk.Value.Order
import TreeWalk.Walk

/-! # Steps described by rules

A step can be described by a list of rules: the first rule that matches the node
says how the step runs there, what it hands down and what it returns, each by an
expression.  `Rules.step` runs such a description and records what happens, with
the accumulator and the children's results as they are at that moment. -/

namespace TreeWalk

namespace Rules

/-- What a described step computes with. -/
inductive Expr where
  | absent
  | acc
  | kind
  | depth
  | location
  | parentKind
  /-- The field and position of every entry of the path. -/
  | path
  /-- The results of the children by field. -/
  | children
  /-- The results of the children one after the other. -/
  | results
  /-- The sum of the results. -/
  | sum
  /-- The greatest of the results, zero if there are none. -/
  | max
  /-- The number of fields with children. -/
  | count
  | const (value : Value)
  | child (name : Value)
  | field (name : String)
  | list (items : List Expr)
  | add (left right : Expr)
  /-- Appends to the accumulator in place. -/
  | append (item : Expr)

/-- How a described step runs. -/
inductive Form where
  /-- It returns when called. -/
  | plain
  /-- It finishes once started, without suspending. -/
  | early
  /-- It suspends and is resumed. -/
  | twoPhase
  deriving DecidableEq, Repr

/-- When a described step is made to fail. -/
inductive Phase where
  | called
  | resumed
  | closed
  deriving DecidableEq, Repr

/-- A failure that a rule asks for. -/
structure Fault where
  phase : Phase
  className : String
  text : String

/-- What must hold at a node for a rule to apply; what is not given is not asked
    for. -/
structure Condition where
  kind : Option Value := none
  depth : Option Value := none
  prop : Option Value := none
  index : Option Value := none

/-- A rule of a described step. -/
structure Rule where
  condition : Condition := {}
  form : Form := .plain
  result : Expr := .absent
  yielded : Expr := .absent
  /-- How often the step suspends. -/
  suspensions : Nat := 1
  fault : Option Fault := none

/-- What applies at nodes that no rule matches. -/
def fallback : Rule := { result := .acc }

/-- Why a described step failed. -/
inductive Error where
  | fault (className text : String)
  | operands (error : OperandError)
  /-- A value of the type named was to be appended to. -/
  | noAppend (typeName : String)

/-- The wording of a failure; a missing key is shown in quotes. -/
def Error.message : Error → String
  | .fault className text => if className == "KeyError" then Quoted.text text else text
  | .operands error => error.message
  | .noAppend typeName => Quoted.text typeName ++ " object has no attribute 'append'"

/-- What happened during the walk. -/
inductive Event where
  | logged (line : String)
  | entered (kind : Option String) (location : String) (acc : Value)
  | resumed (kind : Option String) (location : String) (children : Value)
  | closed (kind : Option String) (location : String)

/-- The shared lists, and what happened so far. -/
structure State where
  lists : ListStore := #[]
  events : Array Event := #[]

/-- A computation of a described step. -/
abbrev Action := EStateM Error State

/-- What an expression may refer to. -/
structure Scene where
  node : Value
  acc : Option Datum
  context : Context
  children : Option (Children Datum) := none

/-- Text as a value, nothing if there is none. -/
def ofText (s : Option String) : Value :=
  match s with
  | some s => .str s
  | none => .null

/-- The datum of a list of data. -/
def newList (items : List Datum) : Action Datum := do
  let (d, lists) := (← get).lists.alloc items
  modify fun s => { s with lists }
  return d

/-- The datum of a value. -/
def intern (value : Value) : Action Datum := do
  let (d, lists) := (← get).lists.intern value
  modify fun s => { s with lists }
  return d

/-- The present value of a datum. -/
def snapshot (d : Datum) : Action Value :=
  return (← get).lists.snapshot d

/-- The datum of what a field contributed. -/
def ofField : FieldResult Datum → Datum
  | .single result => .ofOption result
  | .sequence results => .byPosition (results.map fun entry => (entry.1, .ofOption entry.2))

/-- The datum of the children's results. -/
def ofChildren (children : Children Datum) : Datum :=
  .byField (children.map fun field => (field.1, ofField field.2))

/-- The results of the children one after the other. -/
def resultsOf (children : Option (Children Datum)) : List Datum :=
  ((children.getD []).results Datum.parts?).map Datum.ofOption

/-- The sum of two data; two lists give a new list. -/
def addData (a b : Datum) : Action Datum := do
  match a, b with
  | .shared a, .shared b =>
    let lists := (← get).lists
    newList (lists.items a ++ lists.items b)
  | _, _ =>
    match Value.add (← snapshot a) (← snapshot b) with
    | .ok value => return .plain value
    | .error error => throw (.operands error)

/-- The greatest of some data, the first of several equal ones. -/
def greatest : List Datum → Action Datum
  | [] => return .plain (.int 0)
  | first :: rest => rest.foldlM (fun best d => do
      match Value.greater (← snapshot d) (← snapshot best) with
      | .ok isGreater => return if isGreater then d else best
      | .error error => throw (.operands error)) first

mutual

/-- The value of an expression. -/
def eval (scene : Scene) : Expr → Action Datum
  | .absent => return .plain .null
  | .acc => return .ofOption scene.acc
  | .kind => return .plain (ofText (scene.context.kindOf scene.node))
  | .depth => return .plain (.int scene.context.depth)
  | .location => return .plain (.str scene.context.describe)
  | .parentKind => return .plain (ofText scene.context.parentKind)
  | .path => do
    let entries ← scene.context.path.mapM fun entry =>
      newList [.plain entry.prop, .plain (match entry.index with
        | some i => .int i
        | none => .null)]
    newList entries
  | .children => return ofChildren (scene.children.getD [])
  | .results => newList (resultsOf scene.children)
  | .sum => (resultsOf scene.children).foldlM addData (.plain (.int 0))
  | .max => greatest (resultsOf scene.children)
  | .count => return .plain (.int (scene.children.getD []).length)
  | .const value => intern value
  | .child name =>
    match (scene.children.getD []).find? fun field => field.1.same name with
    | some (_, result) => return ofField result
    | none => return .plain .null
  | .field name => intern ((scene.node.lookup name).getD .null)
  | .list items => do newList (← evalAll scene items)
  | .add left right => do addData (← eval scene left) (← eval scene right)
  | .append item => do
    match Datum.ofOption scene.acc with
    | .shared list =>
      let item ← eval scene item
      modify fun s => { s with lists := s.lists.append list item }
      return .shared list
    | other => throw (.noAppend other.typeName)

/-- The values of expressions, in order. -/
def evalAll (scene : Scene) : List Expr → Action (List Datum)
  | [] => return []
  | e :: rest => do
    let first ← eval scene e
    return first :: (← evalAll scene rest)

end

/-- Whether a condition holds at a node of the given kind. -/
def Condition.holds (c : Condition) (kind : Option String) (context : Context) : Bool :=
  let last := context.path.getLast?
  let index : Value := match last.bind PathEntry.index with
    | some i => .int i
    | none => .null
  asks c.kind (ofText kind) && asks c.depth (.int context.depth) &&
    asks c.prop ((last.map PathEntry.prop).getD .null) && asks c.index index
where
  /-- Whether a value is what was asked for, if anything was. -/
  asks (wanted : Option Value) (found : Value) : Bool :=
    match wanted with
    | some wanted => wanted.same found
    | none => true

/-- Records an event. -/
def record (event : Event) : Action Unit :=
  modify fun s => { s with events := s.events.push event }

/-- Fails if the rule asks for it in this phase. -/
def Rule.failIn (rule : Rule) (phase : Phase) : Action Unit :=
  match rule.fault with
  | some fault => if fault.phase = phase then throw (.fault fault.className fault.text) else pure ()
  | none => pure ()

/-- The second phase of a described step. -/
def Rule.resume (rule : Rule) (scene : Scene) (children : Children Datum) (context : Context) :
    Action (Resumed State Error Datum) := do
  let scene := { scene with children := some children, context }
  let kind := context.kindOf scene.node
  record (.resumed kind context.describe (← snapshot (ofChildren children)))
  rule.failIn .resumed
  -- A step that suspends again is closed by the walk, so it never gets to a result.
  if rule.suspensions ≤ 1 then
    return .finished (← eval scene rule.result).toOption
  else
    let _ ← eval scene rule.yielded
    return .suspended fun context => do
      record (.closed (context.kindOf scene.node) context.describe)
      rule.failIn .closed

/-- The step that a list of rules describes. -/
def step (rules : List Rule) : Step State Error Datum := fun node acc context => do
  let kind := context.kindOf node
  let rule := (rules.find? fun rule => rule.condition.holds kind context).getD fallback
  let scene : Scene := { node, acc, context }
  -- The accumulator is recorded as it is now; a later append must not show here.
  record (.entered kind context.describe (← snapshot (.ofOption acc)))
  rule.failIn .called
  match rule.form with
  | .plain => return .returned (← eval scene rule.result).toOption
  | .early => return .routine do return .finished (← eval scene rule.result).toOption
  | .twoPhase => return .routine do
      let yielded ← eval scene rule.yielded
      return .suspended yielded.toOption (rule.resume scene)

/-- Walks below `root` with a described step, recording log lines among the other
    events. -/
def run (rules : List Rule) (root : Value) (init : Value) (adapter : Option Adapter)
    (verbosity : Option Verbosity) : Ending State Error Datum :=
  let (acc, lists) := ListStore.intern #[] init
  let logger := verbosity.map fun v : Verbosity =>
    { verbosity := .level v
      emit := fun line s => { s with events := s.events.push (.logged line) } : Logger State }
  traverse root (step rules) acc.toOption { lists } adapter logger

end Rules

end TreeWalk
