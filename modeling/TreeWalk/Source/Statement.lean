import TreeWalk.Source.Expression

/-! # Statements of source files

A source file is a list of statements.  Simple ones stand on a line, parted by
semicolons; compound ones have blocks, which are indented or stand on the line of
the colon.  An `elif` is a conditional of its own in the other branch of the one
before.

The commonest statements and expressions are read, and a file with any other is taken for
one that is not well formed.

## Key results

* `Source.read` reads a whole file and gives its node. -/

namespace TreeWalk

namespace Source

/-- A name that is imported, and the name it is given. -/
structure Import where
  name : String
  asName : Option String

inductive Statement where
  | evaluate (e : Expression)
  | assign (targets : List Expression) (value : Expression)
  | augment (target : Expression) (operator : String) (value : Expression)
  | leave (value : Option Expression)
  /-- A statement that is one word, with the class of its node. -/
  | word (className : String)
  | bring (imports : List Import)
  | conditional (test : Expression) (body orelse : List Statement)
  | whileLoop (test : Expression) (body orelse : List Statement)
  | forLoop (target source : Expression) (body orelse : List Statement)
  /-- A function; the defaults are those of its last parameters. -/
  | function (name : String) (parameters : List String) (defaults : List Expression)
      (body : List Statement)
  | definition (name : String) (bases : List Expression) (named : List (String × Expression))
      (body : List Statement)

/-! ## Nodes -/

def Import.node (i : Import) : Value :=
  Form.node "alias"
    [("name", .str i.name), ("asname", (i.asName.map Value.str).getD .null)]

/-- The node of the parameters of a function. -/
def parametersNode (parameters : List String) (defaults : List Expression) : Value :=
  let parameter := fun name => Form.node "arg"
    [("arg", .str name), ("annotation", .null), ("type_comment", .null)]
  Form.node "arguments"
    [("posonlyargs", .list []), ("args", .list (parameters.map parameter)), ("vararg", .null),
     ("kwonlyargs", .list []), ("kw_defaults", .list []), ("kwarg", .null),
     ("defaults", .list (Expression.nodes defaults .load))]

namespace Statement

mutual

def node : Statement → Value
  | .evaluate e => Form.node "Expr" [("value", e.node .load)]
  | .assign targets value =>
    Form.node "Assign" [("targets", .list (Expression.nodes targets .store)),
      ("value", value.node .load), ("type_comment", .null)]
  | .augment target operator value =>
    Form.node "AugAssign" [("target", target.node .store), ("op", bareNode operator),
      ("value", value.node .load)]
  | .leave none => Form.node "Return" [("value", .null)]
  | .leave (some value) => Form.node "Return" [("value", value.node .load)]
  | .word className => bareNode className
  | .bring imports => Form.node "Import" [("names", .list (imports.map Import.node))]
  | .conditional test body orelse =>
    Form.node "If" [("test", test.node .load), ("body", .list (nodes body)),
      ("orelse", .list (nodes orelse))]
  | .whileLoop test body orelse =>
    Form.node "While" [("test", test.node .load), ("body", .list (nodes body)),
      ("orelse", .list (nodes orelse))]
  | .forLoop target source body orelse =>
    Form.node "For" [("target", target.node .store), ("iter", source.node .load),
      ("body", .list (nodes body)), ("orelse", .list (nodes orelse)), ("type_comment", .null)]
  | .function name parameters defaults body =>
    Form.node "FunctionDef" [("name", .str name), ("args", parametersNode parameters defaults),
      ("body", .list (nodes body)), ("decorator_list", .list []), ("returns", .null),
      ("type_comment", .null)]
  | .definition name bases named body =>
    Form.node "ClassDef" [("name", .str name), ("bases", .list (Expression.nodes bases .load)),
      ("keywords", .list (Expression.namedNodes named)), ("body", .list (nodes body)),
      ("decorator_list", .list [])]

/-- The nodes of statements. -/
def nodes : List Statement → List Value
  | [] => []
  | s :: rest => node s :: nodes rest

end

end Statement

namespace Parse

/-! ## Simple statements -/

/-- The operators of assignments that change a place. -/
def augmentations : List (String × String) :=
  (binaryOperators.flatten ++ [("**", "Pow")]).map fun operator => (operator.1 ++ "=", operator.2)

/-- The values after the targets of an assignment; each but the last is a target
    too. -/
def assigned (targets : List Expression) : Nat → Parse Statement
  | 0 => reject
  | n + 1 => do
    let line := (← head).line
    let value ← expressions (← fuel)
    if ← atSymbol "=" then
      -- What is assigned to was read as a value before.
      if !value.isTarget then rejectAt line
      skip
      assigned (targets ++ [value]) n
    else return .assign targets value

/-- An expression or an assignment. -/
def evaluation : Parse Statement := do
  let line := (← head).line
  let e ← expressions (← fuel)
  if ← atSymbol "=" then
    if !e.isTarget then rejectAt line
    skip
    return ← assigned [e] (← fuel)
  if let some className := ← operator? augmentations then
    -- Only a single place can be changed.
    if !e.isPlace then rejectAt line
    return .augment e className (← expressions (← fuel))
  return .evaluate e

/-- The rest of a name with dots in it. -/
def dottedName (first : String) : Nat → Parse String
  | 0 => reject
  | n + 1 => do
    if ← skipSymbol "." then
      let next ← needName
      dottedName (first ++ "." ++ next) n
    else return first

/-- One name of an import. -/
def importItem : Parse Import := do
  let first ← needName
  let name ← dottedName first (← fuel)
  if ← skipKeyword "as" then return ⟨name, some (← needName)⟩ else return ⟨name, none⟩

/-- The names of an import, parted by commas. -/
def importItems : Nat → Parse (List Import)
  | 0 => reject
  | n + 1 => do
    let item ← importItem
    if ← skipSymbol "," then return item :: (← importItems n) else return [item]

/-- A statement without a block. -/
def simple : Parse Statement := do
  if ← skipKeyword "pass" then return .word "Pass"
  if ← skipKeyword "break" then return .word "Break"
  if ← skipKeyword "continue" then return .word "Continue"
  if ← skipKeyword "import" then return .bring (← importItems (← fuel))
  if ← skipKeyword "return" then
    if startsExpression (← head).lexeme then return .leave (some (← expressions (← fuel)))
    else return .leave none
  evaluation

/-- The statements of a line, parted by semicolons. -/
def simples : Nat → Parse (List Statement)
  | 0 => reject
  | n + 1 => do
    let s ← simple
    -- A semicolon may stand behind the last statement of the line.
    let more ← skipSymbol ";"
    if ← atLineEnd then
      skip
      return [s]
    else if more then return s :: (← simples n)
    else reject

/-! ## Compound statements -/

/-- The parameters of a function up to the closing bracket, and the defaults.  After
    the first default each parameter needs one. -/
def parameters (hasDefault : Bool) : Nat → Parse (List String × List Expression)
  | 0 => reject
  | n + 1 => do
    if ← skipSymbol ")" then return ([], [])
    let line := (← head).line
    let name ← needName
    let default ← if ← skipSymbol "=" then
        let e ← expression (← fuel)
        pure [e]
      else if hasDefault then rejectAt line
      else pure []
    let (names, defaults) ←
      if ← skipSymbol "," then parameters (hasDefault || !default.isEmpty) n
      else do
        needSymbol ")"
        pure ([], [])
    return (name :: names, default ++ defaults)

/-- The target of a loop, parted from what is looped over. -/
def loopTarget : Parse Expression := do
  let line := (← head).line
  let first ← primary (← fuel)
  let target ← if ← atSymbol "," then do
      pure (Expression.tuple (first :: (← targetsAfter (← fuel))))
    else pure first
  -- The target was read as an expression, so it is checked now.
  if !target.isTarget then rejectAt line
  return target
where
  /-- The targets after a comma. -/
  targetsAfter : Nat → Parse (List Expression)
  | 0 => reject
  | n + 1 => do
    if ← skipSymbol "," then
      if startsExpression (← head).lexeme then
        let e ← primary (← fuel)
        return e :: (← targetsAfter n)
      else return []
    else return []

mutual

/-- One compound statement, or the simple ones of a line. -/
def statement : Nat → Parse (List Statement)
  | 0 => reject
  | n + 1 => do
    if ← skipKeyword "if" then return [← conditional n]
    if ← skipKeyword "while" then
      let test ← expression (← fuel)
      let body ← block n
      return [.whileLoop test body (← otherwise n)]
    if ← skipKeyword "for" then
      let target ← loopTarget
      needKeyword "in"
      let source ← expressions (← fuel)
      let body ← block n
      return [.forLoop target source body (← otherwise n)]
    if ← skipKeyword "def" then
      let name ← needName
      needSymbol "("
      let (names, defaults) ← parameters false (← fuel)
      return [.function name names defaults (← block n)]
    if ← skipKeyword "class" then
      let name ← needName
      let (bases, named) ← if ← skipSymbol "(" then arguments false (← fuel) else pure ([], [])
      return [.definition name bases named (← block n)]
    simples (← fuel)

/-- A conditional after its first word. -/
def conditional : Nat → Parse Statement
  | 0 => reject
  | n + 1 => do
    let test ← expression (← fuel)
    let body ← block n
    -- What follows is the only statement of the other branch.
    if ← skipKeyword "elif" then return .conditional test body [← conditional n]
    return .conditional test body (← otherwise n)

/-- The block after `else`, if there is one. -/
def otherwise : Nat → Parse (List Statement)
  | 0 => reject
  | n + 1 => do
    if ← skipKeyword "else" then block n else return []

/-- A block after its colon: the rest of the line, or indented lines. -/
def block : Nat → Parse (List Statement)
  | 0 => reject
  | n + 1 => do
    needSymbol ":"
    if ← atLineEnd then
      skip
      let token ← head
      match token.lexeme with
      | .indent =>
        skip
        indented n
      | _ => rejectAt token.line
    else simples (← fuel)

/-- The statements of an indented block, at least one, up to its end. -/
def indented : Nat → Parse (List Statement)
  | 0 => reject
  | n + 1 => do
    let first ← statement n
    match (← head).lexeme with
    | .dedent =>
      skip
      return first
    | _ => return first ++ (← indented n)

end

/-- The statements of a whole file. -/
def statements : Nat → Parse (List Statement)
  | 0 => reject
  | n + 1 => do
    match (← head).lexeme with
    | .textEnd => return []
    | _ =>
      let first ← statement n
      return first ++ (← statements n)

end Parse

/-! ## Files -/

/-- Why a source file has no tree. -/
inductive Error where
  /-- The file is not well formed; the line at fault. -/
  | malformed (line : Nat)
  /-- The file holds the character that ends texts. -/
  | nullCharacter
  deriving DecidableEq, Repr

/-- What is said of a file that holds the character that ends texts. -/
def nullCharacterMessage : String :=
  "source code string cannot contain null bytes"

/-- Reads a whole file and gives its node. -/
def read (text : List Char) : Except Error Value :=
  if text.contains '\x00' then .error .nullCharacter
  else
    let tokens := Token.scan text
    match (Parse.statements (32 * (tokens.length + 2))).run' tokens with
    | .ok body =>
      .ok (Form.node "Module" [("body", .list (Statement.nodes body)), ("type_ignores", .list [])])
    | .error fault => .error (.malformed (fault.report tokens))

end Source

end TreeWalk
