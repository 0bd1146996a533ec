import TreeWalk.Form
import TreeWalk.Source.Fault

/-! # Expressions of source files

An expression is built from names, constants and operators, and what binds closer
stands deeper in it.  As a node it says of every place that can be written to whether
it is read or written there.

## Key results

* `Expression.node` is the node of an expression.
* `Parse.expression` reads one expression, `Parse.expressions` several parted by
  commas, which make a tuple. -/

namespace TreeWalk

namespace Source

inductive Expression where
  | name (id : String)
  /-- A constant; `isMarked` says whether it is a string marked as text. -/
  | constant (value : Value) (isMarked : Bool)
  | attribute (object : Expression) (name : String)
  | subscript (object index : Expression)
  | call (function : Expression) (arguments : List Expression)
      (named : List (String × Expression))
  | unary (operator : String) (operand : Expression)
  | binary (left : Expression) (operator : String) (right : Expression)
  | boolean (operator : String) (operands : List Expression)
  | compare (left : Expression) (operators : List String) (others : List Expression)
  | tuple (items : List Expression)
  | list (items : List Expression)

/-- Whether a place is read or written. -/
inductive Access where
  | load
  | store
  deriving DecidableEq, Repr

/-- A node without fields. -/
def bareNode (className : String) : Value :=
  Form.node className []

def Access.node : Access → Value
  | .load => bareNode "Load"
  | .store => bareNode "Store"

namespace Expression

mutual

/-- The node of an expression whose place is read or written. -/
def node : Expression → Access → Value
  | .name id, access => Form.node "Name" [("id", .str id), ("ctx", access.node)]
  | .constant value isMarked, _ =>
    Form.node "Constant" [("value", value), ("kind", if isMarked then .str "u" else .null)]
  | .attribute object part, access =>
    Form.node "Attribute" [("value", node object .load), ("attr", .str part), ("ctx", access.node)]
  | .subscript object index, access =>
    Form.node "Subscript"
      [("value", node object .load), ("slice", node index .load), ("ctx", access.node)]
  | .call function arguments named, _ =>
    Form.node "Call" [("func", node function .load), ("args", .list (nodes arguments .load)),
      ("keywords", .list (namedNodes named))]
  | .unary operator operand, _ =>
    Form.node "UnaryOp" [("op", bareNode operator), ("operand", node operand .load)]
  | .binary left operator right, _ =>
    Form.node "BinOp"
      [("left", node left .load), ("op", bareNode operator), ("right", node right .load)]
  | .boolean operator operands, _ =>
    Form.node "BoolOp" [("op", bareNode operator), ("values", .list (nodes operands .load))]
  | .compare left operators others, _ =>
    Form.node "Compare" [("left", node left .load), ("ops", .list (operators.map bareNode)),
      ("comparators", .list (nodes others .load))]
  | .tuple items, access =>
    Form.node "Tuple" [("elts", .list (nodes items access)), ("ctx", access.node)]
  | .list items, access =>
    Form.node "List" [("elts", .list (nodes items access)), ("ctx", access.node)]

/-- The nodes of expressions. -/
def nodes : List Expression → Access → List Value
  | [], _ => []
  | e :: rest, access => node e access :: nodes rest access

/-- The nodes of named arguments. -/
def namedNodes : List (String × Expression) → List Value
  | [] => []
  | (label, e) :: rest =>
    Form.node "keyword" [("arg", .str label), ("value", node e .load)] :: namedNodes rest

end

/-- Whether the expression is a single place that can be written to. -/
def isPlace : Expression → Bool
  | .name _ | .attribute .. | .subscript .. => true
  | _ => false

mutual

/-- Whether the expression can be assigned to: a place, or places in a tuple or a
    list. -/
def isTarget : Expression → Bool
  | .name _ | .attribute .. | .subscript .. => true
  | .tuple items | .list items => areTargets items
  | _ => false

/-- Whether all expressions can be assigned to. -/
def areTargets : List Expression → Bool
  | [] => true
  | e :: rest => isTarget e && areTargets rest

end

end Expression

/-! ## Operators -/

/-- The operators between two operands with the classes of their nodes, those that
    bind less first. -/
def binaryOperators : List (List (String × String)) :=
  [[("|", "BitOr")], [("^", "BitXor")], [("&", "BitAnd")], [("<<", "LShift"), (">>", "RShift")],
   [("+", "Add"), ("-", "Sub")],
   [("*", "Mult"), ("/", "Div"), ("//", "FloorDiv"), ("%", "Mod"), ("@", "MatMult")]]

/-- The operators in front of an operand. -/
def signs : List (String × String) :=
  [("-", "USub"), ("+", "UAdd"), ("~", "Invert")]

/-- The comparisons that are symbols. -/
def comparisons : List (String × String) :=
  [("==", "Eq"), ("!=", "NotEq"), ("<", "Lt"), ("<=", "LtE"), (">", "Gt"), (">=", "GtE")]

namespace Parse

/-- The class of the operator that comes next, if it is one of those given. -/
def operator? (table : List (String × String)) : Parse (Option String) := do
  match (← head).lexeme with
  | .symbol text =>
    match table.lookup text with
    | some className =>
      skip
      return some className
    | none => return none
  | _ => return none

/-- The class of the comparison that comes next, if one does. -/
def comparison? : Parse (Option String) := do
  if let some className := ← operator? comparisons then return some className
  if ← skipKeyword "in" then return some "In"
  if ← skipKeyword "not" then
    -- These two comparisons are two words.
    needKeyword "in"
    return some "NotIn"
  if ← skipKeyword "is" then
    if ← skipKeyword "not" then return some "IsNot" else return some "Is"
  return none

/-- Whether an expression can start with a token. -/
def startsExpression : Lexeme → Bool
  | .name _ | .numeral _ | .string _ _ => true
  | .keyword text => ["None", "True", "False", "not"].contains text
  | .symbol text => ["(", "[", "-", "+", "~"].contains text
  | _ => false

/-- Whether a token can come right after an expression only because a comma is
    missing between them.  A name that has other uses, or a string after a name, has
    other explanations. -/
def missesComma (first second : Lexeme) (after : Token) : Bool :=
  -- A bracket or a sign would go on with the expression, so it is not listed here.
  let startsAnother := match after.lexeme with
    | .name _ | .numeral _ | .string _ _ => true
    | .keyword text => ["None", "True", "False", "not"].contains text
    | _ => false
  let isExplained := match first, second with
    | .name text, second =>
      ["_", "case", "match"].contains text || (match second with
        | .string _ _ => true
        | _ => false)
    | _, _ => false
  startsAnother && after.depth != 0 && !isExplained

/-- Puts strings side by side together; they must all be text or all be bytes. -/
def join? : List Value → Option Value
  | [] => none
  | [value] => some value
  | value :: rest =>
    match value, join? rest with
    | .str s, some (.str t) => some (.str (s ++ t))
    | .bytes s, some (.bytes t) => some (.bytes (s ++ t))
    | _, _ => none

/-- The strings that come next; `none` stands for one that spells nothing. -/
def strings : Nat → Parse (List (Option Value))
  | 0 => reject
  | fuel + 1 => do
    match (← head).lexeme with
    | .string value _ =>
      skip
      return value :: (← strings fuel)
    | _ => return []

/-- A constant or a name. -/
def word : Parse Expression := do
  let token ← head
  match token.lexeme with
  | .name text =>
    skip
    return .name text
  | .keyword "None" =>
    skip
    return .constant .null false
  | .keyword "True" =>
    skip
    return .constant (.bool true) false
  | .keyword "False" =>
    skip
    return .constant (.bool false) false
  | .numeral (.ok (.int n)) =>
    skip
    return .constant (.int n) false
  | .numeral (.ok (.float x)) =>
    skip
    return .constant (.float x) false
  | .numeral (.error _) => rejectAt token.line
  | .string _ isMarked =>
    let values ← strings (← fuel)
    match (values.mapM id).bind join? with
    | some value => return .constant value isMarked
    | none => rejectAt (← head).line
  | _ => reject

mutual

/-- An expression.  If another one follows inside brackets, a comma is missing, and
    that is reported where this one starts. -/
def expression : Nat → Parse Expression
  | 0 => reject
  | fuel + 1 => do
    let start ← head
    let second := ((← get).tail.headD start).lexeme
    let e ← disjunction fuel
    let after ← head
    if missesComma start.lexeme second after then
      let rest ← get
      -- A fault of the second expression does not count, unless the text itself ends there.
      tryCatch (discard (disjunction fuel)) fun fault => do
        match fault.token.lexeme with
        | .stop _ => throw fault
        | _ => reject
      set rest
      rejectAt start.line
    return e

/-- Operands parted by `or`. -/
def disjunction : Nat → Parse Expression
  | 0 => reject
  | fuel + 1 => do
    let first ← conjunction fuel
    match ← alternatives fuel with
    | [] => return first
    | rest => return .boolean "Or" (first :: rest)

/-- The operands after the first one of a disjunction. -/
def alternatives : Nat → Parse (List Expression)
  | 0 => reject
  | fuel + 1 => do
    if ← skipKeyword "or" then
      let e ← conjunction fuel
      return e :: (← alternatives fuel)
    else return []

/-- Operands parted by `and`. -/
def conjunction : Nat → Parse Expression
  | 0 => reject
  | fuel + 1 => do
    let first ← inversion fuel
    match ← conjuncts fuel with
    | [] => return first
    | rest => return .boolean "And" (first :: rest)

/-- The operands after the first one of a conjunction. -/
def conjuncts : Nat → Parse (List Expression)
  | 0 => reject
  | fuel + 1 => do
    if ← skipKeyword "and" then
      let e ← inversion fuel
      return e :: (← conjuncts fuel)
    else return []

/-- A comparison or its negation. -/
def inversion : Nat → Parse Expression
  | 0 => reject
  | fuel + 1 => do
    if ← skipKeyword "not" then return .unary "Not" (← inversion fuel)
    let left ← binary binaryOperators fuel
    match ← compared fuel with
    | [] => return left
    | rest => return .compare left (rest.map Prod.fst) (rest.map Prod.snd)

/-- The comparisons after the first operand of a chain. -/
def compared : Nat → Parse (List (String × Expression))
  | 0 => reject
  | fuel + 1 => do
    match ← comparison? with
    | some className =>
      let e ← binary binaryOperators fuel
      return (className, e) :: (← compared fuel)
    | none => return []

/-- Operands between which operators of the given levels may stand. -/
def binary (levels : List (List (String × String))) : Nat → Parse Expression
  | 0 => reject
  | fuel + 1 => do
    match levels with
    | [] => factor fuel
    | table :: tighter =>
      let first ← binary tighter fuel
      binaryRest table tighter first fuel

/-- The operands after the first one, operators of one level grouping to the left. -/
def binaryRest (table : List (String × String)) (tighter : List (List (String × String)))
    (left : Expression) : Nat → Parse Expression
  | 0 => reject
  | fuel + 1 => do
    match ← operator? table with
    | some className =>
      let right ← binary tighter fuel
      binaryRest table tighter (.binary left className right) fuel
    | none => return left

/-- A signed operand or a power. -/
def factor : Nat → Parse Expression
  | 0 => reject
  | fuel + 1 => do
    if let some className := ← operator? signs then return .unary className (← factor fuel)
    let base ← primary fuel
    -- A power binds closer than a sign on its left, but not than one on its right.
    if ← skipSymbol "**" then return .binary base "Pow" (← factor fuel)
    return base

/-- An atom with the attributes, calls and subscripts after it. -/
def primary : Nat → Parse Expression
  | 0 => reject
  | fuel + 1 => do
    let e ← atom fuel
    trailers e fuel

/-- What comes after an atom. -/
def trailers (e : Expression) : Nat → Parse Expression
  | 0 => reject
  | fuel + 1 => do
    if ← skipSymbol "." then
      let name ← needName
      trailers (.attribute e name) fuel
    else if ← skipSymbol "(" then
      let (arguments, named) ← arguments false fuel
      trailers (.call e arguments named) fuel
    else if ← skipSymbol "[" then
      let index ← expressions fuel
      needSymbol "]"
      trailers (.subscript e index) fuel
    else return e

/-- The arguments of a call up to the closing bracket.  Named ones come last. -/
def arguments (hasNamed : Bool) : Nat → Parse (List Expression × List (String × Expression))
  | 0 => reject
  | fuel + 1 => do
    if ← skipSymbol ")" then return ([], [])
    match ← get with
    | ⟨.name name, _, _⟩ :: ⟨.symbol "=", _, _⟩ :: _ =>
      skip
      skip
      let e ← expression fuel
      let (others, named) ← moreArguments true fuel
      return (others, (name, e) :: named)
    | _ =>
      let e ← expression fuel
      -- An argument without a name may not stand behind one with a name.
      if hasNamed then rejectAt (← head).line
      let (others, named) ← moreArguments hasNamed fuel
      return (e :: others, named)

/-- The arguments after a comma, if there is one. -/
def moreArguments (hasNamed : Bool) : Nat → Parse (List Expression × List (String × Expression))
  | 0 => reject
  | fuel + 1 => do
    if ← skipSymbol "," then arguments hasNamed fuel
    else
      needSymbol ")"
      return ([], [])

/-- A name, a constant, or what stands in brackets. -/
def atom : Nat → Parse Expression
  | 0 => reject
  | fuel + 1 => do
    if ← skipSymbol "(" then
      -- Brackets with nothing in them are the empty tuple, and with a single expression they mean
      -- nothing.
      if ← skipSymbol ")" then return .tuple []
      let e ← expressions fuel
      needSymbol ")"
      return e
    else if ← skipSymbol "[" then
      if ← skipSymbol "]" then return .list []
      let first ← expression fuel
      let items ← moreItems fuel
      needSymbol "]"
      return .list (first :: items)
    else word

/-- One expression, or a tuple of several parted by commas. -/
def expressions : Nat → Parse Expression
  | 0 => reject
  | fuel + 1 => do
    let first ← expression fuel
    if ← atSymbol "," then return .tuple (first :: (← moreItems fuel))
    else return first

/-- The expressions after the first one; a comma may stand after the last one. -/
def moreItems : Nat → Parse (List Expression)
  | 0 => reject
  | fuel + 1 => do
    if ← skipSymbol "," then
      -- A comma at the end is followed by nothing.
      if startsExpression (← head).lexeme then
        let e ← expression fuel
        return e :: (← moreItems fuel)
      else return []
    else return []

end

end Parse

end Source

end TreeWalk
