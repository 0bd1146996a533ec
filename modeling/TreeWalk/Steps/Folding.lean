import TreeWalk.Walk

/-! # Folding arithmetic

`Folding.step` evaluates numeric binary expressions from the leaves upwards.  A
numeric literal evaluates to its value; a binary expression whose operator is
selected combines its operands once they have been visited, and its value is
reported; every other node has no value.

## Key results

* `Folding.select` accepts exactly the operators that are supported.
* `Folding.combine` is what a selected expression does with its operands. -/

namespace TreeWalk

/-- The binary operators of arithmetic. -/
inductive Operator where
  | plus
  | minus
  | times
  | over
  deriving DecidableEq, Repr

namespace Operator

def symbol : Operator → String
  | .plus => "+"
  | .minus => "-"
  | .times => "*"
  | .over => "/"

/-- The operator written with the given symbol. -/
def ofSymbol? : String → Option Operator
  | "+" => some .plus
  | "-" => some .minus
  | "*" => some .times
  | "/" => some .over
  | _ => none

theorem ofSymbol?_symbol (op : Operator) : ofSymbol? op.symbol = some op := by
  cases op <;> rfl

/-- The operator that a node class of a parsed source file stands for. -/
def ofForm? : String → Option Operator
  | "Add" => some .plus
  | "Sub" => some .minus
  | "Mult" => some .times
  | "Div" => some .over
  | _ => none

/-- The value of an operator on two numbers. -/
def apply : Operator → Number → Number → Except ArithmeticError Number
  | .plus => Number.add
  | .minus => Number.sub
  | .times => Number.mul
  | .over => Number.div

end Operator

namespace Folding

/-- Why a fold failed. -/
inductive Error where
  /-- An operand of a selected expression has no value. -/
  | notNumeric (kind location : String)
  /-- The operands are numbers without a result. -/
  | arithmetic (error : ArithmeticError)
  /-- An operand is the results of a sequence; the types of both are named. -/
  | unsupported (op : Operator) (left right : String)
  deriving DecidableEq, Repr

/-- The wording of a failure. -/
def Error.message : Error → String
  | .notNumeric kind location => "Non-numeric operand in " ++ kind ++ " at " ++ location
  | .arithmetic error => error.message
  | .unsupported op left right =>
    "unsupported operand type(s) for " ++ op.symbol ++ ": " ++ Quoted.text left ++ " and " ++
      Quoted.text right

/-- Symbols were asked for that are no supported operators. -/
structure UnknownOperators where
  symbols : List String
  deriving DecidableEq, Repr

/-- The unknown symbols are named once each, in ascending order. -/
def UnknownOperators.message (e : UnknownOperators) : String :=
  "Unsupported operators: " ++
    ", ".intercalate (e.symbols.eraseDups.mergeSort fun a b => decide (a ≤ b))

/-- The operators asked for, if all of them are supported. -/
def select (symbols : List String) : Except UnknownOperators (List Operator) :=
  match symbols.filter fun symbol => (Operator.ofSymbol? symbol).isNone with
  | [] => .ok (symbols.filterMap Operator.ofSymbol?)
  | unknown => .error ⟨unknown⟩

/-- The operators folded unless others are asked for. -/
def defaultOperators : List Operator := [.plus]

/-- The kinds of numeric literals. -/
def isLiteralKind (kind : Option String) : Bool :=
  kind == some "NumericLiteral" || kind == some "Literal" || kind == some "Constant"

/-- The kinds of binary expressions. -/
def isBinaryKind (kind : Option String) : Bool :=
  kind == some "BinaryExpression" || kind == some "BinOp"

/-- The number a literal holds; truth values are no numbers here. -/
def literal? (node : Value) : Option Number :=
  match node.lookup "value" with
  | some (.int i) => some (.int i)
  | some (.float x) => some (.float x)
  | _ => none

/-- The operator of a binary expression: its symbol if it has one, otherwise the
    class of its operator node. -/
def operator? (node : Value) : Option Operator :=
  -- An operator that is no text is passed over.
  match node.lookup "operator" with
  | some (.str symbol) => Operator.ofSymbol? symbol
  | _ => match node.lookup "op" with
    | some (.record (.form className) _ _) => Operator.ofForm? className
    | _ => none

/-- What a node is to a fold. -/
inductive Role where
  /-- A literal, with its number if it holds one. -/
  | literal (value : Option Number)
  /-- A binary expression with a selected operator. -/
  | binary (op : Operator)
  /-- Anything else. -/
  | other

/-- What the node of the given kind is to a fold with the operators selected. -/
def role (selected : List Operator) (kind : Option String) (node : Value) : Role :=
  if isLiteralKind kind then .literal (literal? node)
  else if isBinaryKind kind then
    match operator? node with
    | some op => if selected.contains op then .binary op else .other
    | none => .other
  else .other

/-- The name of the type of a number. -/
def typeName : Number → String
  | .int _ => "int"
  | .float _ => "float"

/-- The name of the type of what an operand field holds. -/
def operandType : FieldResult Number → String
  | .single (some n) => typeName n
  | .single none => Value.typeName .null
  | .sequence _ => Holder.typeName .results

/-- Combines the results found in the two operand fields of an expression at the
    given place. -/
def combine (op : Operator) (kind location : String) :
    Option (FieldResult Number) → Option (FieldResult Number) → Except Error Number
  | none, _ | _, none | some (.single none), _ | _, some (.single none) =>
    -- A missing operand counts before one that is a sequence.
    .error (.notNumeric kind location)
  | some (.single (some a)), some (.single (some b)) => (op.apply a b).mapError .arithmetic
  | some a, some b => .error (.unsupported op (operandType a) (operandType b))

/-- Evaluates binary expressions with a selected operator and reports their
    values, in the order in which they are computed, by appending them to the
    state; a silent fold reports nothing. -/
def step (selected : List Operator) (silent : Bool := false) :
    Step (List Number) Error Number := fun node _ context =>
  let kind := context.kindOf node
  return .routine <| match role selected kind node with
    | .literal value => return .finished value
    | .other => return .finished none
    | .binary op => return .suspended none fun children context => do
      match combine op (kind.getD "None") context.describe (children.get? "left")
          (children.get? "right") with
      | .error error => throw error
      | .ok value =>
        unless silent do modify (· ++ [value])
        return .finished (some value)

end Folding

end TreeWalk
