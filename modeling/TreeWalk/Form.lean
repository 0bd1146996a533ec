import TreeWalk.Value

/-! # Node classes of parsed source files

A node of a parsed source file belongs to a class of the grammar of Python 3.11, and
the class fixes which of its attributes are fields and in which order.  An optional
field that was not set is there all the same and holds nothing; a required one that was
not set is left out.  Attributes besides the fields can be looked up but are no fields. -/

namespace TreeWalk

namespace Form

/-- A field of a class. -/
structure Field where
  name : String
  isOptional : Bool
  deriving DecidableEq, Repr

private def required (name : String) : Field := ⟨name, false⟩

private def optional (name : String) : Field := ⟨name, true⟩

/-- The fields of a class of Python 3.11 in order.  All classes with fields are listed: the others
    stand for operators, for statements of one word or for what is done with a name, or are only
    there to be derived from, and have none. -/
def fieldsOf : String → List Field
  -- Roots.
  | "Module" => [required "body", required "type_ignores"]
  | "Interactive" => [required "body"]
  | "Expression" => [required "body"]
  | "FunctionType" => [required "argtypes", required "returns"]
  -- Statements.
  | "FunctionDef" | "AsyncFunctionDef" =>
    [required "name", required "args", required "body", required "decorator_list",
     optional "returns", optional "type_comment"]
  | "ClassDef" =>
    [required "name", required "bases", required "keywords", required "body",
     required "decorator_list"]
  | "Return" => [optional "value"]
  | "Delete" => [required "targets"]
  | "Assign" => [required "targets", required "value", optional "type_comment"]
  | "AugAssign" => [required "target", required "op", required "value"]
  | "AnnAssign" => [required "target", required "annotation", optional "value", required "simple"]
  | "For" | "AsyncFor" =>
    [required "target", required "iter", required "body", required "orelse",
     optional "type_comment"]
  | "While" => [required "test", required "body", required "orelse"]
  | "If" => [required "test", required "body", required "orelse"]
  | "With" | "AsyncWith" => [required "items", required "body", optional "type_comment"]
  | "Match" => [required "subject", required "cases"]
  | "Raise" => [optional "exc", optional "cause"]
  | "Try" | "TryStar" =>
    [required "body", required "handlers", required "orelse", required "finalbody"]
  | "Assert" => [required "test", optional "msg"]
  | "Import" => [required "names"]
  | "ImportFrom" => [optional "module", required "names", optional "level"]
  | "Global" | "Nonlocal" => [required "names"]
  | "Expr" => [required "value"]
  -- Expressions.
  | "BoolOp" => [required "op", required "values"]
  | "NamedExpr" => [required "target", required "value"]
  | "BinOp" => [required "left", required "op", required "right"]
  | "UnaryOp" => [required "op", required "operand"]
  | "Lambda" => [required "args", required "body"]
  | "IfExp" => [required "test", required "body", required "orelse"]
  | "Dict" => [required "keys", required "values"]
  | "Set" => [required "elts"]
  | "ListComp" | "SetComp" | "GeneratorExp" => [required "elt", required "generators"]
  | "DictComp" => [required "key", required "value", required "generators"]
  | "Await" => [required "value"]
  | "Yield" => [optional "value"]
  | "YieldFrom" => [required "value"]
  | "Compare" => [required "left", required "ops", required "comparators"]
  | "Call" => [required "func", required "args", required "keywords"]
  | "FormattedValue" => [required "value", required "conversion", optional "format_spec"]
  | "JoinedStr" => [required "values"]
  | "Constant" => [required "value", optional "kind"]
  | "Attribute" => [required "value", required "attr", required "ctx"]
  | "Subscript" => [required "value", required "slice", required "ctx"]
  | "Starred" => [required "value", required "ctx"]
  | "Name" => [required "id", required "ctx"]
  | "List" | "Tuple" => [required "elts", required "ctx"]
  | "Slice" => [optional "lower", optional "upper", optional "step"]
  -- Parts of statements and expressions.
  | "comprehension" => [required "target", required "iter", required "ifs", required "is_async"]
  | "ExceptHandler" => [optional "type", optional "name", required "body"]
  | "arguments" =>
    [required "posonlyargs", required "args", optional "vararg", required "kwonlyargs",
     required "kw_defaults", optional "kwarg", required "defaults"]
  | "arg" => [required "arg", optional "annotation", optional "type_comment"]
  | "keyword" => [optional "arg", required "value"]
  | "alias" => [required "name", optional "asname"]
  | "withitem" => [required "context_expr", optional "optional_vars"]
  -- Patterns, and marks for type checkers.
  | "match_case" => [required "pattern", optional "guard", required "body"]
  | "MatchValue" => [required "value"]
  | "MatchSingleton" => [required "value"]
  | "MatchSequence" => [required "patterns"]
  | "MatchMapping" => [required "keys", required "patterns", optional "rest"]
  | "MatchClass" =>
    [required "cls", required "patterns", required "kwd_attrs", required "kwd_patterns"]
  | "MatchStar" => [optional "name"]
  | "MatchAs" => [optional "pattern", optional "name"]
  | "MatchOr" => [required "patterns"]
  | "TypeIgnore" => [required "lineno", required "tag"]
  | _ => []

/-- The fields of a node in the order of its class, out of its attributes. -/
def arrange (className : String) (attributes : List (Value × α)) (unset : α) :
    List (Value × α) :=
  (fieldsOf className).filterMap fun field =>
    match attributes.find? (fun entry => entry.1.isText field.name) with
    | some (_, value) => some (.str field.name, value)
    | none => if field.isOptional then some (.str field.name, unset) else none

/-- A node with the given fields. -/
def node (className : String) (fields : List (String × Value)) : Value :=
  .record (.form className) (fields.map fun field => (.str field.1, field.2)) []

end Form

end TreeWalk
