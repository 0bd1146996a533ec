import TreeWalk.Form
import TreeWalk.Value.Equality

/-! # Adapters

An adapter decides which values are nodes and enumerates the fields of a node in
a stable order.  The tagged family takes any record that carries a string under
the tag field for a node; the source family takes the nodes of parsed source
files.  Both leave out the fields of a skip set.

## Key results

* `Adapter.kindOf` is the kind of a node, `none` for a value that is not one.
* `Adapter.fields?` lists the fields; only the source family can refuse, and only
  a value that is not one of its nodes. -/

namespace TreeWalk

/-- A family of tree nodes. -/
inductive Family where
  /-- Records with a string under the field named. -/
  | tagged (tagField : String)
  /-- Nodes of parsed source files. -/
  | source
  deriving DecidableEq, Repr

/-- The tag field used unless another is asked for. -/
def defaultTagField : String := "type"

/-- A family of nodes and the names of the fields to leave out. -/
structure Adapter where
  family : Family
  skip : List Value

namespace Adapter

/-- Takes records tagged by `tagField` for nodes and skips the fields named. -/
def tagged (tagField : String := defaultTagField) (skip : List Value := []) : Adapter :=
  ⟨.tagged tagField, skip⟩

/-- Takes the nodes of parsed source files for nodes and skips the fields named. -/
def source (skip : List Value := []) : Adapter :=
  ⟨.source, skip⟩

/-- The adapter for a root when none is given: the source family for a node of a
    parsed source file, otherwise records tagged by the default field. -/
def default : Value → Adapter
  | .record (.form _) _ _ => source
  | _ => tagged

/-- The kind of a node: its tag, or the class of a node of a source file. -/
def kindOf (a : Adapter) (value : Value) : Option String :=
  match a.family with
  | .tagged tagField => (value.lookup tagField).bind Value.text?
  | .source => match value with
    | .record (.form className) _ _ => some className
    | _ => none

/-- Whether the value is a node. -/
def isNode (a : Adapter) (value : Value) : Bool :=
  (a.kindOf value).isSome

/-- Whether the field called `name` is left out. -/
def skips (a : Adapter) (name : Value) : Bool :=
  name.memberOf a.skip

/-- Whether a field name is hidden by its leading underscore. -/
def isHidden : Value → Bool
  | .str s => s.startsWith "_"
  | _ => false

/-- Puts what was found for the entries of a record into the order of its fields,
    leaving out what is not a field: mappings and declared fields are taken as
    they are, attributes only if they are not hidden, and the fields of a node of
    a source file in the order of its class when its own family looks at it.
    `unset` stands for an optional field that was not set. -/
def arrange (a : Adapter) (holder : Holder) (entries : List (Value × α)) (unset : α) :
    List (Value × α) :=
  let all := match holder with
    | .dict | .mapping | .results | .declared => entries
    | .object => entries.filter fun entry => !isHidden entry.1
    | .slots | .foreign _ => []
    | .form className => match a.family with
      | .tagged _ => entries.filter fun entry => !isHidden entry.1
      | .source => Form.arrange className entries unset
  all.filter fun entry => !a.skips entry.1

/-- Whether the adapter can list the fields of a value. -/
def reads (a : Adapter) (value : Value) : Bool :=
  match a.family with
  | .tagged _ => true
  | .source => a.isNode value

/-- The fields of a value in order; a value without named parts has none, and
    the source family has no answer for a value that is not one of its nodes. -/
def fields? (a : Adapter) (value : Value) : Option (List (Value × Value)) :=
  if a.reads value then
    match value with
    | .record holder entries _ => some (a.arrange holder entries .null)
    | _ => some []
  else
    none

end Adapter

end TreeWalk
