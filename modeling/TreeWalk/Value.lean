import TreeWalk.Numeric.Number

/-! # Values

The documents that are walked are trees of dynamic values: atoms, groups of
items and records of named parts.  The same named parts can be held in several
ways, a plain dictionary, a read-only mapping, an object with attributes, an
object with declared fields, or a node of a parsed source file; `Holder` says
which, so that whatever looks only at the parts need not know.  An atom of yet
another type is a record too, one whose attributes can only be looked up.

Values are finite: no group or record lies inside itself.  A text is a sequence of
characters, so that half of a surrogate pair is in none.

## Key results

* `Value.isTrue` says which values count as true where a condition is asked.
* `Value.lookup` finds a named part however it is held. -/

namespace TreeWalk

/-- A calendar day. -/
structure Date where
  year : Nat
  month : Nat
  day : Nat
  deriving DecidableEq, Repr

/-- How a group of items is held. -/
inductive Grouping where
  | list
  | tuple
  | set
  deriving DecidableEq, Repr

/-- What is known of a value of another type than those below: how messages show it, how it
    appears inside a sentence, and whether it counts as true.  A time of day with its date is one,
    or a complex number. -/
structure Foreign where
  typeName : String
  display : String
  plain : String
  isTrue : Bool := true
  deriving DecidableEq, Repr

/-- How named parts are held together. -/
inductive Holder where
  /-- A dictionary in insertion order. -/
  | dict
  /-- A read-only mapping that is not a dictionary. -/
  | mapping
  /-- The results of a sequence field by position. -/
  | results
  /-- An object with attributes of its own and of its class. -/
  | object
  /-- An object with declared fields, and attributes set besides them. -/
  | declared
  /-- An object whose attributes can be looked up but not listed. -/
  | slots
  /-- A node of a parsed source file, of the class named. -/
  | form (className : String)
  /-- A value of another type, whose attributes can be looked up but not listed. -/
  | foreign (value : Foreign)
  deriving DecidableEq, Repr

/-- A dynamic value. -/
inductive Value where
  | null
  | bool (b : Bool)
  | int (i : Int)
  | float (x : Float)
  | str (s : String)
  | bytes (data : List UInt8)
  | date (day : Date)
  | group (shape : Grouping) (items : List Value)
  /-- Named parts in order.  `aside` holds parts that a look-up finds but that are
      not listed: class attributes, or attributes besides the declared fields. -/
  | record (holder : Holder) (entries : List (Value × Value)) (aside : List (Value × Value))

instance : Inhabited Value := ⟨.null⟩

/-- Whether the parts are reached by key rather than by attribute. -/
def Holder.isMapping : Holder → Bool
  | .dict | .mapping | .results => true
  | .object | .declared | .slots | .form _ | .foreign _ => false

/-- The name of the type of a record, as messages give it. -/
def Holder.typeName : Holder → String
  | .dict => "dict"
  | .mapping => "FrozenMap"
  | .results => "SequenceResults"
  | .object | .declared | .slots => "Node"
  | .form className => className
  | .foreign value => value.typeName

/-- Whether a record counts as true, given whether it has entries: a mapping without any does
    not. -/
def Holder.isTrue (holder : Holder) (hasEntries : Bool) : Bool :=
  match holder with
  | .foreign value => value.isTrue
  | .dict | .mapping | .results => hasEntries
  | .object | .declared | .slots | .form _ => true

def Grouping.typeName : Grouping → String
  | .list => "list"
  | .tuple => "tuple"
  | .set => "set"

namespace Value

/-- A dictionary. -/
abbrev dict (entries : List (Value × Value)) : Value := .record .dict entries []

/-- A list. -/
abbrev list (items : List Value) : Value := .group .list items

/-- The name of the type of a value, as messages give it. -/
def typeName : Value → String
  | .null => "NoneType"
  | .bool _ => "bool"
  | .int _ => "int"
  | .float _ => "float"
  | .str _ => "str"
  | .bytes _ => "bytes"
  | .date _ => "datetime.date"
  | .group shape _ => shape.typeName
  | .record holder _ _ => holder.typeName

/-- Whether the value counts as true: zeros, empty texts, empty groups and empty
    mappings do not. -/
def isTrue : Value → Bool
  | .null => false
  | .bool b => b
  | .int i => i != 0
  | .float x => x != 0
  | .str s => !s.isEmpty
  | .bytes data => !data.isEmpty
  | .date _ => true
  | .group _ items => !items.isEmpty
  | .record holder entries _ => holder.isTrue !entries.isEmpty

/-- The number a value stands for in arithmetic: truth values count as 0 and 1. -/
def number? : Value → Option Number
  | .bool b => some (.int b.toNat)
  | .int i => some (.int i)
  | .float x => some (.float x)
  | _ => none

/-- The text of a string. -/
def text? : Value → Option String
  | .str s => some s
  | _ => none

/-- Whether the value is the string `s`. -/
def isText (s : String) : Value → Bool
  | .str t => t == s
  | _ => false

/-- The first entry whose key is the string `name`. -/
def entry? (name : String) : List (Value × Value) → Option Value
  | [] => none
  | (key, value) :: rest => if key.isText name then some value else entry? name rest

/-- The part called `name`: a key of a mapping, otherwise an attribute, those
    listed before those aside. -/
def lookup (name : String) : Value → Option Value
  | .record holder entries aside =>
    match entry? name entries with
    | some value => some value
    | none => if holder.isMapping then none else entry? name aside
  | _ => none

end Value

end TreeWalk
