import TreeWalk.Tree
import TreeWalk.Value.Equality

/-! # Results of the children

A suspended step is resumed with the results of the node's children: by field
name a single result, or for a sequence field the results by position.  The
engine gathers them one visit at a time, in visiting order, with
`Children.ofVisits`; `Children.results` lists them again. -/

namespace TreeWalk

/-- What a field contributed: the result of the one child it holds, or the
    results of the children among its items by position.  `none` is the absent
    result. -/
inductive FieldResult (α : Type) where
  | single (result : Option α)
  | sequence (results : List (Nat × Option α))

/-- Adds the result of a child to what its field contributed so far. -/
def FieldResult.add {α : Type} (index : Option Nat) (result : Option α) :
    Option (FieldResult α) → FieldResult α
  | some (.sequence results) => match index with
    | some i => .sequence (results ++ [(i, result)])
    | none => .single result
  | _ => match index with
    | some i => .sequence [(i, result)]
    | none => .single result

/-- The results of a node's children by field, in field order; fields without
    children are absent. -/
abbrev Children (α : Type) := List (Value × FieldResult α)

namespace Children

variable {α : Type}

/-- Records the result of the child in `slot`. -/
def record (slot : Slot) (result : Option α) : Children α → Children α
  | [] => [(slot.prop, FieldResult.add slot.index result none)]
  | (prop, found) :: rest =>
    if prop.sameKey slot.prop then (prop, FieldResult.add slot.index result (some found)) :: rest
    else (prop, found) :: record slot result rest

/-- The results of the children from those of the visits, in visiting order. -/
def ofVisits (visits : List (Slot × Option α)) : Children α :=
  visits.foldl (fun children visit => record visit.1 visit.2 children) []

/-- What the field called `name` contributed. -/
def get? (name : String) (children : Children α) : Option (FieldResult α) :=
  (children.find? fun field => field.1.isText name).map Prod.snd

/-- Every child result in field and position order.  `parts` takes apart a
    result that is itself the results of a sequence: such a result is flattened
    when it stands for a field of its own, but not inside a sequence. -/
def results (parts : α → Option (List (Option α))) (children : Children α) : List (Option α) :=
  children.flatMap fun field => match field.2 with
    | .sequence results => results.map Prod.snd
    | .single (some result) => (parts result).getD [some result]
    | .single none => [none]

/-- Every child result, for results that are never taken apart. -/
def all (children : Children α) : List (Option α) :=
  children.results fun _ => none

/-- Reads a mapping as the results of children; another value is none. -/
def ofValue? : Value → Option (Children Value)
  | .record holder entries _ =>
    if holder.isMapping then some (entries.map fun e => (e.1, .single (some e.2))) else none
  | _ => none

end Children

/-- The results that a value is made of, if it is the results of a sequence. -/
def Value.parts? : Value → Option (List (Option Value))
  | .record .results entries _ => some (entries.map fun e => some e.2)
  | _ => none

/-- Every child result in a mapping that holds the results of children. -/
def Value.childResults? (v : Value) : Option (List Value) :=
  (Children.ofValue? v).map fun children => (children.results Value.parts?).map (·.getD .null)

end TreeWalk
