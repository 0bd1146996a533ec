import TreeWalk.Value.Equality

/-! # Shared lists

The values that a described step hands around are data in which lists are
shared: a list lives in a store and is known by its number, so that what is
appended to it shows wherever it is held.  `ListStore.snapshot` is the plain value
of a datum at one moment. -/

namespace TreeWalk

/-- A datum: a plain value, a shared list, the results of children by field, or
    those of a sequence by position. -/
inductive Datum where
  | plain (value : Value)
  | shared (list : Nat)
  | byField (entries : List (Value × Datum))
  | byPosition (entries : List (Nat × Datum))

namespace Datum

/-- The absent datum as a value. -/
def ofOption (d : Option Datum) : Datum :=
  d.getD (.plain .null)

/-- A datum as a result: nothing counts as absent. -/
def toOption : Datum → Option Datum
  | .plain .null => none
  | d => some d

/-- The name of the type of a datum. -/
def typeName : Datum → String
  | .plain value => value.typeName
  | .shared _ => Grouping.typeName .list
  | .byField _ => Holder.typeName .dict
  | .byPosition _ => Holder.typeName .results

mutual

/-- The value of a datum, given the values of the shared lists. -/
def resolve (lists : Nat → Value) : Datum → Value
  | .plain value => value
  | .shared list => lists list
  | .byField entries => .record .dict (resolveFields lists entries) []
  | .byPosition entries => .record .results (resolvePositions lists entries) []

/-- The values of results by field. -/
def resolveFields (lists : Nat → Value) : List (Value × Datum) → List (Value × Value)
  | [] => []
  | (prop, d) :: rest => (prop, resolve lists d) :: resolveFields lists rest

/-- The values of results by position. -/
def resolvePositions (lists : Nat → Value) : List (Nat × Datum) → List (Value × Value)
  | [] => []
  | (i, d) :: rest => (.int i, resolve lists d) :: resolvePositions lists rest

end

/-- The results that a datum is made of, if it is the results of a sequence. -/
def parts? : Datum → Option (List (Option Datum))
  | .byPosition entries => some (entries.map fun entry => toOption entry.2)
  | .plain (.record .results entries _) =>
    some (entries.map fun entry => toOption (.plain entry.2))
  | _ => none

end Datum

/-- The shared lists by number. -/
abbrev ListStore := Array (List Datum)

namespace ListStore

/-- The value of a shared list, lists in lists followed `fuel` deep. -/
def listValue (store : ListStore) : Nat → Nat → Value
  | 0, _ => .list []
  | fuel + 1, list =>
    .list ((store[list]?.getD []).map (Datum.resolve (listValue store fuel)))

/-- The value of a datum at this moment.  A list that holds no list of its own
    kind within itself is nested no deeper than there are lists. -/
def snapshot (store : ListStore) (d : Datum) : Value :=
  -- One level more than there are lists, for the datum itself.
  d.resolve (listValue store (store.size + 1))

/-- The items of a shared list. -/
def items (store : ListStore) (list : Nat) : List Datum :=
  store[list]?.getD []

/-- A new shared list with the given items, and the store that has it. -/
def alloc (store : ListStore) (items : List Datum) : Datum × ListStore :=
  (.shared store.size, store.push items)

/-- The store with an item appended to a shared list. -/
def append (store : ListStore) (list : Nat) (item : Datum) : ListStore :=
  store.modify list fun items => items ++ [item]

/-- The datum for a value: a list becomes a new shared list. -/
def intern (store : ListStore) : Value → Datum × ListStore
  | .group .list items => store.alloc (items.map .plain)
  | value => (.plain value, store)

end ListStore

end TreeWalk
