import TreeWalk.Value

/-! # Equality of values

Numbers are equal when their exact values are, whatever their types, so `1`,
`1.0` and `true` are one key of a dictionary.  Texts, days and bytes are equal
only to their like.  Groups of one shape are compared item by item (sets without
regard to order), mappings entry by entry without regard to order.  Objects and
nodes of source files are never equal: each is its own.

## Key results

* `Value.sameKey_self`: a dictionary finds every key again. -/

namespace TreeWalk

namespace Value

mutual

/-- Whether two values are equal. -/
def same : Value → Value → Bool
  | .null, other => match other with
    | .null => true
    | _ => false
  | .str s, other => match other with
    | .str t => s == t
    | _ => false
  | .bytes s, other => match other with
    | .bytes t => s == t
    | _ => false
  | .date s, other => match other with
    | .date t => s == t
    | _ => false
  | .bool b, other => sameNumber (.int b.toNat) other
  | .int i, other => sameNumber (.int i) other
  | .float x, other => sameNumber (.float x) other
  | .group shape items, other => match other with
    | .group shape' items' =>
      -- Sets of one size are equal if one holds all of the other.
      shape == shape' && items.length == items'.length &&
        (if shape == .set then allIn items items' else sameItems items items')
    | _ => false
  | .record holder entries _, other => match other with
    | .record holder' entries' _ =>
      holder.isMapping && holder'.isMapping && entries.length == entries'.length &&
        allEntriesIn entries entries'
    | _ => false

/-- Whether two lists are equal item by item. -/
def sameItems : List Value → List Value → Bool
  | [], ys => ys.isEmpty
  | x :: xs, ys => match ys with
    | [] => false
    | y :: ys => same x y && sameItems xs ys

/-- Whether every item of the first list equals one of the second. -/
def allIn : List Value → List Value → Bool
  | [], _ => true
  | x :: xs, ys => ys.any (fun y => same x y) && allIn xs ys

/-- Whether every entry of the first list has an equal one in the second. -/
def allEntriesIn : List (Value × Value) → List (Value × Value) → Bool
  | [], _ => true
  | (key, value) :: rest, others =>
    others.any (fun other => same key other.1 && same value other.2) && allEntriesIn rest others

/-- Whether a value is a number equal to the given one. -/
def sameNumber (n : Number) (other : Value) : Bool :=
  match other.number? with
  | some m => n.compare? m == some .eq
  | none => false

end

mutual

/-- Whether two values are alike in every detail, down to the bits of doubles. -/
def identical : Value → Value → Bool
  | .null, .null => true
  | .bool a, .bool b => a == b
  | .int i, .int j => i == j
  | .float x, .float y => x.toBits == y.toBits
  | .str s, .str t => s == t
  | .bytes s, .bytes t => s == t
  | .date s, .date t => s == t
  | .group shape items, .group shape' items' => shape == shape' && identicalItems items items'
  | .record holder entries aside, .record holder' entries' aside' =>
    holder == holder' && identicalEntries entries entries' && identicalEntries aside aside'
  | _, _ => false

/-- Whether two lists are alike item by item. -/
def identicalItems : List Value → List Value → Bool
  | [], [] => true
  | x :: xs, y :: ys => identical x y && identicalItems xs ys
  | _, _ => false

/-- Whether two lists of entries are alike entry by entry. -/
def identicalEntries : List (Value × Value) → List (Value × Value) → Bool
  | [], [] => true
  | (key, value) :: rest, (key', value') :: rest' =>
    identical key key' && identical value value' && identicalEntries rest rest'
  | _, _ => false

end

/-- Whether two values are one key of a dictionary: equal ones are, and so is a value
    with itself even where it equals nothing, as an object or not a number. -/
def sameKey (key other : Value) : Bool :=
  key.same other || key.identical other

mutual

theorem identical_self : ∀ value : Value, value.identical value = true
  | .null => rfl
  | .bool b => by simp [identical]
  | .int i => by simp [identical]
  | .float x => by simp [identical]
  | .str s => by simp [identical]
  | .bytes data => by simp [identical]
  | .date day => by simp [identical]
  | .group shape items => by simp [identical, identicalItems_self items]
  | .record holder entries aside => by
    simp [identical, identicalEntries_self entries, identicalEntries_self aside]

theorem identicalItems_self : ∀ items : List Value, identicalItems items items = true
  | [] => rfl
  | item :: rest => by
    simp [identicalItems, identical_self item, identicalItems_self rest]

theorem identicalEntries_self : ∀ entries : List (Value × Value),
    identicalEntries entries entries = true
  | [] => rfl
  | (key, value) :: rest => by
    simp [identicalEntries, identical_self key, identical_self value, identicalEntries_self rest]

end

@[simp] theorem sameKey_self (key : Value) : key.sameKey key = true := by
  simp [sameKey, identical_self]

@[simp] theorem same_str (key : Value) (s : String) : key.same (.str s) = key.isText s := by
  cases key with
  | str t => simp [same, isText]
  | bool b => simp [same, sameNumber, number?, isText]
  | int i => simp [same, sameNumber, number?, isText]
  | float x => simp [same, sameNumber, number?, isText]
  | _ => simp [same, isText]

theorem sameKey_str (s t : String) : (Value.str s).sameKey (.str t) = (s == t) := by
  simp [sameKey, isText, identical]

/-- Whether a value is equal to one of a list. -/
def memberOf (value : Value) (values : List Value) : Bool :=
  values.any fun other => value.same other

/-- Whether the value can be a key: lists, sets and dictionaries cannot, and a
    tuple can when its items can. -/
def hashable : Value → Bool
  | .group .list _ => false
  | .group .set _ => false
  | .group .tuple items => hashableAll items
  | .record .dict _ _ | .record .results _ _ => false
  | _ => true
where
  /-- Whether every item can be a key. -/
  hashableAll : List Value → Bool
  | [] => true
  | x :: xs => hashable x && hashableAll xs

/-- Stores `value` under `key`: a key that is `found` again keeps its place and its
    spelling, a new one goes to the end. -/
def store (found : Value → Value → Bool) (key value : Value) :
    List (Value × Value) → List (Value × Value)
  | [] => [(key, value)]
  | (k, v) :: rest =>
    if found k key then (k, value) :: rest else (k, v) :: store found key value rest

/-- The entry stored under a key equal to `key`. -/
def find? (key : Value) : List (Value × Value) → Option Value
  | [] => none
  | (k, v) :: rest => if k.same key then some v else find? key rest

/-- Stores entries in order, later ones replacing earlier ones of an equal key. -/
def storeAll (entries : List (Value × Value)) : List (Value × Value) :=
  entries.foldl (fun stored entry => store same entry.1 entry.2 stored) []

/-- Stores entries in order as `storeAll` does, where a key that equals nothing is one
    value wherever it is written, so that it is found again too. -/
def storeShared (entries : List (Value × Value)) : List (Value × Value) :=
  entries.foldl (fun stored entry => store sameKey entry.1 entry.2 stored) []

end Value

end TreeWalk
