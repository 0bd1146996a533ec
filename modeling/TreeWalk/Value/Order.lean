import TreeWalk.Value.Equality

/-! # Sums and order of values

Numbers are added and ordered as numbers, truth values among them counting as 0
and 1.  Texts, lists, tuples and bytes are added by appending and ordered by the
first place where they differ; days are ordered by the calendar.  Other pairs of
values have no sum and no order. -/

namespace TreeWalk

/-- Why two values have no sum or no order. -/
inductive OperandError where
  /-- The operator is not defined on operands of the types named. -/
  | unsupported (symbol left right : String)
  /-- Only its like can be appended to a sequence of the type named. -/
  | cannotConcatenate (left right : String)
  /-- The operands, of the types named, have no order. -/
  | unordered (left right : String)
  | arithmetic (error : ArithmeticError)
  deriving DecidableEq, Repr

/-- The wording of an operand error. -/
def OperandError.message : OperandError → String
  | .unsupported symbol left right =>
    "unsupported operand type(s) for " ++ symbol ++ ": '" ++ left ++ "' and '" ++ right ++ "'"
  | .cannotConcatenate left right =>
    if left == "bytes" then "can't concat " ++ right ++ " to bytes"
    else "can only concatenate " ++ left ++ " (not \"" ++ right ++ "\") to " ++ left
  | .unordered left right =>
    "'>' not supported between instances of '" ++ left ++ "' and '" ++ right ++ "'"
  | .arithmetic error => error.message

namespace Value

/-- The value that holds a number. -/
def ofNumber : Number → Value
  | .int i => .int i
  | .float x => .float x

/-- The sum of two values that are not both lists or tuples of one shape. -/
def addAtoms (a b : Value) : Except OperandError Value :=
  match a, b with
  | .str s, .str t => .ok (.str (s ++ t))
  | .str _, _ => .error (.cannotConcatenate a.typeName b.typeName)
  | .bytes s, .bytes t => .ok (.bytes (s ++ t))
  | .bytes _, _ => .error (.cannotConcatenate a.typeName b.typeName)
  | .group .list _, _ | .group .tuple _, _ =>
    .error (.cannotConcatenate a.typeName b.typeName)
  | _, _ => match a.number?, b.number? with
    | some m, some n => (m.add n).map ofNumber |>.mapError .arithmetic
    | _, _ => .error (.unsupported "+" a.typeName b.typeName)

/-- The sum of two values. -/
def add (a b : Value) : Except OperandError Value :=
  match a, b with
  | .group .list xs, .group .list ys => .ok (.group .list (xs ++ ys))
  | .group .tuple xs, .group .tuple ys => .ok (.group .tuple (xs ++ ys))
  | _, _ => addAtoms a b

/-- The order of two byte sequences, the shorter first where one continues the
    other. -/
def compareBytes : List UInt8 → List UInt8 → Ordering
  | [], [] => .eq
  | [], _ :: _ => .lt
  | _ :: _, [] => .gt
  | a :: as, b :: bs => (compare a.toNat b.toNat).then (compareBytes as bs)

/-- The order of two days. -/
def compareDates (a b : Date) : Ordering :=
  (compare a.year b.year).then ((compare a.month b.month).then (compare a.day b.day))

mutual

/-- Whether `a` is greater than `b`. -/
def greater (a b : Value) : Except OperandError Bool :=
  match a, b with
  | .str s, .str t => .ok (decide (t < s))
  | .bytes s, .bytes t => .ok (compareBytes s t == .gt)
  | .date s, .date t => .ok (compareDates s t == .gt)
  | .group shape xs, .group shape' ys =>
    if shape == shape' then
      -- Sets are ordered by inclusion.
      if shape == .set then
        .ok (allIn ys xs && decide (ys.length < xs.length))
      else greaterItems xs ys
    else .error (.unordered shape.typeName shape'.typeName)
  | a, b => match a.number?, b.number? with
    | some m, some n => .ok (m.compare? n == some .gt)
    | _, _ => .error (.unordered a.typeName b.typeName)

/-- Whether the first sequence is greater: at the first place where they differ,
    or because it continues the other. -/
def greaterItems : List Value → List Value → Except OperandError Bool
  | [], _ => .ok false
  | _ :: _, [] => .ok true
  | x :: xs, y :: ys => if x.same y then greaterItems xs ys else greater x y

end

end Value

end TreeWalk
