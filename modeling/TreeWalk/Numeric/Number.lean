import TreeWalk.Numeric.Binary64

/-! # Numbers of literals

A numeric literal is an integer of any size or a double.  Sums, differences and
products of two integers are integers; as soon as a double takes part both
operands are doubles.  A quotient is always a double: of two integers the double
nearest to the exact quotient, rounded once. -/

namespace TreeWalk

/-- An integer of any size, or a double. -/
inductive Number where
  | int (value : Int)
  | float (value : Float)

/-- Why an operation on two numbers has no result. -/
inductive ArithmeticError where
  /-- An integer divided by the integer zero. -/
  | divisionByZero
  /-- A division by zero in which a double takes part. -/
  | floatDivisionByZero
  /-- An integer outside the range of doubles met a double. -/
  | integerTooLarge
  /-- The quotient of two integers is outside the range of doubles. -/
  | quotientTooLarge
  deriving DecidableEq, Repr

/-- The wording of an arithmetic error. -/
def ArithmeticError.message : ArithmeticError → String
  | .divisionByZero => "division by zero"
  | .floatDivisionByZero => "float division by zero"
  | .integerTooLarge => "int too large to convert to float"
  | .quotientTooLarge => "integer division result too large for a float"

namespace Number

/-- The double nearest to an integer. -/
def ofInt (i : Int) : Except ArithmeticError Float :=
  match Binary64.nearest? (i < 0) i.natAbs 1 with
  | some x => .ok x
  | none => .error .integerTooLarge

/-- The number as a double. -/
def toFloat : Number → Except ArithmeticError Float
  | .int i => ofInt i
  | .float x => .ok x

/-- Applies one operation to two integers and another as soon as a double takes
    part. -/
def lift (ints : Int → Int → Int) (floats : Float → Float → Float) :
    Number → Number → Except ArithmeticError Number
  | .int a, .int b => .ok (.int (ints a b))
  | a, b => do
    -- Both operands are converted before the operation, so the left one fails first.
    let x ← a.toFloat
    let y ← b.toFloat
    return .float (floats x y)

def add : Number → Number → Except ArithmeticError Number := lift (· + ·) (· + ·)

def sub : Number → Number → Except ArithmeticError Number := lift (· - ·) (· - ·)

def mul : Number → Number → Except ArithmeticError Number := lift (· * ·) (· * ·)

/-- The double nearest to the quotient of two integers.  A zero quotient is
    negative when the signs of the operands differ. -/
def divInt (a b : Int) : Except ArithmeticError Number :=
  if b = 0 then .error .divisionByZero
  else
    match Binary64.nearest? (decide (a < 0) != decide (b < 0)) a.natAbs b.natAbs with
    | some x => .ok (.float x)
    | none => .error .quotientTooLarge

def div : Number → Number → Except ArithmeticError Number
  | .int a, .int b => divInt a b
  | a, b => do
    let x ← a.toFloat
    let y ← b.toFloat
    if y == 0 then .error .floatDivisionByZero else return .float (x / y)

/-- The order of two exact values, `none` when one of them is not a number. -/
def compareExact : Binary64 → Binary64 → Option Ordering
  | .nan, _ | _, .nan => none
  | .infinite a, .infinite b => some (compare b.toNat a.toNat)
  | .infinite a, .finite .. => some (if a then .lt else .gt)
  | .finite .., .infinite b => some (if b then .gt else .lt)
  | .finite sa ma ea, .finite sb mb eb =>
    -- On a common exponent the mantissas are compared as integers.
    let low := min ea eb
    let a : Int := (ma : Int) * (Binary64.twoPow (ea - low).toNat : Int)
    let b : Int := (mb : Int) * (Binary64.twoPow (eb - low).toNat : Int)
    some (compare (if sa then -a else a) (if sb then -b else b))

/-- The exact value of a number; an integer has exponent zero. -/
def exact : Number → Binary64
  | .int i => .finite (i < 0) i.natAbs 0
  | .float x => .ofFloat x

/-- Compares two numbers exactly, without rounding an integer to a double. -/
def compare? (a b : Number) : Option Ordering :=
  compareExact a.exact b.exact

end Number

end TreeWalk
