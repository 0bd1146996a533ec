/-! # Integer numerals

Integers are read from their digits at any size up to a limit: a decimal numeral
of more than 4300 digits is refused, because reading it would take time quadratic
in its length.  A reader that is given no limit reads them all.  An integer of more
digits is not written either. -/

namespace TreeWalk

/-- A decimal numeral with more digits than are read. -/
structure NumeralTooLong where
  digits : Nat
  deriving DecidableEq, Repr

/-- An integer with more decimal digits than are written. -/
structure IntegerTooLong where
  deriving DecidableEq, Repr

namespace Numeral

/-- The greatest number of digits that is read or written. -/
def maxDigits : Nat := 4300

/-- The value of a digit, letters standing for ten and more. -/
def digitValue (c : Char) : Nat :=
  if c.isDigit then c.toNat - '0'.toNat
  else if 'a' ≤ c ∧ c ≤ 'z' then c.toNat - 'a'.toNat + 10
  else if 'A' ≤ c ∧ c ≤ 'Z' then c.toNat - 'A'.toNat + 10
  else 36

/-- The number that digits spell in the given base. -/
def value (base : Nat) (digits : List Char) : Nat :=
  digits.foldl (fun n c => n * base + digitValue c) 0

/-- The number that decimal digits spell, if they are no more than a limit allows. -/
def decimalUpTo (limit : Option Nat) (digits : List Char) : Except NumeralTooLong Nat :=
  if limit.all (digits.length ≤ ·) then .ok (value 10 digits) else .error ⟨digits.length⟩

/-- The number that decimal digits spell, if they are not too many. -/
def decimal (digits : List Char) : Except NumeralTooLong Nat :=
  decimalUpTo (some maxDigits) digits

/-- Whether a text consists of digits of the given base, at least one. -/
def isDigits (base : Nat) (cs : List Char) : Bool :=
  !cs.isEmpty && cs.all fun c => digitValue c < base

/-- Whether an integer has no more decimal digits than are written. -/
def fits (n : Int) : Bool :=
  (Nat.toDigits 10 n.natAbs).length ≤ maxDigits

/-- The decimal digits of an integer, behind a minus sign if it is negative. -/
def write (n : Int) : Except IntegerTooLong String :=
  if fits n then .ok (toString n) else .error {}

end Numeral

/-- The wording of the refusal. -/
def NumeralTooLong.message (e : NumeralTooLong) : String :=
  "Exceeds the limit (" ++ toString Numeral.maxDigits ++
    " digits) for integer string conversion: value has " ++ toString e.digits ++
    " digits; use sys.set_int_max_str_digits() to increase the limit"

/-- The wording of the refusal. -/
def IntegerTooLong.message (_ : IntegerTooLong) : String :=
  "Exceeds the limit (" ++ toString Numeral.maxDigits ++
    " digits) for integer string conversion; use sys.set_int_max_str_digits() to increase the limit"

end TreeWalk
