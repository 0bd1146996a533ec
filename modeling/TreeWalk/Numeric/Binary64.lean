/-! # Doubles as exact numbers

A finite double is an integer multiple of a power of two.  This file gives that
view (`Binary64.ofFloat`) and the way back: `Binary64.nearest` takes a positive
quotient of two natural numbers to the closest double, a tie going to the even
mantissa.  All of it is natural-number arithmetic, so quotients of integers of
any size and decimal numerals of any length round only once. -/

namespace TreeWalk

/-- The exact value of a double: not a number, an infinity, or
    `± mantissa · 2 ^ exponent`. -/
inductive Binary64 where
  | nan
  | infinite (negative : Bool)
  | finite (negative : Bool) (mantissa : Nat) (exponent : Int)
  deriving DecidableEq, Repr

namespace Binary64

/-- The power of two with the given exponent. -/
def twoPow (n : Nat) : Nat :=
  Nat.pow 2 n

/-- The exponent of the smallest positive double. -/
def minExponent : Int := -1074

/-- The bits of positive infinity, one above those of the largest finite double. -/
def infinityBits : Nat := 0x7FF0000000000000

/-- Reads sign, exponent and mantissa out of the 64 bits of a double. -/
def ofBits (bits : UInt64) : Binary64 :=
  let n := bits.toNat
  let negative := n / twoPow 63 == 1
  let biased : Nat := n / twoPow 52 % 2048
  let fraction : Nat := n % twoPow 52
  -- The greatest exponent stands for the infinities and for what is no number.
  if biased = 2047 then
    if fraction = 0 then .infinite negative else .nan
  else if biased = 0 then
    .finite negative fraction minExponent
  else
    .finite negative (twoPow 52 + fraction) ((biased : Int) - 1075)

/-- The exact value of `x`. -/
def ofFloat (x : Float) : Binary64 :=
  ofBits x.toBits

/-- `num / den` to the nearest natural number, a tie going to the even one. -/
def roundHalfEven (num den : Nat) : Nat :=
  let quotient := num / den
  let twice := 2 * (num % den)
  if twice > den || (twice == den && quotient % 2 == 1) then quotient + 1 else quotient

/-- The largest `e` with `2 ^ e ≤ num / den`, for positive `num` and `den`. -/
def floorLog2 (num den : Nat) : Int :=
  let e : Int := (num.log2 : Int) - (den.log2 : Int)
  -- The two logarithms give the exponent up to one.
  if den * twoPow e.toNat ≤ num * twoPow (-e).toNat then e else e - 1

/-- The bits of the double nearest to the positive quotient `num / den`; a
    result of at least `infinityBits` says that the quotient is out of range. -/
def nearestBits (num den : Nat) : Nat :=
  -- All digits of the mantissa are used, unless the exponent can go no lower.
  let q := max (floorLog2 num den - 52) minExponent
  let mantissa := roundHalfEven (num * twoPow (-q).toNat) (den * twoPow q.toNat)
  (q - minExponent).toNat * twoPow 52 + mantissa

/-- The double `± num / den`, rounded once; `none` when it is out of range.
    A zero keeps its sign. -/
def nearest? (negative : Bool) (num den : Nat) : Option Float :=
  let bits := if num = 0 then 0 else nearestBits num den
  if bits < infinityBits then
    some (Float.ofBits (UInt64.ofNat (if negative then twoPow 63 + bits else bits)))
  else
    none

/-- Positive or negative infinity. -/
def infinity (negative : Bool) : Float :=
  Float.ofBits (UInt64.ofNat (if negative then twoPow 63 + infinityBits else infinityBits))

/-- The double `± num / den`, an infinity when it is out of range. -/
def nearest (negative : Bool) (num den : Nat) : Float :=
  (nearest? negative num den).getD (infinity negative)

end Binary64

end TreeWalk
