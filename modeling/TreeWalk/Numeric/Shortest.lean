import TreeWalk.Numeric.Binary64

/-! # The shortest decimal that reads back

Every finite double is the double nearest to a whole interval of reals.  The
decimal chosen for it is the one with the fewest digits inside that interval and,
among those, the one closest to the double.  On a grid of decimals of one length
only the two neighbours of the value need a look: if any point of the grid lies
in the interval, so does one of them. -/

namespace TreeWalk

/-- The decimal number `digits · 10 ^ exponent`. -/
structure Decimal where
  digits : Nat
  exponent : Int
  deriving DecidableEq, Repr

namespace Decimal

open Binary64 (twoPow)

/-- The power of ten with the given exponent. -/
def tenPow (n : Nat) : Nat :=
  Nat.pow 10 n

/-- `a · 2 ^ p ≤ c · 10 ^ k`, compared without leaving the natural numbers. -/
def leScaled (a : Nat) (p : Int) (c : Nat) (k : Int) : Bool :=
  decide (a * twoPow p.toNat * tenPow (-k).toNat ≤ c * tenPow k.toNat * twoPow (-p).toNat)

/-- `c · 10 ^ k ≤ a · 2 ^ p`. -/
def scaledLe (c : Nat) (k : Int) (a : Nat) (p : Int) : Bool :=
  decide (c * tenPow k.toNat * twoPow (-p).toNat ≤ a * twoPow p.toNat * tenPow (-k).toNat)

/-- The largest `k` with `10 ^ k ≤ m · 2 ^ q`, for a positive `m`: an estimate
    from the binary logarithm, put right by comparing. -/
def floorLog10 (m : Nat) (q : Int) : Int :=
  -- The fraction is the decimal logarithm of two.
  let estimate := (((m.log2 : Int) + q) * 1233).fdiv 4096
  if scaledLe 1 (estimate + 1) m q then estimate + 1
  else if scaledLe 1 estimate m q then estimate
  else estimate - 1

/-- The reals that round to `m · 2 ^ q`, in units of `2 ^ (q - 2)`: below a power
    of two the doubles are twice as dense, and the ends belong to the interval
    exactly when the mantissa is even. -/
structure Interval where
  low : Nat
  high : Nat
  unit : Int
  closed : Bool

/-- The interval of reals that round to `m · 2 ^ q`. -/
def interval (m : Nat) (q : Int) : Interval :=
  let below := if m = twoPow 52 ∧ q ≠ Binary64.minExponent then 1 else 2
  { low := 4 * m - below, high := 4 * m + 2, unit := q - 2, closed := m % 2 == 0 }

/-- Whether `c · 10 ^ k` lies in the interval. -/
def Interval.contains (i : Interval) (c : Nat) (k : Int) : Bool :=
  if i.closed then
    leScaled i.low i.unit c k && scaledLe c k i.high i.unit
  else
    !scaledLe c k i.low i.unit && !leScaled i.high i.unit c k

/-- The point of the grid of multiples of `10 ^ k` that stands for `m · 2 ^ q`,
    if one reads back: of the two neighbours the nearer, of two equally near the
    even one. -/
def onGrid? (m : Nat) (q : Int) (k : Int) : Option Nat :=
  let num := m * twoPow q.toNat * tenPow (-k).toNat
  let den := twoPow (-q).toNat * tenPow k.toNat
  let lower := num / den
  let i := interval m q
  let nearer := Binary64.roundHalfEven num den
  let farther := if nearer = lower then lower + 1 else lower
  if i.contains nearer k then some nearer
  else if i.contains farther k then some farther
  else none

/-- Tries grids of growing length; `count` more are left. -/
def search (m : Nat) (q : Int) (k : Int) : Nat → Decimal
  | 0 => ⟨(onGrid? m q k).getD 0, k⟩
  | count + 1 =>
    match onGrid? m q k with
    | some c => ⟨c, k⟩
    | none => search m q (k - 1) count

/-- Moves trailing zeros of the digits into the exponent, at most `fuel` of them. -/
def trim (d : Decimal) : Nat → Decimal
  | 0 => d
  | fuel + 1 =>
    if d.digits ≠ 0 ∧ d.digits % 10 = 0 then trim ⟨d.digits / 10, d.exponent + 1⟩ fuel else d

/-- The shortest decimal that reads back as the positive double `m · 2 ^ q`.
    Seventeen digits always do. -/
def shortest (m : Nat) (q : Int) : Decimal :=
  (search m q (floorLog10 m q) 17).trim 17

/-- The double nearest to `± digits · 10 ^ exponent`.  Exponents far beyond the
    range of doubles give the answer without the power being computed. -/
def toFloat (negative : Bool) (d : Decimal) : Float :=
  -- The decimal exponent, but for one or two.
  let size : Int := (Nat.log2 d.digits : Int) * 1233 / 4096 + d.exponent
  if d.digits = 0 ∨ size < -400 then Binary64.nearest negative 0 1
  else if size > 400 then Binary64.infinity negative
  else Binary64.nearest negative (d.digits * tenPow d.exponent.toNat)
    (tenPow (-d.exponent).toNat)

end Decimal

end TreeWalk
