import TreeWalk.Numeric.Shortest

/-! # The written form of a double

A double is written with the fewest digits that read back.  `FloatStyle` holds
the choices of notation; `FloatText.standard` is the one used everywhere in this
library: positional from `0.0001` up to sixteen digits before the point, always
with a digit after the point, and otherwise an exponent with a sign and at least
two digits. -/

namespace TreeWalk

/-- The choices of notation for a double. -/
structure FloatStyle where
  /-- Smallest decimal exponent written positionally. -/
  lowest : Int
  /-- First decimal exponent no longer written positionally. -/
  beyond : Int
  /-- Least number of digits in an exponent. -/
  exponentWidth : Nat
  nan : String
  infinity : String

namespace FloatText

/-- Positional for decimal exponents `-4 … 15`, exponents of two digits or more. -/
def standard : FloatStyle where
  lowest := -4
  beyond := 16
  exponentWidth := 2
  nan := "nan"
  infinity := "inf"

private def padLeft (width : Nat) (s : String) : String :=
  "".pushn '0' (width - s.length) ++ s

/-- Digits `ds` with the decimal point after the first `point` of them, filled up
    with zeros on the side where digits are missing. -/
def positional (ds : String) (point : Int) : String :=
  if point ≤ 0 then
    "0." ++ "".pushn '0' (-point).toNat ++ ds
  else if ds.length ≤ point.toNat then
    ds ++ "".pushn '0' (point.toNat - ds.length) ++ ".0"
  else
    String.ofList (ds.toList.take point.toNat) ++ "." ++ String.ofList (ds.toList.drop point.toNat)

/-- One digit before the point, the rest after it, then the exponent. -/
def scientific (style : FloatStyle) (ds : String) (exponent : Int) : String :=
  let rest := String.ofList (ds.toList.drop 1)
  let head := String.ofList (ds.toList.take 1) ++ (if rest.isEmpty then "" else "." ++ rest)
  let sign := if exponent < 0 then "-" else "+"
  head ++ "e" ++ sign ++ padLeft style.exponentWidth (toString exponent.natAbs)

/-- The text of a positive decimal in the given style. -/
def render (style : FloatStyle) (d : Decimal) : String :=
  let ds := toString d.digits
  let exponent := d.exponent + ds.length - 1
  if style.lowest ≤ exponent ∧ exponent < style.beyond then
    positional ds (exponent + 1)
  else
    scientific style ds exponent

/-- The written form of `x`. -/
def write (x : Float) (style : FloatStyle := standard) : String :=
  match Binary64.ofFloat x with
  | .nan => style.nan
  | .infinite negative => (if negative then "-" else "") ++ style.infinity
  | .finite negative m q =>
    let body := if m = 0 then positional "0" 1 else render style (Decimal.shortest m q)
    (if negative then "-" else "") ++ body

/-! ## Reading numerals -/

/-- Leading decimal digits, the number they spell after `acc`, how many there
    are, and what follows. -/
def takeDigits (acc count : Nat) : List Char → Nat × Nat × List Char
  | [] => (acc, count, [])
  | c :: rest =>
    if c.isDigit then takeDigits (acc * 10 + (c.toNat - 48)) (count + 1) rest
    else (acc, count, c :: rest)

/-- An exponent part with an optional sign; `none` if there are no digits. -/
def readExponent? : List Char → Option (Int × List Char)
  | '-' :: rest =>
    match takeDigits 0 0 rest with
    | (_, 0, _) => none
    | (n, _, rest) => some (-n, rest)
  | rest =>
    let digits := match rest with
      | '+' :: tail => tail
      | _ => rest
    match takeDigits 0 0 digits with
    | (_, 0, _) => none
    | (n, _, rest) => some (n, rest)

/-- An unsigned numeral: digits, a fraction and an exponent, each optional, and
    what follows it. -/
def readUnsigned (cs : List Char) : Decimal × List Char :=
  let (whole, _, rest) := takeDigits 0 0 cs
  let (digits, scale, rest) := match rest with
    | '.' :: tail => takeDigits whole 0 tail
    | _ => (whole, 0, rest)
  match rest with
  | 'e' :: tail | 'E' :: tail =>
    match readExponent? tail with
    | some (e, after) => (⟨digits, e - scale⟩, after)
    | none => (⟨digits, -scale⟩, rest)
  | _ => (⟨digits, -scale⟩, rest)

/-- Reads back a written double: `write` undone. -/
def read (text : String) : Float :=
  let (negative, body) := match text.toList with
    | '-' :: rest => (true, rest)
    | cs => (false, cs)
  if String.ofList body = standard.nan then Float.ofBits 0x7FF8000000000000
  else if String.ofList body = standard.infinity then Binary64.infinity negative
  else Decimal.toFloat negative (readUnsigned body).1

/-- The double that an unsigned numeral spells: at least one digit, or one of the
    words for infinity and for what is no number, in either case. -/
def readMagnitude? (negative : Bool) (cs : List Char) : Option Float :=
  let word := cs.map Char.toLower
  if word = "inf".toList ∨ word = "infinity".toList then some (Binary64.infinity negative)
  else if word = "nan".toList then some (Float.ofBits 0x7FF8000000000000)
  else
    -- The first character besides a point has to be a digit, so a point alone is no number.
    match cs.find? (· != '.') with
    | some c =>
      let (decimal, rest) := readUnsigned cs
      if c.isDigit ∧ rest = [] then some (decimal.toFloat negative) else none
    | none => none

/-- The double that a numeral with an optional sign spells. -/
def read? : List Char → Option Float
  | '-' :: rest => readMagnitude? true rest
  | '+' :: rest => readMagnitude? false rest
  | cs => readMagnitude? false cs

end FloatText

end TreeWalk
