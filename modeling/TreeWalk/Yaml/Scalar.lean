import TreeWalk.Numeric.FloatText
import TreeWalk.Text.Blank
import TreeWalk.Yaml.Tag

/-! # Values of YAML scalars

A tag says what the text of a scalar spells.  Plain scalars have tags that fit
their text, but a tag can be given to any text, so each kind of value has its own
error for a text that spells none.

## Key results

* `Scalar.read` gives the value of a scalar. -/

namespace TreeWalk

namespace Yaml

namespace Scalar

/-- A numeral without the underscores that part its digits. -/
def joined (text : String) : List Char :=
  text.toList.filter (· != '_')

/-! ## Integers -/

/-- What follows the mark of a base, if it is there. -/
def afterBaseMark (base : Nat) : List Char → List Char
  | '0' :: m :: rest =>
    let mark := if base = 2 then 'b' else if base = 8 then 'o' else 'x'
    if base != 10 && m.toLower == mark then rest else '0' :: m :: rest
  | cs => cs

/-- The integer that a numeral of the given base spells, blanks around it and a
    sign allowed. -/
def inBase (base : Nat) (cs : List Char) : Except Error Int := do
  let stripped := Blank.strip cs
  let digits := afterBaseMark base (Tag.afterSign stripped)
  if !Numeral.isDigits base digits then throw (.notInteger base (String.ofList cs))
  let n ← if base = 10 then (Numeral.decimal digits).mapError .numeral
    -- Only decimal digits are limited in number.
    else pure (Numeral.value base digits)
  return if stripped.head? = some '-' then -(n : Int) else n

/-- The number whose digits in base sixty are given, the highest first. -/
def sexagesimal (digits : List Int) : Int :=
  digits.foldl (fun n d => n * 60 + d) 0

/-- The integer that a numeral without its sign spells. -/
def unsignedInteger (cs : List Char) : Except Error Int :=
  match cs with
  | [] => .error .emptyNumber
  | ['0'] => .ok 0
  | '0' :: 'b' :: digits => inBase 2 digits
  | '0' :: 'x' :: digits => inBase 16 digits
  | '0' :: _ => inBase 8 cs
  | _ =>
    if cs.contains ':' then sexagesimal <$> (Tag.splitColons cs).mapM (inBase 10)
    else inBase 10 cs

def integer (text : String) : Except Error Int := do
  let cs := joined text
  if cs.isEmpty then throw .emptyNumber
  let n ← unsignedInteger (Tag.afterSign cs)
  return if cs.head? = some '-' then -n else n

/-! ## Doubles -/

/-- The double that a numeral spells, blanks around it allowed. -/
def decimal (cs : List Char) : Except Error Float :=
  match FloatText.read? (Blank.strip cs) with
  | some x => .ok x
  | none => .error (.notNumber (String.ofList cs))

/-- The sum of digits in base sixty, the lowest first, each times its weight. -/
def weighted (sum : Float) (weight : Nat) : List Float → Float
  | [] => sum
  | d :: rest => weighted (sum + d * Binary64.nearest false weight 1) (weight * 60) rest

/-- The double that a numeral without its sign spells. -/
def unsignedFloat (cs : List Char) : Except Error Float :=
  if cs = ".inf".toList then .ok (Binary64.infinity false)
  else if cs = ".nan".toList then .ok (Float.ofBits 0x7FF8000000000000)
  else if cs.contains ':' then do
    -- The sum starts with the lowest place, which matters for its rounding.
    let digits ← (Tag.splitColons cs).mapM decimal
    return weighted 0 1 digits.reverse
  else decimal cs

def float (text : String) : Except Error Float := do
  let cs := (joined text).map Char.toLower
  if cs.isEmpty then throw .emptyNumber
  let x ← unsignedFloat (Tag.afterSign cs)
  return if cs.head? = some '-' then -x else x

/-! ## Other values -/

def truth (text : String) : Except Error Bool :=
  let word := text.toLower
  if ["yes", "true", "on"].contains word then .ok true
  else if ["no", "false", "off"].contains word then .ok false
  else .error (.notTruth word)

/-- The six bits that a character stands for in base 64. -/
def sixBits? (c : Char) : Option Nat :=
  if 'A' ≤ c ∧ c ≤ 'Z' then some (c.toNat - 'A'.toNat)
  else if 'a' ≤ c ∧ c ≤ 'z' then some (c.toNat - 'a'.toNat + 26)
  else if c.isDigit then some (c.toNat - '0'.toNat + 52)
  else if c = '+' then some 62
  else if c = '/' then some 63
  else none

/-- The bytes in base 64: `place` characters of a group of four have been read, of
    which `carry` holds the bits left over, and `pads` marks of padding.  Characters
    that mean nothing are passed over. -/
def base64 (place carry pads : Nat) : List Char → Option (List UInt8)
  | [] => if place = 0 then some [] else none
  | c :: rest =>
    if c = '=' then
      -- Padding counts only where the group could end, and ends it when the group is full.
      if 2 ≤ place then
        if 4 ≤ place + pads + 1 then some [] else base64 place carry (pads + 1) rest
      else base64 place carry pads rest
    else match sixBits? c with
      | none => base64 place carry pads rest
      | some bits => match place with
        | 0 => base64 1 bits 0 rest
        | 1 => (base64 2 (bits % 16) 0 rest).map (UInt8.ofNat (carry * 4 + bits / 16) :: ·)
        | 2 => (base64 3 (bits % 4) 0 rest).map (UInt8.ofNat (carry * 16 + bits / 4) :: ·)
        | _ => (base64 0 0 0 rest).map (UInt8.ofNat (carry * 64 + bits) :: ·)

def binary (text : String) : Except Error (List UInt8) :=
  if text.toList.all fun c => c.toNat < 128 then
    match base64 0 0 0 text.toList with
    | some data => .ok data
    | none => .error .malformed
  else .error .malformed

/-- The value of a scalar. -/
def read (tag : Tag) (text : String) : Except Error Value :=
  match tag with
  | .null => .ok .null
  | .bool => .bool <$> truth text
  | .int => .int <$> integer text
  | .float => .float <$> float text
  | .binary => .bytes <$> binary text
  | .timestamp => Timestamp.read text
  | .str => .ok (.str text)
  | .seq | .map | .set | .omap | .pairs | .merge | .value | .unknown => .error .malformed

end Scalar

end Yaml

end TreeWalk
