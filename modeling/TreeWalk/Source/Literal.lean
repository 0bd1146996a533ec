import TreeWalk.Numeric.FloatText
import TreeWalk.Numeric.Number
import TreeWalk.Numeric.Numeral

/-! # Literals of source files

A numeral is an integer in base two, eight, ten or sixteen, or a double as soon as it
has a point or an exponent; single underscores may part its digits.  A string stands
between quotes, single or tripled, and a backslash starts an escape in it unless the
string is raw.

## Key results

* `Literal.numeral?` reads a numeral.
* `Literal.quoted?` finds the end of a string.
* `Literal.text?` and `Literal.bytes?` give what a string spells. -/

namespace TreeWalk

namespace Source

namespace Literal

/-- The characters of words; all characters outside ASCII count as such. -/
def isWordPart (c : Char) : Bool :=
  c.isAlphanum || c == '_' || 128 ≤ c.toNat

/-! ## Numerals -/

/-- The digits in front, single underscores between them left out, and what follows;
    `none` if an underscore has no digit after it. -/
def digitGroups (isDigit : Char → Bool) : List Char → Option (List Char × List Char)
  | [] => some ([], [])
  | c :: rest =>
    if isDigit c then (digitGroups isDigit rest).map fun found => (c :: found.1, found.2)
    else if c == '_' then if rest.head?.any isDigit then digitGroups isDigit rest else none
    else some ([], c :: rest)

/-- The words that may follow a numeral without a blank; of some the beginning is
    enough. -/
def followers : List (List Char) :=
  ["and", "else", "for", "if", "in", "is", "or", "not"].map String.toList

/-- Whether a numeral may end before the given characters. -/
def endsBefore (rest : List Char) : Bool :=
  followers.any (·.isPrefixOf rest) || !rest.head?.any isWordPart

/-- An integer after the mark of its base. -/
def based? (base : Nat) (cs : List Char) :
    Option (Except NumeralTooLong Number × List Char) := do
  let (digits, rest) ← digitGroups (fun c => Numeral.digitValue c < base) cs
  guard (!digits.isEmpty && !rest.head?.any Char.isDigit && endsBefore rest)
  return (.ok (.int (Numeral.value base digits)), rest)

/-- The digits after a point and what follows, if there is a point. -/
def fraction? : List Char → Option (Option (List Char) × List Char)
  | '.' :: rest =>
    if rest.head?.any Char.isDigit then
      (digitGroups Char.isDigit rest).map fun found => (some found.1, found.2)
    else some (some [], rest)
  | cs => some (none, cs)

/-- The digits of an exponent after its letter. -/
def exponentDigits? : List Char → Option (Int × List Char)
  | '-' :: rest => digits? rest |>.map fun found => (-found.1, found.2)
  | '+' :: rest => digits? rest |>.map fun found => ((found.1 : Int), found.2)
  | cs => digits? cs |>.map fun found => ((found.1 : Int), found.2)
where
  /-- One or more digits. -/
  digits? (cs : List Char) : Option (Nat × List Char) := do
    guard (cs.head?.any Char.isDigit)
    let (digits, rest) ← digitGroups Char.isDigit cs
    return (Numeral.value 10 digits, rest)

/-- An exponent and what follows, if there is one.  A word that only starts like an
    exponent is none, and may follow a numeral. -/
def exponent? (cs : List Char) : Option (Option Int × List Char) :=
  -- The word may follow a numeral directly, and starts like an exponent.
  if "else".toList.isPrefixOf cs then some (none, cs)
  else match cs with
    | 'e' :: rest | 'E' :: rest =>
      (exponentDigits? rest).map fun found => (some found.1, found.2)
    | _ => some (none, cs)

/-- Whether digits start with a zero but are not all zeros. -/
def isZeroLed (digits : List Char) : Bool :=
  digits.head? == some '0' && digits.any (· != '0')

/-- An integer or a double in base ten. -/
def decimal? (cs : List Char) : Option (Except NumeralTooLong Number × List Char) := do
  let (whole, rest) ← digitGroups Char.isDigit cs
  let (fraction, rest) ← fraction? rest
  let (exponent, rest) ← exponent? rest
  guard (endsBefore rest)
  match fraction, exponent with
  | none, none =>
    -- Only zeros may start with a zero.
    guard (!isZeroLed whole)
    return ((Numeral.decimal whole).map fun n => .int n, rest)
  | _, _ =>
    let digits := fraction.getD []
    let decimal : Decimal := ⟨Numeral.value 10 (whole ++ digits), exponent.getD 0 - digits.length⟩
    return (.ok (.float (decimal.toFloat false)), rest)

/-- Reads the numeral that the given characters start with; an integer may have more
    digits than are read.  `none` if they are no well formed numeral. -/
def numeral? : List Char → Option (Except NumeralTooLong Number × List Char)
  | '0' :: 'x' :: rest | '0' :: 'X' :: rest => based? 16 rest
  | '0' :: 'o' :: rest | '0' :: 'O' :: rest => based? 8 rest
  | '0' :: 'b' :: rest | '0' :: 'B' :: rest => based? 2 rest
  | cs => decimal? cs

/-! ## Strings -/

/-- What stands up to the closing quotes and what follows them; `none` if the string
    does not end.  A string between single quotes ends on its line. -/
def quoted? (quote : Char) (tripled : Bool) : List Char → Option (List Char × List Char)
  | [] => none
  | '\\' :: c :: rest =>
    (quoted? quote tripled rest).map fun found => ('\\' :: c :: found.1, found.2)
  | c :: rest =>
    if c == quote && !tripled then some ([], rest)
    -- Three quotes end a tripled string, and fewer are part of it.
    else if c == quote && [quote, quote].isPrefixOf rest then some ([], rest.drop 2)
    else if c == '\n' && !tripled then none
    else (quoted? quote tripled rest).map fun found => (c :: found.1, found.2)

/-- The character that a backslash and the given letter stand for. -/
def escape? : Char → Option Char
  | '\\' => some '\\'
  | '\x27' => some '\x27'
  | '"' => some '"'
  | 'a' => some '\x07'
  | 'b' => some '\x08'
  | 'f' => some '\x0c'
  | 'n' => some '\n'
  | 'r' => some '\r'
  | 't' => some '\t'
  | 'v' => some '\x0b'
  | _ => none

/-- How many hexadecimal digits follow a backslash and the given letter.  Those of
    code points mean nothing in bytes. -/
def escapeWidth? (inBytes : Bool) : Char → Option Nat
  | 'x' => some 2
  | 'u' => if inBytes then none else some 4
  | 'U' => if inBytes then none else some 8
  | _ => none

/-- The octal digits in front, at most three. -/
def octalDigits (cs : List Char) : List Char :=
  (cs.take 3).takeWhile fun c => Numeral.digitValue c < 8

/-- The code points that the inside of a string spells; at most `fuel` pieces. -/
def codes? (inBytes : Bool) : Nat → List Char → Option (List Nat)
  | 0, _ => none
  | _ + 1, [] => some []
  | fuel + 1, '\\' :: c :: rest =>
    let octal := octalDigits (c :: rest)
    -- An escaped line end joins two lines.
    if c == '\n' then codes? inBytes fuel rest
    else if !octal.isEmpty then
      (codes? inBytes fuel ((c :: rest).drop octal.length)).map (Numeral.value 8 octal :: ·)
    else if let some plain := escape? c then
      (codes? inBytes fuel rest).map (plain.toNat :: ·)
    else if let some width := escapeWidth? inBytes c then
      let digits := rest.take width
      if digits.length = width ∧ digits.all (fun d => Numeral.digitValue d < 16) then
        (codes? inBytes fuel (rest.drop width)).map (Numeral.value 16 digits :: ·)
      else none
    -- Characters given by name are not read.
    else if c == 'N' && !inBytes then none
    else (codes? inBytes fuel (c :: rest)).map ('\\'.toNat :: ·)
  | fuel + 1, c :: rest => (codes? inBytes fuel rest).map (c.toNat :: ·)

/-- The code points of the inside of a string, escapes resolved unless it is raw. -/
def resolve? (raw inBytes : Bool) (inside : List Char) : Option (List Nat) :=
  if raw then some (inside.map Char.toNat) else codes? inBytes (inside.length + 1) inside

/-- The character of a code point; there is none for the halves of pairs. -/
def charOf? (code : Nat) : Option Char :=
  if code.isValidChar then some (Char.ofNat code) else none

/-- The text that the inside of a string spells. -/
def text? (raw : Bool) (inside : List Char) : Option String := do
  let codes ← resolve? raw false inside
  return String.ofList (← codes.mapM charOf?)

/-- The bytes that the inside of a string spells; it must be ASCII. -/
def bytes? (raw : Bool) (inside : List Char) : Option (List UInt8) := do
  guard (inside.all fun c => c.toNat < 128)
  return (← resolve? raw true inside).map UInt8.ofNat

end Literal

end Source

end TreeWalk
