import TreeWalk.Numeric.FloatText
import TreeWalk.Numeric.Numeral
import TreeWalk.Text.Position
import TreeWalk.Value.Equality

/-! # Reading JSON

A JSON document is one value with blanks around it.  Besides the standard's
values `NaN`, `Infinity` and `-Infinity` are numbers; a numeral with a fraction or
an exponent is a double, any other an integer of any size up to a limit on its
digits.  A key that occurs twice keeps its first place and its last value.

A text is a sequence of characters, so a string with half of a surrogate pair spells none
and is refused.

An error knows how much of the text was left where it was found, which gives its
position.

## Key results

* `Json.readUpTo` reads a whole document, given the limit, and `Json.read` does so with
  the limit that is set. -/

namespace TreeWalk

namespace Json

/-- What is wrong with a document. -/
inductive Fault where
  | expectingValue
  | expectingName
  | expectingColon
  | expectingComma
  | extraData
  | unterminatedString
  | invalidControl
  | invalidEscape
  | invalidUnicodeEscape
  | byteOrderMark
  deriving DecidableEq, Repr

/-- The wording of a fault, without its position. -/
def Fault.text : Fault → String
  | .expectingValue => "Expecting value"
  | .expectingName => "Expecting property name enclosed in double quotes"
  | .expectingColon => "Expecting ':' delimiter"
  | .expectingComma => "Expecting ',' delimiter"
  | .extraData => "Extra data"
  | .unterminatedString => "Unterminated string starting at"
  | .invalidControl => "Invalid control character at"
  | .invalidEscape => "Invalid \\escape"
  | .invalidUnicodeEscape => "Invalid \\uXXXX escape"
  | .byteOrderMark => "Unexpected UTF-8 BOM (decode using utf-8-sig)"

/-- Why a document could not be read. -/
inductive Error where
  /-- A fault at the place where `left` characters were still to come. -/
  | malformed (fault : Fault) (left : Nat)
  | numeral (error : NumeralTooLong)
  /-- A string with half of a surrogate pair. -/
  | halfPair
  deriving DecidableEq, Repr

/-- The fault at the start of the given characters. -/
def faultAt (fault : Fault) (rest : List Char) : Error :=
  .malformed fault rest.length

def isBlank (c : Char) : Bool :=
  c == ' ' || c == '\t' || c == '\n' || c == '\r'

/-- What follows the blanks in front. -/
def skipBlanks (cs : List Char) : List Char :=
  cs.dropWhile isBlank

/-! ## Strings -/

/-- The character that a backslash and the given letter stand for. -/
def shortEscape? : Char → Option Char
  | '"' => some '"'
  | '\\' => some '\\'
  | '/' => some '/'
  | 'b' => some '\x08'
  | 'f' => some '\x0c'
  | 'n' => some '\n'
  | 'r' => some '\r'
  | 't' => some '\t'
  | _ => none

def isHexDigit (c : Char) : Bool :=
  Numeral.digitValue c < 16

/-- Whether a code unit is the first half of a surrogate pair. -/
def isHighSurrogate (n : Nat) : Bool := 0xD800 ≤ n && n < 0xDC00

/-- Whether a code unit is the second half of a surrogate pair. -/
def isLowSurrogate (n : Nat) : Bool := 0xDC00 ≤ n && n < 0xE000

/-- Whether a code unit is half of a surrogate pair. -/
def isSurrogate (n : Nat) : Bool := isHighSurrogate n || isLowSurrogate n

/-- The characters of code units, two halves of a surrogate pair being one character; there are
    none if a half lacks its other half. -/
def joinUnits : List Nat → Option (List Char)
  | [] => some []
  | [n] => if isSurrogate n then none else some [Char.ofNat n]
  | high :: low :: rest =>
    if isHighSurrogate high && isLowSurrogate low then
      (joinUnits rest).map
        (Char.ofNat (0x10000 + (high - 0xD800) * 0x400 + (low - 0xDC00)) :: ·)
    else if isSurrogate high then none
    else (joinUnits (low :: rest)).map (Char.ofNat high :: ·)

/-- Reads the code units of a string up to its closing quote; `opening` is the
    number of characters left at the opening quote. -/
def readUnits (opening : Nat) (units : List Nat) : List Char → Except Error (List Nat × List Char)
  | [] => .error (.malformed .unterminatedString opening)
  | '"' :: rest => .ok (units.reverse, rest)
  | ['\\'] => .error (.malformed .unterminatedString opening)
  | '\\' :: 'u' :: a :: b :: c :: d :: e :: rest =>
    -- A fifth character has to follow, if only the quote.
    if [a, b, c, d].all isHexDigit then
      readUnits opening (Numeral.value 16 [a, b, c, d] :: units) (e :: rest)
    else .error (.malformed .invalidUnicodeEscape (rest.length + 6))
  | '\\' :: 'u' :: rest => .error (.malformed .invalidUnicodeEscape (rest.length + 1))
  | '\\' :: c :: rest =>
    match shortEscape? c with
    | some plain => readUnits opening (plain.toNat :: units) rest
    | none => .error (.malformed .invalidEscape (rest.length + 2))
  | c :: rest =>
    if c.toNat < 0x20 then .error (.malformed .invalidControl (rest.length + 1))
    else readUnits opening (c.toNat :: units) rest

/-- Reads a string whose opening quote has been read. -/
def readString (rest : List Char) : Except Error (String × List Char) := do
  let (units, rest) ← readUnits (rest.length + 1) [] rest
  match joinUnits units with
  | some text => return (String.ofList text, rest)
  | none => throw .halfPair

/-! ## Numbers -/

/-- The digits of the whole part of a numeral: a zero stands alone. -/
def wholeDigits : List Char → List Char × List Char
  | '0' :: rest => (['0'], rest)
  | cs => (cs.takeWhile Char.isDigit, cs.dropWhile Char.isDigit)

/-- The digits of a fraction, if a point and at least one digit follow. -/
def fractionDigits : List Char → List Char × List Char
  | '.' :: rest =>
    if rest.takeWhile Char.isDigit = [] then ([], '.' :: rest)
    else (rest.takeWhile Char.isDigit, rest.dropWhile Char.isDigit)
  | cs => ([], cs)

/-- An exponent, if one follows. -/
def exponent? : List Char → Option (Int × List Char)
  | 'e' :: rest | 'E' :: rest => FloatText.readExponent? rest
  | _ => none

section

variable (limit : Option Nat)

/-- Reads a numeral after its sign; `whole` is what is left at its start. -/
def readNumeral (negative : Bool) (whole cs : List Char) : Except Error (Value × List Char) := do
  let (digits, rest) := wholeDigits cs
  if digits = [] then throw (faultAt .expectingValue whole)
  let (fraction, rest) := fractionDigits rest
  match exponent? rest with
  | some (e, rest) =>
    let decimal : Decimal := ⟨Numeral.value 10 (digits ++ fraction), e - fraction.length⟩
    return (.float (decimal.toFloat negative), rest)
  | none =>
    if fraction = [] then
      match Numeral.decimalUpTo limit digits with
      | .ok n => return (.int (if negative then -n else n), rest)
      | .error error => throw (.numeral error)
    else
      let decimal : Decimal := ⟨Numeral.value 10 (digits ++ fraction), -fraction.length⟩
      return (.float (decimal.toFloat negative), rest)

/-- Reads a word or a number. -/
def readAtom : List Char → Except Error (Value × List Char)
  | 'n' :: 'u' :: 'l' :: 'l' :: rest => .ok (.null, rest)
  | 't' :: 'r' :: 'u' :: 'e' :: rest => .ok (.bool true, rest)
  | 'f' :: 'a' :: 'l' :: 's' :: 'e' :: rest => .ok (.bool false, rest)
  | 'N' :: 'a' :: 'N' :: rest => .ok (.float (FloatText.read "nan"), rest)
  | 'I' :: 'n' :: 'f' :: 'i' :: 'n' :: 'i' :: 't' :: 'y' :: rest =>
    .ok (.float (Binary64.infinity false), rest)
  | '-' :: 'I' :: 'n' :: 'f' :: 'i' :: 'n' :: 'i' :: 't' :: 'y' :: rest =>
    .ok (.float (Binary64.infinity true), rest)
  | '-' :: rest => readNumeral limit true ('-' :: rest) rest
  | cs => readNumeral limit false cs cs

/-! ## Arrays and objects -/

mutual

/-- Reads a value; `fuel` bounds the number of values and separators read. -/
def readValue : Nat → List Char → Except Error (Value × List Char)
  | 0, cs => .error (faultAt .expectingValue cs)
  | fuel + 1, cs =>
    match cs with
    | '"' :: rest => do
      let (s, rest) ← readString rest
      return (.str s, rest)
    | '[' :: rest =>
      match skipBlanks rest with
      | ']' :: rest => .ok (.list [], rest)
      | rest => do
        let (items, rest) ← readItems fuel rest
        return (.list items, rest)
    | '\x7b' :: rest =>
      -- An empty object, or one with at least one entry: a comma may not come last.
      match skipBlanks rest with
      | '\x7d' :: rest => .ok (.dict [], rest)
      | rest => do
        let (entries, rest) ← readEntries fuel rest
        return (.dict (Value.storeAll entries), rest)
    | cs => readAtom limit cs

/-- Reads the items of an array from the first one to the closing bracket. -/
def readItems : Nat → List Char → Except Error (List Value × List Char)
  | 0, cs => .error (faultAt .expectingValue cs)
  | fuel + 1, cs => do
    let (item, rest) ← readValue fuel cs
    match skipBlanks rest with
    | ']' :: rest => return ([item], rest)
    | ',' :: rest =>
      let (items, rest) ← readItems fuel (skipBlanks rest)
      return (item :: items, rest)
    | rest => throw (faultAt .expectingComma rest)

/-- Reads the entries of an object from the first one to the closing brace. -/
def readEntries : Nat → List Char → Except Error (List (Value × Value) × List Char)
  | 0, cs => .error (faultAt .expectingValue cs)
  | fuel + 1, cs => do
    match cs with
    | '"' :: rest =>
      let (key, rest) ← readString rest
      match skipBlanks rest with
      | ':' :: rest =>
        let (value, rest) ← readValue fuel (skipBlanks rest)
        match skipBlanks rest with
        | '\x7d' :: rest => return ([(.str key, value)], rest)
        | ',' :: rest =>
          let (entries, rest) ← readEntries fuel (skipBlanks rest)
          return ((.str key, value) :: entries, rest)
        | rest => throw (faultAt .expectingComma rest)
      | rest => throw (faultAt .expectingColon rest)
    | cs => throw (faultAt .expectingName cs)

end

/-- Reads a whole document; an integer may have as many digits as the limit allows. -/
def readUpTo (text : List Char) : Except Error Value :=
  -- A mark of the byte order is refused before any blank is skipped.
  match text with
  | '\ufeff' :: _ => .error (faultAt .byteOrderMark text)
  | _ => do
    -- Each value and each separator takes up a character, so the fuel lasts.
    let (value, rest) ← readValue limit (2 * text.length + 2) (skipBlanks text)
    match skipBlanks rest with
    | [] => return value
    | rest => throw (faultAt .extraData rest)

end

/-- Reads a whole document. -/
def read (text : List Char) : Except Error Value :=
  readUpTo (some Numeral.maxDigits) text

/-- The wording of an error found in a text. -/
def Error.message (text : List Char) : Error → String
  | .malformed fault left =>
    fault.text ++ ": " ++ Position.describe text (text.length - left)
  | .numeral error => error.message
  | .halfPair => "Half of a surrogate pair"

end Json

end TreeWalk
