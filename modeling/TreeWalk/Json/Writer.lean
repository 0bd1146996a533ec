import TreeWalk.Numeric.Numeral
import TreeWalk.Text.Quoted

/-! # Writing JSON

Documents are written in ASCII, one item to a line, each level indented by two
blanks more than the one around it; empty arrays and objects stay on one line.
Characters outside printable ASCII are written by the numbers of their UTF-16
units.  A document that holds an integer with too many digits is not written.

## Key results

* `Json.Term.write` is the text of a document. -/

namespace TreeWalk

namespace Json

/-- A document to be written. -/
inductive Term where
  | text (s : String)
  | number (n : Int)
  | array (items : List Term)
  | object (fields : List (String × Term))

/-- A UTF-16 unit by its number. -/
def unitEscape (n : Nat) : List Char :=
  '\\' :: 'u' :: Quoted.hex 4 n

/-- One character inside a string. -/
def escapeChar (c : Char) : List Char :=
  if c = '"' ∨ c = '\\' then ['\\', c]
  else if c = '\n' then ['\\', 'n']
  else if c = '\r' then ['\\', 'r']
  else if c = '\t' then ['\\', 't']
  else if c = '\x0c' then ['\\', 'f']
  else if c = '\x08' then ['\\', 'b']
  else if 32 ≤ c.toNat ∧ c.toNat < 127 then [c]
  else if c.toNat < 0x10000 then unitEscape c.toNat
  else
    -- Beyond the first plane a character is a pair of units.
    unitEscape (0xD800 + (c.toNat - 0x10000) / 0x400) ++
      unitEscape (0xDC00 + (c.toNat - 0x10000) % 0x400)

/-- A string in quotes. -/
def quote (s : String) : List Char :=
  '"' :: s.toList.flatMap escapeChar ++ ['"']

/-- A line end and the indentation of the given level. -/
def newline (level : Nat) : List Char :=
  '\n' :: List.replicate (2 * level) ' '

/-- Written items between brackets, each on a line of its own. -/
def enclose (opening closing : Char) (level : Nat) (items : List (List Char)) : List Char :=
  match items with
  | [] => [opening, closing]
  | _ => opening :: newline (level + 1) ++ (',' :: newline (level + 1)).intercalate items ++
      newline level ++ [closing]

namespace Term

mutual

/-- The characters of a document whose last line is indented to `level`. -/
def chars (level : Nat) : Term → List Char
  | .text s => quote s
  | .number n => (toString n).toList
  | .array items => enclose '[' ']' level (charsAll (level + 1) items)
  | .object fields => enclose '\x7b' '\x7d' level (charsFields (level + 1) fields)

/-- The characters of each item. -/
def charsAll (level : Nat) : List Term → List (List Char)
  | [] => []
  | item :: rest => chars level item :: charsAll level rest

/-- The characters of each field. -/
def charsFields (level : Nat) : List (String × Term) → List (List Char)
  | [] => []
  | (name, item) :: rest => (quote name ++ ':' :: ' ' :: chars level item) :: charsFields level rest

/-- Whether no integer in a document has too many digits. -/
def fits : Term → Bool
  | .text _ => true
  | .number n => Numeral.fits n
  | .array items => fitsAll items
  | .object fields => fitsFields fields

/-- Whether no integer in the items has too many digits. -/
def fitsAll : List Term → Bool
  | [] => true
  | item :: rest => fits item && fitsAll rest

/-- Whether no integer in the fields has too many digits. -/
def fitsFields : List (String × Term) → Bool
  | [] => true
  | (_, item) :: rest => fits item && fitsFields rest

end

/-- The text of a document. -/
def write (t : Term) : Except IntegerTooLong String :=
  if t.fits then .ok (String.ofList (t.chars 0)) else .error {}

end Term

end Json

end TreeWalk
