import TreeWalk.Yaml.Timestamp

/-! # Tags of YAML nodes

A tag says what kind of value a node stands for.  A node without a tag gets one: a
collection by its shape, a scalar in quotes or in block form the tag of text, and
a plain scalar the tag whose spellings include it, if there is one.

## Key results

* `Tag.ofUri` gives the tag of a full name.
* `Tag.ofPlain` gives the tag of a plain scalar. -/

namespace TreeWalk

namespace Yaml

/-- What kind of value a node stands for. -/
inductive Tag where
  | null
  | bool
  | int
  | float
  | binary
  | timestamp
  | str
  | seq
  | map
  | set
  | omap
  | pairs
  /-- The key under which entries of other mappings are taken over. -/
  | merge
  /-- The key whose value stands for the whole mapping. -/
  | value
  /-- A tag that means nothing here. -/
  | unknown
  deriving DecidableEq, Repr

namespace Tag

/-- What stands before the names of the standard tags. -/
def standardStem : String := "tag:yaml.org,2002:"

/-- The standard tags by name. -/
def standard : List (String × Tag) :=
  [("null", .null), ("bool", .bool), ("int", .int), ("float", .float), ("binary", .binary),
   ("timestamp", .timestamp), ("str", .str), ("seq", .seq), ("map", .map), ("set", .set),
   ("omap", .omap), ("pairs", .pairs), ("merge", .merge), ("value", .value)]

/-- The tag of a full name. -/
def ofUri (uri : String) : Tag :=
  ((standard.find? fun entry => standardStem ++ entry.1 == uri).map Prod.snd).getD .unknown

/-! ## Spellings of plain scalars -/

def isDigitOrUnderscore (c : Char) : Bool := c.isDigit || c == '_'

/-- What follows a sign, if there is one. -/
def afterSign : List Char → List Char
  | '-' :: rest | '+' :: rest => rest
  | cs => cs

/-- Whether a list of characters has some, all of the given class. -/
def isSome (p : Char → Bool) (cs : List Char) : Bool :=
  !cs.isEmpty && cs.all p

/-- The parts of a text between colons. -/
def splitColons : List Char → List (List Char)
  | [] => [[]]
  | c :: rest =>
    if c == ':' then [] :: splitColons rest
    else match splitColons rest with
      | first :: others => (c :: first) :: others
      | [] => [[c]]

/-- Whether a text is a number below sixty, with one digit or two. -/
def isSixtieth : List Char → Bool
  | [a] => a.isDigit
  | [a, b] => '0' ≤ a && a ≤ '5' && b.isDigit
  | _ => false

/-- The spellings of truth values. -/
def isTruth (text : String) : Bool :=
  ["yes", "Yes", "YES", "no", "No", "NO", "true", "True", "TRUE", "false", "False", "FALSE",
   "on", "On", "ON", "off", "Off", "OFF"].contains text

/-- The spellings of nothing. -/
def isNull (text : String) : Bool :=
  ["~", "null", "Null", "NULL", ""].contains text

/-- Whether what follows the sign spells an integer: in base two, eight or sixteen
    by what it starts with, otherwise in base ten or, in parts between colons, in
    base sixty. -/
def isUnsignedInteger : List Char → Bool
  | ['0'] => true
  | '0' :: 'b' :: digits => isSome (fun c => c == '0' || c == '1' || c == '_') digits
  | '0' :: 'x' :: digits =>
    isSome (fun c => Numeral.digitValue c < 16 || c == '_') digits
  | '0' :: digits => isSome (fun c => ('0' ≤ c && c ≤ '7') || c == '_') digits
  | cs => (cs.headD '0').isDigit && match splitColons cs with
    | first :: sixtieths => first.all isDigitOrUnderscore && sixtieths.all isSixtieth
    | [] => false

/-- Whether a text is empty or an exponent, whose sign must be written. -/
def isExponent : List Char → Bool
  | [] => true
  | e :: sign :: digits =>
    (e == 'e' || e == 'E') && (sign == '-' || sign == '+') && isSome Char.isDigit digits
  | _ => false

/-- Whether a text is the fraction of a double with its exponent, if any. -/
def isFraction (cs : List Char) : Bool :=
  isExponent (cs.dropWhile isDigitOrUnderscore)

/-- Whether what follows the sign spells a double with digits before the point; in
    parts between colons it is in base sixty and has no exponent. -/
def isUnsignedFloat (cs : List Char) : Bool :=
  let whole := cs.takeWhile (· != '.')
  let afterPoint := (cs.dropWhile (· != '.')).drop 1
  cs.contains '.' && (whole.headD '_').isDigit && match splitColons whole with
    | [digits] => digits.all isDigitOrUnderscore && isFraction afterPoint
    | digits :: sixtieths =>
      digits.all isDigitOrUnderscore && sixtieths.all isSixtieth &&
        afterPoint.all isDigitOrUnderscore
    | [] => false

/-- The spellings of doubles. -/
def isFloat (text : List Char) : Bool :=
  match text with
  | '.' :: rest =>
    [".inf", ".Inf", ".INF", ".nan", ".NaN", ".NAN"].contains (String.ofList text) ||
      ((rest.headD '_').isDigit && isFraction rest)
  | _ =>
    [".inf", ".Inf", ".INF"].contains (String.ofList (afterSign text)) ||
      isUnsignedFloat (afterSign text)

/-- The tag of a plain scalar. -/
def ofPlain (text : String) : Tag :=
  let cs := text.toList
  if isTruth text then .bool
  else if isNull text then .null
  else if isFloat cs then .float
  else if isUnsignedInteger (afterSign cs) then .int
  else if Timestamp.isPlain cs then .timestamp
  else if text == "<<" then .merge
  else if text == "=" then .value
  else if ["!", "&", "*"].contains text then .unknown
  else .str

end Tag

end Yaml

end TreeWalk
