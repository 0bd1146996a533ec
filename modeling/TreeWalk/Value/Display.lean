import TreeWalk.Numeric.FloatText
import TreeWalk.Text.Quoted
import TreeWalk.Value

/-! # Values as text

`Value.display` is the form in which messages show a value: strings in quotes,
groups in brackets, dictionaries in braces.  `Value.plain` is the form in which a
value appears as part of a sentence or a path: a string as it stands, a day in
year-month-day order, a value of another type as that type says, all else as
`display` shows it. -/

namespace TreeWalk

/-- A number with at least `width` digits. -/
def paddedNat (width n : Nat) : String :=
  let digits := toString n
  "".pushn '0' (width - digits.length) ++ digits

/-- Year, month and day in four, two and two digits. -/
def Date.plain (d : Date) : String :=
  paddedNat 4 d.year ++ "-" ++ paddedNat 2 d.month ++ "-" ++ paddedNat 2 d.day

def Date.display (d : Date) : String :=
  s!"datetime.date({d.year}, {d.month}, {d.day})"

/-- A record as messages show it, given its entries as they show them. -/
def Holder.display (holder : Holder) (entries : List String) : String :=
  match holder with
  | .dict | .mapping | .results => "\x7b" ++ ", ".intercalate entries ++ "\x7d"
  | .object | .declared | .slots | .form _ => "<" ++ holder.typeName ++ " object>"
  | .foreign value => value.display

namespace Value

/-- What stands around the written items of a group. -/
def bracketed (shape : Grouping) (items : List String) : String :=
  let body := ", ".intercalate items
  match shape, items with
  | .list, _ => "[" ++ body ++ "]"
  | .tuple, [item] => "(" ++ item ++ ",)"
  | .tuple, _ => "(" ++ body ++ ")"
  | .set, [] => "set()"
  | .set, _ => "\x7b" ++ body ++ "\x7d"

mutual

/-- The form in which messages show a value. -/
def display : Value → String
  | .null => "None"
  | .bool b => if b then "True" else "False"
  | .int i => toString i
  | .float x => FloatText.write x
  | .str s => Quoted.text s
  | .bytes data => Quoted.bytes data
  | .date day => day.display
  | .group shape items => bracketed shape (displayAll items)
  | .record holder entries _ => holder.display (displayEntries entries)

/-- The items of a group, each as messages show it. -/
def displayAll : List Value → List String
  | [] => []
  | item :: rest => display item :: displayAll rest

/-- The entries of a dictionary, key and value parted by a colon. -/
def displayEntries : List (Value × Value) → List String
  | [] => []
  | (key, value) :: rest => (display key ++ ": " ++ display value) :: displayEntries rest

end

/-- The form in which a value appears inside a sentence or a path. -/
def plain : Value → String
  | .str s => s
  | .date day => day.plain
  | .record (.foreign value) _ _ => value.plain
  | value => value.display

end Value

end TreeWalk
