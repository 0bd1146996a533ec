import TreeWalk.Text.Blank

/-! # Names of styles

A style is named by words: attributes such as `bold`, each with short names, colours,
and what is behind the text.  Names that say the same have one normal form, with the
attributes in a fixed order.  A name that says nothing known is its own normal form,
but for case and the blanks around it.

## Key results

* `StyleName.normalize` gives the normal form of a name. -/

namespace TreeWalk

namespace StyleName

/-- The attributes in the order of normal forms, each with its short names. -/
def attributes : List (String × List String) :=
  [("bold", ["b"]), ("dim", ["d"]), ("italic", ["i"]), ("underline", ["u"]), ("blink", []),
   ("blink2", []), ("reverse", ["r"]), ("conceal", ["c"]), ("strike", ["s"]),
   ("underline2", ["uu"]), ("frame", []), ("encircle", []), ("overline", ["o"])]

/-- The attribute that a word names. -/
def attribute? (word : String) : Option String :=
  (attributes.find? fun a => a.1 == word || a.2.contains word).map Prod.fst

/-- The eight basic colours. -/
def basicColors : List String :=
  ["black", "red", "green", "yellow", "blue", "magenta", "cyan", "white"]

/-- Whether a text is a number of at most three digits up to 255. -/
def isByte (cs : List Char) : Bool :=
  !cs.isEmpty && cs.length ≤ 3 && cs.all Char.isDigit &&
    (String.ofList cs).toNat?.any fun n => n ≤ 255

/-- Whether a text is a colour in hexadecimal digits. -/
def isHexColor (cs : List Char) : Bool :=
  match cs with
  | '#' :: digits =>
    digits.length == 6 && digits.all fun c => c.isDigit || ('a' ≤ c && c ≤ 'f')
  | _ => false

/-- Whether a text is a colour by its number in the palette. -/
def isPaletteColor (cs : List Char) : Bool :=
  "color(".toList.isPrefixOf cs && cs.getLast? == some ')' && isByte (cs.drop 6).dropLast

/-- Whether a word names a colour. -/
def isColor (word : String) : Bool :=
  word == "default" || basicColors.contains word ||
    (basicColors.map fun color => "bright_" ++ color).contains word ||
    isHexColor word.toList || isPaletteColor word.toList

/-- What a name says. -/
structure Style where
  /-- The attributes that are set, or taken away. -/
  set : List (String × Bool) := []
  color : Option String := none
  background : Option String := none
  link : Option String := none

/-- What words say, if each of them says something. -/
def parse? (style : Style) : List String → Option Style
  | [] => some style
  | [word] =>
    let word := word.toLower
    match attribute? word with
    | some a => some { style with set := (a, true) :: style.set }
    | none => if isColor word then some { style with color := some word } else none
  | original :: next :: rest =>
    -- The words `on`, `not` and `link` need the next word; all others stand for themselves.
    let word := original.toLower
    if word == "on" then
      if isColor next.toLower then parse? { style with background := some next.toLower } rest
      else none
    else if word == "not" then
      match attribute? next with
      | some a => parse? { style with set := (a, false) :: style.set } rest
      | none => none
    else if word == "link" then parse? { style with link := some next } rest
    else match attribute? word with
      | some a => parse? { style with set := (a, true) :: style.set } (next :: rest)
      | none =>
        if isColor word then parse? { style with color := some word } (next :: rest) else none

/-- The words of a style in their order. -/
def Style.words (style : Style) : List String :=
  (attributes.filterMap fun a => (style.set.lookup a.1).map fun isOn =>
    if isOn then a.1 else "not " ++ a.1) ++
  style.color.toList ++
  (style.background.map fun color => "on " ++ color).toList ++
  (style.link.map fun link => "link " ++ link).toList

/-- The words of a text. -/
def splitWords (cs : List Char) : List String :=
  (go cs).filter (· != [] ) |>.map String.ofList
where
  /-- The pieces between blanks. -/
  go : List Char → List (List Char)
  | [] => [[]]
  | c :: rest =>
    if isBlank c then [] :: go rest
    else match go rest with
      | first :: others => (c :: first) :: others
      | [] => [[c]]

/-- The normal form of a name. -/
def normalize (name : List Char) : String :=
  let stripped := Blank.strip name
  if stripped = [] ∨ stripped = "none".toList then "none"
  else match parse? {} (splitWords name) with
    | some style => " ".intercalate style.words
    | none => (String.ofList stripped).toLower

end StyleName

end TreeWalk
