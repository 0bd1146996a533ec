/-! # Path names

A path name is a list of parts between slashes.  Empty parts and parts that are a
single dot say nothing and are dropped; two dots are kept, since what they mean
depends on the directory they stand in.

## Key results

* `PathName.normalize` is the text of a path name without what says nothing.
* `PathName.suffix` is the suffix of the last part, dot included. -/

namespace TreeWalk

namespace PathName

/-- The parts between slashes, empty ones included. -/
def split (path : String) : List String :=
  (go path.toList).map String.ofList
where
  /-- The parts of a list of characters. -/
  go : List Char → List (List Char)
  | [] => [[]]
  | c :: rest =>
    if c = '/' then [] :: go rest
    else match go rest with
      | first :: others => (c :: first) :: others
      | [] => [[c]]

/-- The parts that say something. -/
def parts (path : String) : List String :=
  (split path).filter fun part => part != "" && part != "."

/-- The slashes that an absolute path begins with: exactly two are kept, any other
    number counts as one. -/
def root (path : String) : String :=
  match path.toList with
  | '/' :: '/' :: '/' :: _ => "/"
  | '/' :: '/' :: _ => "//"
  | '/' :: _ => "/"
  | _ => ""

/-- The text of a path name without what says nothing. -/
def normalize (path : String) : String :=
  let text := root path ++ "/".intercalate (parts path)
  if text.isEmpty then "." else text

/-- The suffix of a name: from its last dot on, if that is neither the first nor the
    last character. -/
def suffixOf (name : List Char) : List Char :=
  let tail := (name.reverse.takeWhile (· != '.')).reverse
  if tail.isEmpty || name.length ≤ tail.length + 1 then [] else '.' :: tail

/-- The suffix of the last part of a path name, empty if it has none. -/
def suffix (path : String) : String :=
  match (parts path).getLast? with
  | some name => String.ofList (suffixOf name.toList)
  | none => ""

end PathName

end TreeWalk
