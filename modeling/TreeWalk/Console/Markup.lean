import TreeWalk.Console.StyleName

/-! # Markup

Text for the console can carry tags in square brackets that style what is between
them.  On a console without colours the tags leave no trace, but a closing tag must
have something to close.  What only looks like a tag stays: the inside of a tag begins
with a small letter, a slash, a number sign or an at sign, and a backslash in front
makes a tag plain text.

## Key results

* `Markup.plain` is the text without its tags. -/

namespace TreeWalk

namespace Markup

/-- A closing tag that cannot stand where it does; the position is that of the tag in
    the whole text. -/
inductive Fault where
  | unmatched (tag : String) (position : Nat)
  | nothingOpen (position : Nat)
  deriving DecidableEq, Repr

/-- The wording of the error. -/
def Fault.message : Fault → String
  | .unmatched tag position =>
    "closing tag '[" ++ tag ++ "]' at position " ++ toString position ++
      " doesn't match any open tag"
  | .nothingOpen position =>
    "closing tag '[/]' at position " ++ toString position ++ " has nothing to close"

/-- The inside of the tag whose opening bracket has been read, and what follows its
    closing bracket, if there is such a tag. -/
def inside? : List Char → Option (List Char × List Char)
  | [] => none
  | c :: rest =>
    -- The inside may hold no bracket of either kind.
    let body := rest.takeWhile fun d => d != ']' && d != '['
    if (('a' ≤ c && c ≤ 'z') || c == '#' || c == '/' || c == '@') &&
        (rest.drop body.length).head? == some ']' then
      some (c :: body, rest.drop (body.length + 1))
    else none

/-- The names of the tags that stay open when the innermost one of the given name is
    closed. -/
def close? (name : String) : List String → Option (List String)
  | [] => none
  | opened :: outer =>
    -- A tag may be closed before those opened inside of it.
    if opened == name then some outer else (close? name outer).map (opened :: ·)

/-- The names of the open tags after a tag at the given position. -/
def apply (position : Nat) (inside : List Char) (opened : List String) :
    Except Fault (List String) :=
  -- What follows an equals sign is a parameter and not part of the name.
  let name := inside.takeWhile (· != '=')
  match name with
  | '/' :: closed =>
    if (Blank.strip closed).isEmpty then
      match opened with
      | _ :: outer => .ok outer
      | [] => .error (.nothingOpen position)
    else
      match close? (StyleName.normalize (Blank.strip closed)) opened with
      | some outer => .ok outer
      | none => .error (.unmatched (String.ofList inside) position)
  | _ => .ok (StyleName.normalize name :: opened)

/-- Takes the tags out of what follows the given position; at most `fuel` pieces. -/
def strip (position : Nat) (opened : List String) :
    Nat → List Char → Except Fault (List Char)
  | 0, rest => .ok rest
  | fuel + 1, rest => do
    -- Of the backslashes in front of a tag two stand for one, and an odd one takes the tag its
    -- meaning; in front of another bracket one of them is left out.
    let slashes := (rest.takeWhile (· == '\\')).length
    match rest.drop slashes with
    | [] => return List.replicate slashes '\\'
    | c :: after =>
      if c != '[' then
        let tail ← strip (position + slashes + 1) opened fuel after
        return List.replicate slashes '\\' ++ c :: tail
      else match inside? after with
        | none =>
          let tail ← strip (position + slashes + 1) opened fuel after
          return List.replicate (slashes - 1) '\\' ++ '[' :: tail
        | some (inside, beyond) =>
          let next := position + slashes + inside.length + 2
          let kept := List.replicate (slashes / 2) '\\'
          if slashes % 2 = 1 then
            let tail ← strip next opened fuel beyond
            return kept ++ '[' :: inside ++ ']' :: tail
          else
            let opened ← apply (position + slashes) inside opened
            return kept ++ (← strip next opened fuel beyond)

/-- The text without its tags. -/
def plain (text : List Char) : Except Fault (List Char) :=
  strip 0 [] (text.length + 1) text

end Markup

end TreeWalk
