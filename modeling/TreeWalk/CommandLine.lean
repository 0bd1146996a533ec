import TreeWalk.Invocation

/-! # The words of a command line

A command line names a command, then gives options and one path in any order.  Every
option takes a value: the next word, or what is joined to it by an equals sign after a
long name or directly after a short one.  After two dashes all words are taken as they
stand.

A command line that cannot be followed ends the program with a status for that.  Neither what
is said then nor the texts of help are given here.

## Key results

* `CommandLine.ofWords` says what a command line comes to. -/

namespace TreeWalk

def Command.ofName? : String → Option Command
  | "kinds" => some .kinds
  | "stats" => some .stats
  | "scopes" => some .scopes
  | _ => none

/-- What can be set on a command line. -/
inductive CommandOption where
  | config
  | tagField
  | skipField
  | verbosity
  | output
  deriving DecidableEq, Repr

namespace CommandOption

def ofLongName? : String → Option CommandOption
  | "--config" => some .config
  | "--tag-field" => some .tagField
  | "--skip-field" => some .skipField
  | "--verbosity" => some .verbosity
  | "--output" => some .output
  | _ => none

def ofShortName? : Char → Option CommandOption
  | 'v' => some .verbosity
  | 'o' => some .output
  | _ => none

/-- Whether a command has the option. -/
def fits (o : CommandOption) (command : Command) : Bool :=
  o != .output || command == .stats

end CommandOption

namespace Invocation

/-- Sets an option; fields to skip add up, of any other option the last value
    counts. -/
def set (i : Invocation) (o : CommandOption) (value : String) : Invocation :=
  match o with
  | .config => { i with config := some value }
  | .tagField => { i with tagField := some value }
  | .skipField => { i with skipFields := i.skipFields ++ [value] }
  | .verbosity => { i with verbosity := some value }
  | .output => { i with output := some value }

/-- An option as a word gives it, with the value joined to it, if there is one. -/
def optionOf? (command : Command) (word : List Char) : Option (CommandOption × Option String) := do
  let name := word.takeWhile (· != '=')
  let joined := if name.length < word.length then some (word.drop (name.length + 1)) else none
  let (option, value) ← match CommandOption.ofLongName? (String.ofList name), word with
    | some o, _ => some (o, joined)
    | none, '-' :: c :: rest =>
      (CommandOption.ofShortName? c).map fun o => (o, if rest.isEmpty then none else some rest)
    | none, _ => none
  guard (option.fits command)
  return (option, value.map String.ofList)

/-- Whether a word is an option and no value of its own. -/
def isOption (word : List Char) : Bool :=
  -- A dash alone is a value like any other word.
  word.head? == some '-' && word.length != 1

end Invocation

/-- What the words behind a command have said so far. -/
structure CommandWords where
  invocation : Invocation
  paths : List String := []
  /-- Whether help has been asked for. -/
  help : Bool := false

namespace CommandWords

/-- Sets an option. -/
def set (w : CommandWords) (o : CommandOption) (value : String) : CommandWords :=
  { w with invocation := w.invocation.set o value }

/-- The last word, which can be no option without its value. -/
def readLast (w : CommandWords) (word : String) : Option CommandWords :=
  if word == "--" then some w
  else if word == "--help" then some { w with help := true }
  else if Invocation.isOption word.toList then
    match Invocation.optionOf? w.invocation.command word.toList with
    | some (o, some value) => some (w.set o value)
    | _ => none
  else some { w with paths := w.paths ++ [word] }

/-- Reads options and paths. -/
def read (w : CommandWords) : List String → Option CommandWords
  | [] => some w
  | [word] => w.readLast word
  | word :: next :: rest =>
    if word == "--" then some { w with paths := w.paths ++ next :: rest }
    else if word == "--help" then read { w with help := true } (next :: rest)
    else if Invocation.isOption word.toList then
      match Invocation.optionOf? w.invocation.command word.toList with
      | some (o, some value) => read (w.set o value) (next :: rest)
      | some (o, none) => read (w.set o next) rest
      | none => none
    else read { w with paths := w.paths ++ [word] } (next :: rest)

end CommandWords

namespace CommandLine

/-- A command line that cannot be followed. -/
def misused : CommandLine :=
  .exit 2 ""

/-- What the words behind a command come to.  Help ends the program well. -/
def ofArguments (command : Command) (words : List String) : CommandLine :=
  match CommandWords.read { invocation := { command } } words with
  | none => misused
  | some w =>
    if w.help then .exit 0 ""
    else match w.paths with
      | [path] => .invocation { w.invocation with path }
      | _ => misused

/-- What a command line comes to.  Before the command there are no options but help. -/
def ofWords : List String → CommandLine
  | "--help" :: _ => .exit 0 ""
  | "--" :: name :: words | name :: words =>
    match Command.ofName? name with
    | some command => ofArguments command words
    | none => misused
  | [] => misused

end CommandLine

end TreeWalk
