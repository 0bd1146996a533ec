/-! # Invocations

A command line asks for a command on a document, with options.  A package for command lines
tells what it asks for, or answers a line by itself: one that makes no sense, or asks for help.

## Key results

* `CommandLine` is what a command line comes to. -/

namespace TreeWalk

/-- What can be asked for. -/
inductive Command where
  | kinds
  | stats
  | scopes
  deriving DecidableEq, Repr

/-- A command with its path and its options. -/
structure Invocation where
  command : Command
  path : String := ""
  config : Option String := none
  tagField : Option String := none
  skipFields : List String := []
  verbosity : Option String := none
  output : Option String := none
  deriving DecidableEq, Repr

/-- What a command line comes to. -/
inductive CommandLine where
  | invocation (i : Invocation)
  /-- The program ends at once with a status, and something may have been printed. -/
  | exit (status : Nat) (printed : String)

end TreeWalk
