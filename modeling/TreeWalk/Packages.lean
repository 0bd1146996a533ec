import TreeWalk.Invocation
import TreeWalk.Readers
import TreeWalk.Terminal

/-! # Packages

What a program takes from elsewhere: readers for documents and settings, a terminal to print on,
and what tells it the sense of its command line. -/

namespace TreeWalk

/-- The packages that a program is built on. -/
structure Packages where
  readers : Readers
  terminal : Terminal
  /-- What the words of a command line come to. -/
  commandLine : List String → CommandLine

end TreeWalk
