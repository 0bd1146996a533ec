import TreeWalk.Program
import TreeWalk.Standard

/-! # The command

Reads the files that the command line leads to, runs the program on them, and passes
on what it printed and its status. -/

open TreeWalk

/-- What a path leads to on disk.  A directory opens, but reading it fails with error 21. -/
def readEntry (path : String) : IO (Option FileEntry) := do
  try
    return some (.file (← IO.FS.readBinFile path).toList)
  catch
    | .inappropriateType _ 21 _ => return some .directory
    | _ => return none

/-- The packages of the command; its console is as wide as one that goes to no screen. -/
def packages : Packages :=
  .standard 80

def main (args : List String) : IO UInt32 := do
  let entries ← (Program.pathsOf packages args).mapM fun path => return (path, ← readEntry path)
  let outcome := Program.run packages (fun path => (entries.lookup path).join) args
  IO.print outcome.printed
  if let some crash := outcome.crash then IO.eprintln crash.message
  return outcome.status.toUInt32
