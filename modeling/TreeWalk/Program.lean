import TreeWalk.Config
import TreeWalk.Packages
import TreeWalk.Report
import TreeWalk.Summary

/-! # The program

The program runs one command on one document and prints what it finds.  It ends well,
or with a status that says why not: the command line is wrong, or the document or its
settings cannot be read.  What it does not account for ends it with an error of its
own; what has been printed until then stays printed.

Files are reached through a function that says what a path leads to.  The packages that read
them, that print and that tell the sense of the command line are those given.

## Key results

* `Program.run` runs a command line.
* `Program.pathsOf` lists the paths it looks at. -/

namespace TreeWalk

namespace Program

/-- An error that ends the program. -/
inductive Crash where
  | load (error : LoadError)
  | report (error : Report.Error)
  | scopes (error : Scopes.NotIterable)

/-- The wording of the error. -/
def Crash.message : Crash → String
  | .load error => error.message
  | .report error => error.message
  | .scopes error => error.message

/-- How the program ends before its work is done. -/
inductive Exit where
  | status (code : Nat)
  | crash (cause : Crash)

/-- The status for options that make no sense. -/
def usageStatus : Nat := 2

/-- The status for a document or settings that cannot be read, and for errors. -/
def failureStatus : Nat := 1

/-- A part of the program, with what has been printed as its state. -/
abbrev Session := EStateM Exit String

namespace Session

/-- Ends the program with a status. -/
def leave (code : Nat) : Session α :=
  throw (.status code)

/-- Prints text as it stands. -/
def write (text : String) : Session Unit :=
  modify (· ++ text)

/-- Prints a report if there is one. -/
def report (text : Except Report.Error String) : Session Unit :=
  match text with
  | .ok text => write text
  | .error error => throw (.crash (.report error))

section

variable (terminal : Terminal)

/-- Prints a text with markup. -/
def print (text : String) : Session Unit :=
  report ((terminal.marked text).mapError .markup)

/-- Prints a log line. -/
def printLog (line : String) : Session Unit :=
  write (terminal.literal line)

/-- Logs a message if the verbosity shows it. -/
def log (verbosity : Verbosity) (severity : Severity) (message : String) : Session Unit :=
  ((VerbositySetting.level verbosity).lines severity message).forM (printLog terminal)

/-- Prints what went wrong and ends the program. -/
def fail (what message : String) : Session α := do
  print terminal ("[red]" ++ what ++ ": " ++ message ++ "[/red]")
  leave failureStatus

end

/-! ## Settings -/

/-- The forms in which counts can be printed. -/
inductive OutputFormat where
  | console
  | json
  deriving DecidableEq, Repr

/-- The output format that a text names; without a text it is the console. -/
def outputFormat (text : Option String) : Session OutputFormat :=
  match text.map String.toLower with
  | none | some "console" => return .console
  | some "json" => return .json
  | _ => leave usageStatus

section

variable (packages : Packages)

/-- The settings: those of the file, if one is given, and those of the command line on
    top of them. -/
def settings (find : String → Option FileEntry) (i : Invocation) : Session Config := do
  let config ← match i.config with
    | none => pure {}
    | some path => match Config.load packages.readers find (PathName.normalize path) with
      | .ok config => pure config
      | .error error => fail packages.terminal "Error loading config" error.message
  -- An empty name on the command line is as good as none.
  let tagField := match i.tagField with
    | some name => if name.isEmpty then config.tagField else name
    | none => config.tagField
  let verbosity ← match i.verbosity with
    | none | some "" => pure config.verbosity
    | some name => match Verbosity.ofName? name.toLower with
      | some verbosity => pure verbosity
      | none => leave usageStatus
  return { tagField, skipFields := config.skipFields ++ i.skipFields, verbosity }

/-! ## Documents -/

/-- Whether a failure to load a document is accounted for. -/
def isReported : LoadError → Bool
  | .unknownFormat _ | .encoding _ | .tree _ _ => true
  | .raised exception => exception.isValueError
  | .notFound _ | .isDirectory _ => false

/-- Loads the document. -/
def document (find : String → Option FileEntry) (i : Invocation) (config : Config) :
    Session Document := do
  let path := PathName.normalize i.path
  match Document.load packages.readers find path config.tagField
      (config.skipFields.map Value.str) with
  | .ok d =>
    log packages.terminal config.verbosity .debug ("Loaded " ++ d.path ++ " as " ++ d.format.name)
    return d
  | .error error =>
    if isReported error then fail packages.terminal "Error loading tree" error.message
    else throw (.crash (.load error))

/-! ## Commands -/

/-- Prints the kinds of all nodes. -/
def kinds (d : Document) (verbosity : Verbosity) : Session Unit := do
  let listing := listKinds d.root (.list []) d.adapter (some (.level verbosity))
  -- The log comes out before the listing, although both grow during one walk.
  listing.own.lines.forM (printLog packages.terminal)
  (listing.own.own.filterMap Value.text?).forM (print packages.terminal)

/-- Prints how often each kind occurs and how deep the tree is. -/
def stats (d : Document) (verbosity : Verbosity) (format : OutputFormat) : Session Unit := do
  let (summary, lines) := Summary.ofDocument d (some (.level verbosity))
  lines.forM (printLog packages.terminal)
  match format with
  | .json => report (summary.jsonLines.mapError .integer)
  | .console =>
    report (Report.counts packages.terminal summary.counts)
    print packages.terminal ("Max depth: " ++ toString summary.maxDepth)

/-- What is said when scopes are asked of a source file. -/
def sourceWarning (path : String) : String :=
  path ++ " is Python source; scopes are collected from ESTree/Babel kinds only"

/-- Prints the scopes of a program. -/
def scopes (d : Document) (verbosity : Verbosity) : Session Unit := do
  -- The warning does not stop the command.
  if d.format = .source then log packages.terminal verbosity .warning (sourceWarning d.path)
  let start : ScopeStore := #[{}]
  let ending := traverseLogged d.root collectScopes (some 0) start d.adapter
    (some (.level verbosity))
  ending.own.lines.forM (printLog packages.terminal)
  match ending.outcome with
  | .ok scope =>
    let tree := ScopeStore.tree ending.own.own (scope.getD 0)
    report ((Report.scopes packages.terminal d.adapter tree).mapError .markup)
  | .error (.step error) => throw (.crash (.scopes error))
  | .error (.breach breach place) =>
    fail packages.terminal "Traversal failed" (breach.message place)
  | .error (.noFields _) => leave failureStatus

/-- Runs a command. -/
def invoke (find : String → Option FileEntry) (i : Invocation) : Session Unit := do
  -- That the file is there is checked with the options, before anything is read.
  if (find i.path).isNone then leave usageStatus
  let format ← outputFormat i.output
  let config ← settings packages find i
  let d ← document packages find i config
  match i.command with
  | .kinds => kinds packages d config.verbosity
  | .stats => stats packages d config.verbosity format
  | .scopes => scopes packages d config.verbosity

end

end Session

variable (packages : Packages)

/-- The paths that a command line leads to: the document's as it is given, and all of
    them without what says nothing. -/
def pathsOf (words : List String) : List String :=
  match packages.commandLine words with
  | .exit _ _ => []
  | .invocation i => i.path :: PathName.normalize i.path :: (i.config.map PathName.normalize).toList

/-- What a run of the program leaves behind. -/
structure Outcome where
  status : Nat
  printed : String
  crash : Option Crash

/-- Runs a command line. -/
def run (find : String → Option FileEntry) (words : List String) : Outcome :=
  match packages.commandLine words with
  | .exit status printed => ⟨status, printed, none⟩
  | .invocation i => match Session.invoke packages find i |>.run "" with
    | .ok () printed => ⟨0, printed, none⟩
    | .error (.status code) printed => ⟨code, printed, none⟩
    | .error (.crash cause) printed => ⟨failureStatus, printed, some cause⟩

end Program

end TreeWalk
