/-! # Logging

A log line is shown or held back according to the verbosity asked for: detail at
the verbose level, information from the normal level on, warnings and errors
always.  A verbosity that was given as mere text is not recognised as the verbose
level, though it still counts for information if it spells a level that shows
it. -/

namespace TreeWalk

/-- How much is logged. -/
inductive Verbosity where
  | quiet
  | normal
  | verbose
  deriving DecidableEq, Repr

namespace Verbosity

/-- The name of a level. -/
def name : Verbosity → String
  | .quiet => "quiet"
  | .normal => "normal"
  | .verbose => "verbose"

/-- The level with the given name. -/
def ofName? : String → Option Verbosity
  | "quiet" => some .quiet
  | "normal" => some .normal
  | "verbose" => some .verbose
  | _ => none

/-- What is said of a text that names no level. -/
def invalid (s : String) : String :=
  "'" ++ s ++ "' is not a valid VerbosityLevel"

theorem ofName?_name (v : Verbosity) : ofName? v.name = some v := by
  cases v <;> rfl

end Verbosity

/-- The verbosity a logger was set up with. -/
inductive VerbositySetting where
  | level (v : Verbosity)
  | text (s : String)
  deriving DecidableEq, Repr

/-- The kinds of log lines. -/
inductive Severity where
  | debug
  | info
  | warning
  | error
  deriving DecidableEq, Repr

/-- The mark in front of a log line. -/
def Severity.mark : Severity → String
  | .debug => "[verbose] "
  | .info => "[info] "
  | .warning => "[warn] "
  | .error => "[error] "

namespace VerbositySetting

/-- Whether detail is shown. -/
def isVerbose : VerbositySetting → Bool
  | .level .verbose => true
  | _ => false

/-- Whether information is shown. -/
def showsInfo : VerbositySetting → Bool
  | .level v => v != .quiet
  | .text s => s == Verbosity.normal.name || s == Verbosity.verbose.name

/-- Whether lines of the given severity are shown. -/
def shows (v : VerbositySetting) : Severity → Bool
  | .debug => v.isVerbose
  | .info => v.showsInfo
  | .warning | .error => true

/-- The lines that a message gives: one with its mark, or none. -/
def lines (v : VerbositySetting) (severity : Severity) (message : String) : List String :=
  if v.shows severity then [severity.mark ++ message] else []

end VerbositySetting

/-- A logger that hands its lines to a sink of type `σ`. -/
structure Logger (σ : Type) where
  verbosity : VerbositySetting
  emit : String → σ → σ

namespace Logger

variable {σ : Type}

/-- Hands a message on if its severity is shown. -/
def log (logger : Logger σ) (severity : Severity) (message : String) (sink : σ) : σ :=
  (logger.verbosity.lines severity message).foldl (fun sink line => logger.emit line sink) sink

end Logger

end TreeWalk
