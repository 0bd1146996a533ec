import TreeWalk.CommandLine
import TreeWalk.Console
import TreeWalk.Json.Reader
import TreeWalk.Packages
import TreeWalk.Source.Statement
import TreeWalk.Text.Utf8
import TreeWalk.Yaml.Document

/-! # Standard packages

The program can be run with readers, a terminal and a command line of its own.  They do what the
packages do on the documents that are met, and not on all: the reader of source files knows the
commonest statements and expressions only, the one of YAML says nothing of why a document is not
well formed, and the console has neither colours nor emoji.

## Key results

* `Readers.standard` are the readers.
* `Packages.standard` are all packages. -/

namespace TreeWalk

/-- The exception for a numeral with too many digits. -/
def NumeralTooLong.raised (error : NumeralTooLong) : Raised :=
  ⟨"ValueError", true, error.message⟩

/-- What the reader of JSON raises. -/
def Json.Error.readError (text : List Char) : Json.Error → ReadError String
  | .numeral error => .raised error.raised
  | error => .malformed (error.message text)

/-- The class of the exception for a YAML document that is well formed but means nothing, and
    whether it is one of value errors. -/
def Yaml.Error.exceptionClass : Yaml.Error → String × Bool
  | .notTruth _ => ("KeyError", false)
  | .emptyNumber => ("IndexError", false)
  | .notTime => ("AttributeError", false)
  | .codeOverflow => ("OverflowError", false)
  | _ => ("ValueError", true)

/-- What the reader of YAML raises. -/
def Yaml.Error.readError : Yaml.Error → ReadError String
  | .malformed => .malformed (Yaml.Error.malformed).message
  | error =>
    let (className, isValueError) := error.exceptionClass
    .raised ⟨className, isValueError, error.message⟩

/-- What the reader of source files raises. -/
def Source.Error.readError : Source.Error → ReadError SyntaxFault
  | .malformed line => .malformed ⟨some line, "invalid syntax"⟩
  | .nullCharacter => .malformed ⟨none, nullCharacterMessage⟩

/-- The error for a file that is no text. -/
def Utf8Error.readError (error : Utf8Error) : ReadError String :=
  .raised ⟨"UnicodeDecodeError", true, error.message⟩

/-- The readers of the formats. -/
def Readers.standard : Readers where
  json text := (Json.read text).mapError (Json.Error.readError text)
  yaml text := (Yaml.read text).mapError Yaml.Error.readError
  yamlFile content := do
    let text ← (Utf8.decodeStream content).mapError Utf8Error.readError
    (Yaml.read (unifyNewlines text)).mapError Yaml.Error.readError
  source text := (Source.read text).mapError Source.Error.readError

/-- All packages, with a console of the given width. -/
def Packages.standard (width : Nat) : Packages where
  readers := .standard
  terminal := .console width
  commandLine := CommandLine.ofWords

end TreeWalk
