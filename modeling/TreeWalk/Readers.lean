import TreeWalk.Value

/-! # Readers

The texts of documents and settings are read by packages: one for JSON, one for YAML, and one
for source files.  What a text spells is not said here; a reader is given by the values that
come out, and by what it raises instead.  There is a class of exceptions for a text that is not
well formed, and whatever else a reader raises is of another class.

## Key results

* `Readers` is what is known of the packages. -/

namespace TreeWalk

/-- An exception by the name of its class, whether it counts as a value error, and its wording. -/
structure Raised where
  className : String
  isValueError : Bool
  message : String
  deriving DecidableEq, Repr

/-- Why a text has not been read. -/
inductive ReadError (φ : Type) where
  /-- It is not well formed, and this is what is said of it. -/
  | malformed (fault : φ)
  /-- Something else was raised. -/
  | raised (exception : Raised)
  deriving DecidableEq, Repr

/-- What is said of a source file that is not well formed. -/
structure SyntaxFault where
  line : Option Nat
  message : String
  deriving DecidableEq, Repr

/-- The packages that read documents and settings. -/
structure Readers where
  /-- The value of a JSON text. -/
  json : List Char → Except (ReadError String) Value
  /-- The value of a YAML text. -/
  yaml : List Char → Except (ReadError String) Value
  /-- The value of a YAML file that is decoded while it is read. -/
  yamlFile : List UInt8 → Except (ReadError String) Value
  /-- The syntax tree of a source file. -/
  source : List Char → Except (ReadError SyntaxFault) Value

end TreeWalk
