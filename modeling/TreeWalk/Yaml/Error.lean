import TreeWalk.Numeric.Numeral
import TreeWalk.Text.Quoted

/-! # Errors in YAML documents

What is wrong with the form of a document is one error, of which no more is said.
A scalar that does not spell what its tag promises is an error of its own kind. -/

namespace TreeWalk

namespace Yaml

/-- Why a document has no value. -/
inductive Error where
  /-- It is not well formed, or says something that has no meaning. -/
  | malformed
  /-- A code point was asked for that there is none of. -/
  | codePoint
  /-- A code point was asked for by a number that is no machine integer. -/
  | codeOverflow
  /-- A text was asked for that holds half of a surrogate pair. -/
  | halfPair
  /-- An integer with more digits than are read. -/
  | numeral (error : NumeralTooLong)
  /-- A scalar marked as an integer that is none in the base given. -/
  | notInteger (base : Nat) (text : String)
  /-- A scalar marked as a number that is none. -/
  | notNumber (text : String)
  /-- A scalar marked as a truth value that is none. -/
  | notTruth (text : String)
  /-- A scalar marked as a number that is empty. -/
  | emptyNumber
  /-- A scalar marked as a time that is none. -/
  | notTime
  /-- A day with a year that there is none of. -/
  | yearRange (year : Nat)
  /-- A day with a month that there is none of. -/
  | monthRange
  /-- A day that its month does not have. -/
  | dayRange
  | hourRange
  | minuteRange
  | secondRange
  /-- A distance from universal time of a day or more, which messages show as given. -/
  | offsetRange (display : String)
  deriving DecidableEq, Repr

/-- The wording of an error; a document that is not well formed has none. -/
def Error.message : Error → String
  | .malformed => ""
  | .codePoint => "chr() arg not in range(0x110000)"
  | .codeOverflow => "Python int too large to convert to C int"
  | .halfPair => "Half of a surrogate pair"
  | .numeral error => error.message
  | .notInteger base text =>
    "invalid literal for int() with base " ++ toString base ++ ": " ++ Quoted.text text
  | .notNumber text => "could not convert string to float: " ++ Quoted.text text
  | .notTruth text => Quoted.text text
  | .emptyNumber => "string index out of range"
  | .notTime => "'NoneType' object has no attribute 'groupdict'"
  | .yearRange year => "year " ++ toString year ++ " is out of range"
  | .monthRange => "month must be in 1..12"
  | .dayRange => "day is out of range for month"
  | .hourRange => "hour must be in 0..23"
  | .minuteRange => "minute must be in 0..59"
  | .secondRange => "second must be in 0..59"
  | .offsetRange display =>
    "offset must be a timedelta strictly between -timedelta(hours=24) and " ++
      "timedelta(hours=24), not " ++ display ++ "."

end Yaml

end TreeWalk
