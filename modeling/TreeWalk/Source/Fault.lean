import TreeWalk.Source.Token

/-! # Faults in source files

A file that is not well formed has a fault at the first token that cannot go on what
is in front of it.  The line that a fault is reported on is mostly that of the token,
but some faults are reported where the offending construct starts, and a certain
error or an open bracket further on can be the better explanation.

## Key results

* `Fault.report` is the line a fault is reported on. -/

namespace TreeWalk

namespace Source

/-- A token that cannot stand where it does. -/
structure Fault where
  token : Token
  /-- The line at fault, if it is known better than by the token. -/
  line : Option Nat

namespace Fault

/-- Whether the token is a change of indentation. -/
def isIndentation : Lexeme → Bool
  | .indent | .dedent => true
  | _ => false

/-- The stop that tokens end with, if they do. -/
def stop? (tokens : List Token) : Option Stop :=
  match tokens.getLast? with
  | some ⟨.stop reason, _, _⟩ => some reason
  | _ => none

/-- The line of a fault when there may be a better explanation further on: a stop
    that is an error in any case, or a bracket opened on a line before the token and
    still open at the stop. -/
def explain (line : Nat) (token : Token) (tokens : List Token) : Nat :=
  match stop? tokens with
  | none => line
  | some stop =>
    if stop.isCertain then stop.line
    else match stop.openLine with
      | some opened => if opened < token.line then opened else line
      | none => line

/-- The line that a fault among the given tokens is reported on. -/
def report (fault : Fault) (tokens : List Token) : Nat :=
  match fault.token.lexeme, fault.line with
  | .stop reason, _ => reason.line
  | lexeme, none =>
    if isIndentation lexeme then fault.token.line
    else explain fault.token.line fault.token tokens
  | _, some line => explain line fault.token tokens

end Fault

/-- A step of reading tokens. -/
abbrev Parse := StateT (List Token) (Except Fault)

namespace Parse

/-- The next token. -/
def head : Parse Token :=
  return (← get).headD ⟨.textEnd, 0, 0⟩

/-- Goes over the next token. -/
def skip : Parse Unit :=
  modify List.tail

/-- The next token cannot stand here. -/
def reject : Parse α := do
  throw ⟨← head, none⟩

/-- What was read cannot stand here; that is reported on the line given. -/
def rejectAt (line : Nat) : Parse α := do
  throw ⟨← head, some line⟩

/-- Whether the next token is the given symbol. -/
def atSymbol (text : String) : Parse Bool := do
  match (← head).lexeme with
  | .symbol symbol => return symbol == text
  | _ => return false

/-- Whether the next token is the given keyword. -/
def atKeyword (text : String) : Parse Bool := do
  match (← head).lexeme with
  | .keyword word => return word == text
  | _ => return false

/-- Whether the next token is the end of a line. -/
def atLineEnd : Parse Bool := do
  match (← head).lexeme with
  | .lineEnd => return true
  | _ => return false

/-- Goes over the next token if it is the given symbol. -/
def skipSymbol (text : String) : Parse Bool := do
  let found ← atSymbol text
  if found then skip
  return found

/-- Goes over the next token if it is the given keyword. -/
def skipKeyword (text : String) : Parse Bool := do
  let found ← atKeyword text
  if found then skip
  return found

/-- Goes over the given symbol, which must be next. -/
def needSymbol (text : String) : Parse Unit := do
  if !(← skipSymbol text) then reject

/-- Goes over the given keyword, which must be next. -/
def needKeyword (text : String) : Parse Unit := do
  if !(← skipKeyword text) then reject

/-- A name, which must be next. -/
def needName : Parse String := do
  match (← head).lexeme with
  | .name text =>
    skip
    return text
  | _ => reject

/-- How deep calls may nest while the tokens that are left are read: a few for every
    token. -/
def fuel : Parse Nat :=
  return 32 * ((← get).length + 2)

end Parse

end Source

end TreeWalk
