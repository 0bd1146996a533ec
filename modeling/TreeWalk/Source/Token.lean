import TreeWalk.Source.Literal
import TreeWalk.Text.Identifier
import TreeWalk.Text.Printable
import TreeWalk.Value

/-! # Tokens of source files

A source file is cut into words, numerals, strings and symbols, and into marks for
the ends of lines and for deeper and shallower indentation.  Inside brackets lines
and indentation mean nothing.

What cannot be cut ends the tokens with a stop that says why.  Some stops are
certain errors wherever they stand; others count only if the tokens in front are
well formed so far.

## Key results

* `Token.scan` cuts a text into tokens. -/

namespace TreeWalk

namespace Source

/-- Why the tokens end before the text does. -/
structure Stop where
  /-- The line at fault. -/
  line : Nat
  /-- Whether this is an error even after another one. -/
  isCertain : Bool
  /-- The line of the innermost bracket that is still open. -/
  openLine : Option Nat
  deriving DecidableEq, Repr

inductive Lexeme where
  /-- A word that is no keyword. -/
  | name (text : String)
  | keyword (text : String)
  | symbol (text : String)
  | numeral (value : Except NumeralTooLong Number)
  /-- A string: the value it spells, if it spells one, and whether its mark says
      that it holds text. -/
  | string (value : Option Value) (isMarked : Bool)
  | lineEnd
  | indent
  | dedent
  | textEnd
  | stop (reason : Stop)

structure Token where
  lexeme : Lexeme
  /-- The line it starts on. -/
  line : Nat
  /-- How many brackets are open around it. -/
  depth : Nat

/-- The words that are no names. -/
def keywords : List String :=
  ["False", "None", "True", "and", "as", "assert", "async", "await", "break", "class", "continue",
   "def", "del", "elif", "else", "except", "finally", "for", "from", "global", "if", "import", "in",
   "is", "lambda", "nonlocal", "not", "or", "pass", "raise", "return", "try", "while", "with",
   "yield"]

/-- The symbols of more than one character, longer ones first. -/
def longSymbols : List String :=
  ["**=", "//=", "<<=", ">>=", "...", "**", "//", "<<", ">>", "==", "!=", "<>", "<=", ">=", "->",
   ":=", "+=", "-=", "*=", "/=", "%=", "@=", "&=", "|=", "^="]

structure Scanner where
  rest : List Char
  line : Nat := 1
  /-- The open brackets with their lines, the innermost first. -/
  opened : List (Char × Nat) := []
  /-- The indentations of the blocks around, the innermost first, each measured with
      tabs to every eighth column and with tabs like blanks. -/
  indents : List (Nat × Nat) := []
  /-- The tokens so far, the last one first. -/
  tokens : List Token := []

/-- A step of the scanner; a stop keeps the tokens so far. -/
abbrev Scan := EStateM Stop Scanner

namespace Scan

/-- Goes over `n` characters. -/
def skip (n : Nat) : Scan Unit :=
  modify fun s =>
    let rest := s.rest.drop n
    let ends := (s.rest.take n).count '\n'
    -- The last line ends with the text.
    { s with rest, line := s.line + (if rest.isEmpty then ends - 1 else ends) }

def emitAt (line : Nat) (lexeme : Lexeme) : Scan Unit :=
  modify fun s => { s with tokens := ⟨lexeme, line, s.opened.length⟩ :: s.tokens }

/-- Adds a token that starts on this line. -/
def emit (lexeme : Lexeme) : Scan Unit := do
  emitAt (← get).line lexeme

/-- Stops with what is an error in any case. -/
def fail : Scan α := do
  let s ← get
  throw ⟨s.line, true, s.opened.head?.map Prod.snd⟩

/-- Stops with what is an error unless another one comes first. -/
def give : Scan α := do
  let s ← get
  throw ⟨s.line, false, s.opened.head?.map Prod.snd⟩

/-! ## Indentation -/

/-- The columns that leading blanks lead to, with tabs to every eighth column and
    with tabs like blanks, and what follows. -/
def measure (column plain : Nat) : List Char → (Nat × Nat) × List Char
  | ' ' :: rest => measure (column + 1) (plain + 1) rest
  | '\t' :: rest => measure ((column / 8 + 1) * 8) (plain + 1) rest
  | '\x0c' :: rest => measure 0 0 rest
  | rest => ((column, plain), rest)

/-- Whether nothing but blanks and a comment stands on a line. -/
def isBare (rest : List Char) : Bool :=
  rest.head? == some '#' || rest.head? == some '\n'

/-- The start of a line: marks for the blocks that its indentation opens or
    closes. -/
def takeIndentation : Scan Unit := do
  let s ← get
  let (here, rest) := measure 0 0 s.rest
  skip (s.rest.length - rest.length)
  -- Lines without anything on them open and close nothing.
  if isBare rest then return
  let current := s.indents.headD (0, 0)
  -- The two measures must agree on which line is deeper, or the indentation is not consistent.
  if here.1 = current.1 then
    if here.2 ≠ current.2 then give
  else if current.1 < here.1 then
    if here.2 ≤ current.2 then give
    modify fun s => { s with indents := here :: s.indents }
    emit .indent
  else
    let kept := s.indents.dropWhile fun indent => here.1 < indent.1
    let outer := kept.headD (0, 0)
    -- The line has to go back to the indentation of a block that is still open.
    if outer ≠ here then give
    modify fun s => { s with indents := kept }
    for _ in s.indents.take (s.indents.length - kept.length) do
      emit .dedent

/-! ## Tokens -/

/-- Whether letters in front of a quote say how its string is meant. -/
def isStringMark (word : List Char) : Bool :=
  ["r", "u", "b", "br", "rb"].contains (String.ofList (word.map Char.toLower))

/-- A string after its mark. -/
def takeString (mark : List Char) (quote : Char) : Scan Unit := do
  let line := (← get).line
  skip mark.length
  let tripled := [quote, quote, quote].isPrefixOf (← get).rest
  skip (if tripled then 3 else 1)
  let rest := (← get).rest
  match Literal.quoted? quote tripled rest with
  | some (inside, after) =>
    -- The marks may be in capitals, the quote comes right behind them.
    skip (rest.length - after.length)
    let marks := mark.map Char.toLower
    let raw := marks.contains 'r'
    let value := if marks.contains 'b' then (Literal.bytes? raw inside).map Value.bytes
      else (Literal.text? raw inside).map Value.str
    emitAt line (.string value (mark.head? == some 'u'))
  | none => throw ⟨line, true, (← get).opened.head?.map Prod.snd⟩

def takeNumeral : Scan Unit := do
  let rest := (← get).rest
  match Literal.numeral? rest with
  | some (value, after) =>
    emit (.numeral value)
    skip (rest.length - after.length)
  | none => fail

def takeWord (word : List Char) : Scan Unit := do
  if word.all (·.toNat < 128) || Identifier.isIdentifier word then
    let text := String.ofList word
    emit (if keywords.contains text then .keyword text else .name text)
    skip word.length
  else fail

/-- The bracket that closes what the given one opens. -/
def closing? : Char → Option Char
  | '(' => some ')'
  | '[' => some ']'
  | '\x7b' => some '\x7d'
  | _ => none

/-- A symbol; brackets must match. -/
def takeSymbol (c : Char) : Scan Unit := do
  let s ← get
  if (closing? c).isSome then
    set { s with opened := (c, s.line) :: s.opened }
  else if c == ')' || c == ']' || c == '\x7d' then
    match s.opened with
    | (start, _) :: outer =>
      if closing? start == some c then set { s with opened := outer } else fail
    | [] => fail
  else if !isPrintable c then fail
  let text := (longSymbols.find? fun symbol => symbol.toList.isPrefixOf s.rest).getD
    (String.singleton c)
  emit (.symbol text)
  skip text.length

/-- A backslash, which joins a line with the next one. -/
def takeContinuation : Scan Unit := do
  -- A backslash at the end of the text joins nothing.
  match (← get).rest with
  | _ :: '\n' :: _ :: _ => skip 2
  | _ => give

/-- The end of the text: all blocks end too. -/
def takeEnd : Scan Unit := do
  let s ← get
  -- A bracket that is never closed is reported on its own line.
  match s.opened with
  | (_, line) :: _ => throw ⟨line, false, some line⟩
  | [] =>
    for _ in s.indents do
      emit .dedent
    emit .textEnd

/-- The end of a line, which counts if something stands on it outside brackets;
    `isBlank` says whether nothing does. -/
def takeLineEnd (isBlank : Bool) : Scan Unit := do
  if !isBlank && (← get).opened.isEmpty then emit .lineEnd
  skip 1

/-- Takes tokens to the end of the text, at most `fuel`.  `atStart` says whether
    nothing but blanks has been read of the line outside brackets. -/
def takeTokens (atStart : Bool) : Nat → Scan Unit
  | 0 => fail
  | fuel + 1 => do
    if atStart then takeIndentation
    let rest := (← get).rest
    match rest with
    | [] => takeEnd
    | '\n' :: _ =>
      takeLineEnd atStart
      takeTokens (← get).opened.isEmpty fuel
    | '#' :: _ =>
      skip (rest.takeWhile (· != '\n')).length
      takeLineEnd atStart
      takeTokens (← get).opened.isEmpty fuel
    | '\\' :: _ =>
      takeContinuation
      takeTokens false fuel
    | c :: after =>
      if c == ' ' || c == '\t' || c == '\x0c' then skip 1
      else
        let word := rest.takeWhile Literal.isWordPart
        -- What a word is depends on what comes behind it: a quote makes it the mark of a string.
        let next := (rest.drop word.length).head?.getD '\n'
        let isQuote := next == '"' || next == '\x27'
        if c.isDigit || (c == '.' && after.head?.any Char.isDigit) then takeNumeral
        else if isQuote && (word.isEmpty || isStringMark word) then takeString word next
        else if word.isEmpty then takeSymbol c
        else takeWord word
      takeTokens false fuel
end Scan

/-- Cuts a text into tokens, of which the last one is the end or a stop.  A text
    whose last line has no end is given one. -/
def Token.scan (text : List Char) : List Token :=
  let text := if text.getLast? == some '\n' || text.isEmpty then text else text ++ ['\n']
  match Scan.takeTokens true (2 * text.length + 2) |>.run { rest := text } with
  | .ok () s => s.tokens.reverse
  | .error reason s =>
    (⟨.stop reason, reason.line, s.opened.length⟩ :: s.tokens).reverse

end Source

end TreeWalk
