import TreeWalk.Yaml.Error

/-! # Tokens of YAML documents

A document is cut into scalars, the marks of flow collections, and the marks of
block structure, which come from indentation: an entry indented deeper than what
is around it opens a block collection, and a token further left closes those it
leaves.  Whether a scalar is the key of a mapping shows only at the colon after
it, so every place where a key may start is remembered until the line ends, and
the marks belonging in front of the key are put in when the colon comes.

## Key results

* `Token.scan` cuts a text into tokens. -/

namespace TreeWalk

namespace Yaml

/-- A tag as it is written: a handle, if it has one, and what follows it. -/
structure TagName where
  handle : Option String
  suffix : String
  deriving DecidableEq, Repr

/-- What a line that starts with a percent sign says. -/
inductive Directive where
  | version (major : Nat)
  | tagHandle (handle replacement : String)
  | other
  deriving DecidableEq, Repr

inductive Token where
  | streamEnd
  | directive (d : Directive)
  | documentStart
  | documentEnd
  | blockSequenceStart
  | blockMappingStart
  | blockEnd
  | flowSequenceStart
  | flowMappingStart
  | flowSequenceEnd
  | flowMappingEnd
  | blockEntry
  | flowEntry
  | key
  | value
  | alias (name : String)
  | anchor (name : String)
  | tag (name : TagName)
  /-- A scalar; a plain one stands without quotes or block header. -/
  | scalar (text : String) (isPlain : Bool)
  deriving DecidableEq, Repr

/-! ## Characters -/

/-- What stands for the end of the text. -/
def endMark : Char := '\x00'

def isBreak (c : Char) : Bool :=
  c == '\n' || c == '\r' || c == '\x85' || c == '\u2028' || c == '\u2029'

def isBreakOrEnd (c : Char) : Bool :=
  c == endMark || isBreak c

/-- A blank, a line end or the end: what may part two tokens. -/
def isGap (c : Char) : Bool :=
  c == ' ' || c == '\t' || isBreakOrEnd c

/-- A blank other than a tab, a line end or the end. -/
def isPlainGap (c : Char) : Bool :=
  c == ' ' || isBreakOrEnd c

/-- The characters of names. -/
def isWord (c : Char) : Bool :=
  c.isAlphanum || c == '-' || c == '_'

/-- Whether a character may stand in a document at all. -/
def isAllowed (c : Char) : Bool :=
  let n := c.toNat
  n == 0x9 || n == 0xA || n == 0xD || (0x20 ≤ n && n ≤ 0x7E) || n == 0x85 ||
    (0xA0 ≤ n && n ≤ 0xD7FF) || (0xE000 ≤ n && n ≤ 0xFFFD) || 0x10000 ≤ n

/-! ## The scanner -/

/-- A place where a key may have started. -/
structure KeyPlace where
  /-- The number of tokens before it. -/
  token : Nat
  /-- Whether there must be a key, because the line starts at the indentation. -/
  required : Bool
  index : Nat
  line : Nat
  column : Nat

structure Scanner where
  rest : List Char
  index : Nat := 0
  line : Nat := 0
  column : Nat := 0
  /-- How many flow collections are open. -/
  flow : Nat := 0
  /-- The indentation of the innermost block collection. -/
  indent : Int := -1
  /-- The indentations of the block collections around it. -/
  outer : List Int := []
  /-- The tokens so far, the last one first. -/
  tokens : List Token := []
  /-- Whether a key may start here. -/
  keyAllowed : Bool := true
  /-- The possible key of each flow level. -/
  keys : List (Nat × KeyPlace) := []

/-- A step of the scanner. -/
abbrev Scan := StateT Scanner (Except Error)

namespace Scan

/-- Gives up: the document is not well formed. -/
def reject : Scan α :=
  throw .malformed

/-- The character `k` places on. -/
def peek (k : Nat := 0) : Scan Char :=
  return (← get).rest.getD k endMark

/-- Goes over one character. -/
def skip : Scan Unit :=
  modify fun s => match s.rest with
    | [] => s
    | c :: rest =>
      -- A carriage return before a line feed ends no line of its own.
      if isBreak c && !(c == '\r' && rest.head? == some '\n') then
        { s with rest, index := s.index + 1, line := s.line + 1, column := 0 }
      -- A byte order mark takes up no column.
      else if c == '\ufeff' then { s with rest, index := s.index + 1 }
      else { s with rest, index := s.index + 1, column := s.column + 1 }

/-- Goes over `n` characters. -/
def skipMany : Nat → Scan Unit
  | 0 => pure ()
  | n + 1 => do
    skip
    skipMany n

/-- Goes over the characters in front for which `p` holds and gives them. -/
def takeWhile (p : Char → Bool) : Scan (List Char) := do
  let taken := (← get).rest.takeWhile p
  skipMany taken.length
  return taken

/-- The character that a line end stands for. -/
def lineBreak (c : Char) : List Char :=
  if c == '\u2028' || c == '\u2029' then [c] else if isBreak c then ['\n'] else []

/-- Goes over a line end, if one is there, and gives what it stands for. -/
def takeBreak : Scan (List Char) := do
  let c ← peek
  if c == '\r' && (← peek 1) == '\n' then skipMany 2
  else if isBreak c then skip
  return lineBreak c

/-- Adds a token. -/
def emit (t : Token) : Scan Unit :=
  modify fun s => { s with tokens := t :: s.tokens }

/-- Puts tokens in before the one with the given number. -/
def insertAt (number : Nat) (inserted : List Token) : Scan Unit :=
  modify fun s =>
    -- The tokens are kept in reverse, so those behind the place come first.
    let after := s.tokens.length - number
    { s with tokens := s.tokens.take after ++ inserted.reverse ++ s.tokens.drop after }

/-! ### Indentation -/

/-- Closes the block collections indented deeper than `column`; at most `fuel`. -/
def unwind (column : Int) : Nat → Scan Unit
  | 0 => pure ()
  | fuel + 1 => do
    let s ← get
    -- Inside brackets the indentation means nothing.
    if s.flow = 0 ∧ column < s.indent then
      set { s with indent := s.outer.headD (-1), outer := s.outer.tail,
                   tokens := .blockEnd :: s.tokens }
      unwind column fuel

/-- Closes all block collections indented deeper than `column`. -/
def unwindTo (column : Int) : Scan Unit := do
  unwind column ((← get).outer.length + 1)

/-- Opens a block collection at `column` if that is deeper than the indentation. -/
def addIndent (column : Nat) : Scan Bool := do
  let s ← get
  if s.indent < column then
    set { s with indent := (column : Int), outer := s.indent :: s.outer }
    return true
  else
    return false

/-! ### Possible keys -/

/-- Forgets the possible key of this flow level; if it was required, it is
    missing. -/
def dropKey : Scan Unit := do
  let s ← get
  match s.keys.lookup s.flow with
  | some key =>
    if key.required then reject
    else set { s with keys := s.keys.filter fun k => k.1 != s.flow }
  | none => pure ()

/-- Remembers that a key may start here. -/
def saveKey : Scan Unit := do
  let s ← get
  if s.keyAllowed then
    dropKey
    -- In a block, what starts at the indentation has to be a key.
    let key : KeyPlace := ⟨s.tokens.length, s.flow = 0 ∧ s.indent = s.column, s.index, s.line,
      s.column⟩
    modify fun s => { s with keys := (s.flow, key) :: s.keys }

/-- Forgets the possible keys that can be none any more: a key ends on its line and
    within 1024 characters. -/
def dropStaleKeys : Scan Unit := do
  let s ← get
  let isStale := fun (key : KeyPlace) => key.line != s.line || s.index - key.index > 1024
  if s.keys.any fun k => isStale k.2 && k.2.required then reject
  else set { s with keys := s.keys.filter fun k => !isStale k.2 }

def allowKey (allowed : Bool) : Scan Unit :=
  modify fun s => { s with keyAllowed := allowed }

/-! ### Between tokens -/

/-- Goes over blanks, comments and line ends; at most `fuel` lines. -/
def skipToToken : Nat → Scan Unit
  | 0 => pure ()
  | fuel + 1 => do
    let _ ← takeWhile (· == ' ')
    if (← peek) == '#' then
      let _ ← takeWhile fun c => !isBreakOrEnd c
    if (← takeBreak) != [] then
      -- In a block a new line may start with a key.
      if (← get).flow = 0 then allowKey true
      skipToToken fuel

/-- Whether a document mark of three such characters stands here. -/
def atMark (c : Char) : Scan Bool :=
  return (← peek) == c && (← peek 1) == c && (← peek 2) == c && isGap (← peek 3)

/-- Whether a line starts here with a document mark. -/
def atSeparator : Scan Bool :=
  return (← atMark '-') || (← atMark '.')

/-! ### Directives, anchors, tags -/

/-- Goes over the rest of a line, which may hold a comment. -/
def restOfLine : Scan Unit := do
  let _ ← takeWhile (· == ' ')
  if (← peek) == '#' then
    let _ ← takeWhile fun c => !isBreakOrEnd c
  if isBreakOrEnd (← peek) then
    let _ ← takeBreak
  else reject

/-- One or more digits. -/
def takeNumber : Scan Nat := do
  let digits ← takeWhile Char.isDigit
  if digits.isEmpty then reject
  return Numeral.value 10 digits

/-- The handle of a tag, from one exclamation mark to the next. -/
def takeHandle : Scan String := do
  if (← peek) != '!' then reject
  skip
  if (← peek) == ' ' then return "!"
  let word ← takeWhile isWord
  if (← peek) != '!' then reject
  skip
  return "!" ++ String.ofList word ++ "!"

/-- The characters of tags, besides percent escapes. -/
def isUriChar (c : Char) : Bool :=
  c.isAlphanum || "-;/?:@&=+$,_.!~*'()[]".toList.contains c

/-- Goes over percent escapes and gives the bytes they stand for; at most `fuel`. -/
def takeEscapes (bytes : List UInt8) : Nat → Scan (List UInt8)
  | 0 => return bytes
  | fuel + 1 => do
    if (← peek) != '%' then return bytes
    -- What is no digit has a value of sixteen or more.
    let high := Numeral.digitValue (← peek 1)
    let low := Numeral.digitValue (← peek 2)
    if high < 16 ∧ low < 16 then
      skipMany 3
      takeEscapes (bytes ++ [UInt8.ofNat (high * 16 + low)]) fuel
    else reject

/-- The characters that escaped bytes spell. -/
def ofBytes (bytes : List UInt8) : Scan (List Char) :=
  match String.fromUTF8? (ByteArray.mk bytes.toArray) with
  | some s => return s.toList
  | none => reject

/-- The rest of a tag; at most `fuel` pieces. -/
def takeUri (chunks : List Char) : Nat → Scan String
  | 0 => reject
  | fuel + 1 => do
    let piece ← takeWhile isUriChar
    if (← peek) == '%' then
      let escaped ← ofBytes (← takeEscapes [] (← get).rest.length)
      takeUri (chunks ++ piece ++ escaped) fuel
    else
      let all := chunks ++ piece
      if all.isEmpty then reject
      return String.ofList all

/-- A directive line. -/
def takeDirective : Scan Directive := do
  skip
  let name ← takeWhile isWord
  if name.isEmpty || !isPlainGap (← peek) then reject
  let directive ←
    if name == "YAML".toList then do
      let _ ← takeWhile (· == ' ')
      let major ← takeNumber
      -- The numbers of a version are parted by a point, and only the first one matters.
      if (← peek) != '.' then reject
      skip
      let _ ← takeNumber
      if !isPlainGap (← peek) then reject
      pure (Directive.version major)
    else if name == "TAG".toList then do
      let _ ← takeWhile (· == ' ')
      let handle ← takeHandle
      if (← peek) != ' ' then reject
      let _ ← takeWhile (· == ' ')
      let replacement ← takeUri [] ((← get).rest.length + 1)
      if !isPlainGap (← peek) then reject
      pure (Directive.tagHandle handle replacement)
    else do
      -- Other directives are passed over.
      let _ ← takeWhile fun c => !isBreakOrEnd c
      pure Directive.other
  restOfLine
  return directive

/-- The name of an anchor or an alias. -/
def takeName : Scan String := do
  skip
  let name ← takeWhile isWord
  let next ← peek
  if name.isEmpty then reject
  if isGap next || "?:,]\x7d%@\x60".toList.contains next then return String.ofList name
  else reject

/-- Whether an exclamation mark comes before the next blank. -/
def hasHandle : Scan Bool :=
  return ((← get).rest.drop 1).takeWhile (fun c => !isPlainGap c) |>.contains '!'

/-- A tag. -/
def takeTag : Scan TagName := do
  let next ← peek 1
  let name : TagName ←
    if next == '<' then do
      -- The whole tag is written out between angle brackets.
      skipMany 2
      let uri ← takeUri [] ((← get).rest.length + 1)
      if (← peek) != '>' then reject
      skip
      pure ⟨none, uri⟩
    else if isGap next then do
      -- An exclamation mark alone.
      skip
      pure ⟨none, "!"⟩
    else if ← hasHandle then do
      let handle ← takeHandle
      pure ⟨some handle, ← takeUri [] ((← get).rest.length + 1)⟩
    else do
      -- Without a second exclamation mark the handle is the first one.
      skip
      pure ⟨some "!", ← takeUri [] ((← get).rest.length + 1)⟩
  if isPlainGap (← peek) then return name else reject

/-! ### Block scalars -/

/-- What becomes of the line ends at the end of a block scalar. -/
inductive Chomping where
  | strip
  | clip
  | keep
  deriving DecidableEq, Repr

def chompingOf (c : Char) : Chomping :=
  if c == '+' then .keep else .strip

/-- The digit of an indentation indicator, which is not zero. -/
def takeIncrement : Scan Nat := do
  let c ← peek
  skip
  if c == '0' then reject
  return Numeral.digitValue c

/-- The indicators after the mark of a block scalar, in either order. -/
def takeHeader : Scan (Chomping × Option Nat) := do
  let c ← peek
  let isSign := fun (c : Char) => c == '+' || c == '-'
  let header ←
    if isSign c then do
      skip
      if (← peek).isDigit then pure (chompingOf c, some (← takeIncrement))
      else pure (chompingOf c, none)
    else if c.isDigit then do
      let increment ← takeIncrement
      let sign ← peek
      if isSign sign then
        skip
        pure (chompingOf sign, some increment)
      else pure (.clip, some increment)
    else pure (.clip, none)
  if isPlainGap (← peek) then return header else reject

/-- Goes over blanks up to column `indent`; at most `fuel`. -/
def skipIndent (indent : Nat) : Nat → Scan Unit
  | 0 => pure ()
  | fuel + 1 => do
    if (← get).column < indent ∧ (← peek) == ' ' then
      skip
      skipIndent indent fuel

/-- Goes over empty lines and gives their line ends; at most `fuel` lines. -/
def takeBreaks (indent : Nat) (breaks : List Char) : Nat → Scan (List Char)
  | 0 => return breaks
  | fuel + 1 => do
    skipIndent indent indent
    if isBreak (← peek) then
      let b ← takeBreak
      takeBreaks indent (breaks ++ b) fuel
    else return breaks

/-- Goes over empty lines in front of a block scalar and gives their line ends and
    the deepest column that blanks led to. -/
def takeLeading (breaks : List Char) (deepest : Nat) : Nat → Scan (List Char × Nat)
  | 0 => return (breaks, deepest)
  | fuel + 1 => do
    let c ← peek
    if c == ' ' then
      skip
      takeLeading breaks (max deepest (← get).column) fuel
    else if isBreak c then
      let b ← takeBreak
      takeLeading (breaks ++ b) deepest fuel
    else return (breaks, deepest)

/-- The lines of a block scalar indented to `indent`: its text without the last
    line end, that line end, and the line ends of the empty lines after it. -/
def takeLines (indent : Nat) (folded : Bool) (text breaks : List Char) :
    Nat → Scan (List Char × List Char × List Char)
  | 0 => return (text, [], breaks)
  | fuel + 1 => do
    let isText := fun (c : Char) => !(c == ' ' || c == '\t')
    let startsText := isText (← peek)
    let line ← takeWhile fun c => !isBreakOrEnd c
    let text := text ++ breaks ++ line
    let lineEnd ← takeBreak
    let breaks ← takeBreaks indent [] (← get).rest.length
    if (← get).column = indent ∧ (← peek) != endMark then
      -- A single line end between two lines of text is folded into a blank.
      if folded && lineEnd == ['\n'] && startsText && isText (← peek) then
        takeLines indent folded (if breaks.isEmpty then text ++ [' '] else text) breaks fuel
      else takeLines indent folded (text ++ lineEnd) breaks fuel
    else return (text, lineEnd, breaks)

/-- A block scalar; its lines are joined if it is folded. -/
def takeBlock (folded : Bool) : Scan String := do
  skip
  let (chomping, increment) ← takeHeader
  restOfLine
  -- Without an indicator, the first line that is not empty tells the indentation.
  let least := ((← get).indent + 1).toNat.max 1
  let size := (← get).rest.length
  let (breaks, indent) ← match increment with
    | some n => do
      let indent := least + n - 1
      pure (← takeBreaks indent [] (size + 1), indent)
    | none => do
      let (breaks, deepest) ← takeLeading [] 0 (size + 1)
      pure (breaks, max least deepest)
  let (text, lineEnd, breaks) ←
    if (← get).column = indent ∧ (← peek) != endMark then
      takeLines indent folded [] breaks (size + 1)
    else pure ([], [], breaks)
  return String.ofList (text ++ (match chomping with
    | .strip => []
    | .clip => lineEnd
    | .keep => lineEnd ++ breaks))

/-! ### Quoted scalars -/

/-- The character that a backslash and the given letter stand for. -/
def escape? : Char → Option Char
  | '0' => some '\x00'
  | 'a' => some '\x07'
  | 'b' => some '\x08'
  | 't' | '\t' => some '\t'
  | 'n' => some '\n'
  | 'v' => some '\x0b'
  | 'f' => some '\x0c'
  | 'r' => some '\r'
  | 'e' => some '\x1b'
  | ' ' => some ' '
  | '"' => some '"'
  | '\\' => some '\\'
  | '/' => some '/'
  | 'N' => some '\x85'
  | '_' => some '\xa0'
  | 'L' => some '\u2028'
  | 'P' => some '\u2029'
  | _ => none

/-- How many hexadecimal digits follow a backslash and the given letter. -/
def escapeWidth? : Char → Option Nat
  | 'x' => some 2
  | 'u' => some 4
  | 'U' => some 8
  | _ => none

/-- Goes over empty lines inside quotes and gives their line ends; a document mark
    may not stand there. -/
def takeQuotedBreaks (breaks : List Char) : Nat → Scan (List Char)
  | 0 => return breaks
  | fuel + 1 => do
    if ← atSeparator then reject
    let _ ← takeWhile fun c => c == ' ' || c == '\t'
    if isBreak (← peek) then
      let b ← takeBreak
      takeQuotedBreaks (breaks ++ b) fuel
    else return breaks

/-- What a line end inside quotes or a plain scalar gives, with the line ends of
    the empty lines after it: a single line end is a blank. -/
def foldBreaks (lineEnd breaks : List Char) : List Char :=
  (if lineEnd != ['\n'] then lineEnd else if breaks.isEmpty then [' '] else []) ++ breaks

/-- The escape after a backslash. -/
def takeEscape : Scan (List Char) := do
  let c ← peek
  if let some plain := escape? c then
    skip
    return [plain]
  if let some width := escapeWidth? c then
    skip
    let digits := (← get).rest.take width
    if digits.length < width || !digits.all fun d => Numeral.digitValue d < 16 then reject
    let code := Numeral.value 16 digits
    -- The limit of the language comes before that of the characters.
    if 0x80000000 ≤ code then throw .codeOverflow
    if 0x110000 ≤ code then throw .codePoint
    if !code.isValidChar then throw .halfPair
    skipMany width
    return [Char.ofNat code]
  -- An escaped line end stands for nothing, nor do the blanks behind it.
  if isBreak c then
    let _ ← takeBreak
    takeQuotedBreaks [] ((← get).rest.length + 1)
  else reject

/-- The text of a quoted scalar up to its closing quote. -/
def takeQuoted (quote : Char) (text : List Char) : Nat → Scan (List Char)
  | 0 => reject
  | fuel + 1 => do
    let c ← peek
    if c == quote then
      -- Single quotes are doubled to stand for one.
      if quote == '\x27' && (← peek 1) == '\x27' then
        skipMany 2
        takeQuoted quote (text ++ ['\x27']) fuel
      else
        skip
        return text
    else if c == '\\' && quote == '"' then
      skip
      let escaped ← takeEscape
      takeQuoted quote (text ++ escaped) fuel
    else if isGap c then
      let blanks ← takeWhile fun c => c == ' ' || c == '\t'
      let next ← peek
      if next == endMark then reject
      if isBreak next then
        let lineEnd ← takeBreak
        let breaks ← takeQuotedBreaks [] ((← get).rest.length + 1)
        takeQuoted quote (text ++ foldBreaks lineEnd breaks) fuel
      else takeQuoted quote (text ++ blanks) fuel
    else
      -- A quote of the other kind and a backslash in single quotes stand for themselves.
      let piece ← takeWhile fun c => !(isGap c || c == '"' || c == '\x27' || c == '\\')
      if piece.isEmpty then
        skip
        takeQuoted quote (text ++ [c]) fuel
      else takeQuoted quote (text ++ piece) fuel

/-! ### Plain scalars -/

/-- The characters of flow collections. -/
def isFlowMark (c : Char) : Bool :=
  c == ',' || c == '[' || c == ']' || c == '\x7b' || c == '\x7d'

/-- How many characters a plain scalar has up to the next blank. -/
def plainLength (inFlow : Bool) : List Char → Nat
  | [] => 0
  | c :: rest =>
    let next := rest.headD endMark
    -- A colon ends the scalar only if it marks a value, and the marks of flow collections do so
    -- only inside one.
    if isGap c || (c == ':' && (isGap next || (inFlow && isFlowMark next))) ||
        (inFlow && (isFlowMark c || c == '?')) then 0
    else plainLength inFlow rest + 1

/-- Goes over blanks and line ends inside a plain scalar and gives the line ends of
    the empty lines; `none` at a document mark. -/
def takePlainBreaks (breaks : List Char) : Nat → Scan (Option (List Char))
  | 0 => return some breaks
  | fuel + 1 => do
    let c ← peek
    if c == ' ' then
      skip
      takePlainBreaks breaks fuel
    else if isBreak c then
      let b ← takeBreak
      if ← atSeparator then return none
      takePlainBreaks (breaks ++ b) fuel
    else return some breaks

/-- Goes over what may part two words of a plain scalar and gives what it stands
    for; nothing ends the scalar. -/
def takePlainGap : Scan (List Char) := do
  let blanks ← takeWhile (· == ' ')
  if isBreak (← peek) then
    let lineEnd ← takeBreak
    allowKey true
    if ← atSeparator then return []
    match ← takePlainBreaks [] ((← get).rest.length + 1) with
    | some breaks => return foldBreaks lineEnd breaks
    | none => return []
  else return blanks

/-- The text of a plain scalar whose continuation lines are indented to `indent`
    at least; `gap` parts it from the words before. -/
def takePlain (indent : Int) (text gap : List Char) : Nat → Scan (List Char)
  | 0 => return text
  | fuel + 1 => do
    if (← peek) == '#' then return text
    let inFlow := (← get).flow != 0
    let length := plainLength inFlow (← get).rest
    if length = 0 then return text
    allowKey false
    let piece := (← get).rest.take length
    skipMany length
    let text := text ++ gap ++ piece
    let gap ← takePlainGap
    -- A comment ends the scalar, and so does a line that is not indented deeper.
    if gap.isEmpty || (← peek) == '#' || (!inFlow && ((← get).column : Int) < indent) then
      return text
    takePlain indent text gap fuel

/-! ### Tokens -/

/-- Begins what stands outside all collections. -/
def outside : Scan Unit := do
  unwindTo (-1)
  dropKey
  allowKey false

/-- A mark between documents. -/
def takeDocumentMark (t : Token) : Scan Unit := do
  outside
  skipMany 3
  emit t

/-- The start of a flow collection, which may itself be a key. -/
def openFlow (t : Token) : Scan Unit := do
  saveKey
  modify fun s => { s with flow := s.flow + 1, keyAllowed := true }
  skip
  emit t

/-- The end of a flow collection. -/
def closeFlow (t : Token) : Scan Unit := do
  dropKey
  if (← get).flow = 0 then reject
  modify fun s => { s with flow := s.flow - 1, keyAllowed := false }
  skip
  emit t

/-- Opens a block collection here if the column asks for it. -/
def openBlock (t : Token) : Scan Unit := do
  let s ← get
  if s.flow = 0 then
    -- A collection starts where a key could.
    if !s.keyAllowed then reject
    if ← addIndent s.column then emit t

/-- The mark of an entry of a block sequence. -/
def takeBlockEntry : Scan Unit := do
  openBlock .blockSequenceStart
  allowKey true
  dropKey
  skip
  emit .blockEntry

/-- The mark of a key that is not a simple one. -/
def takeKeyMark : Scan Unit := do
  openBlock .blockMappingStart
  allowKey ((← get).flow = 0)
  dropKey
  skip
  emit .key

/-- The colon before a value: the key in front of it, if one is possible there, is
    marked now. -/
def takeValueMark : Scan Unit := do
  let s ← get
  match s.keys.lookup s.flow with
  | some key =>
    -- The key has gone by already, so its mark is put in front of it.
    set { s with keys := s.keys.filter fun k => k.1 != s.flow }
    let opened ← if s.flow = 0 then addIndent key.column else pure false
    insertAt key.token (if opened then [.blockMappingStart, .key] else [.key])
    allowKey false
  | none =>
    -- Without a key in front, the key is a missing one.
    openBlock .blockMappingStart
    allowKey (s.flow = 0)
    dropKey
  skip
  emit .value

/-- A token that may be a key. -/
def takeItem (item : Scan Token) : Scan Unit := do
  saveKey
  allowKey false
  emit (← item)

/-- A block scalar, which is never a key. -/
def takeBlockItem (folded : Bool) : Scan Unit := do
  allowKey true
  dropKey
  emit (.scalar (← takeBlock folded) false)

/-- A quoted scalar. -/
def takeQuotedItem (quote : Char) : Scan Unit :=
  takeItem do
    skip
    return .scalar (String.ofList (← takeQuoted quote [] ((← get).rest.length + 1))) false

/-- Whether a plain scalar may start here. -/
def startsPlain (c next : Char) (inFlow : Bool) : Bool :=
  !(isGap c || "-?:,[]\x7b\x7d#&*!|>'\"%@\x60".toList.contains c) ||
    -- A dash, a question mark or a colon may start a scalar if no blank follows.
    (!isGap next && (c == '-' || (!inFlow && (c == '?' || c == ':'))))

/-- Takes the next token; false at the end of the text. -/
def takeToken : Scan Bool := do
  skipToToken ((← get).rest.length + 1)
  dropStaleKeys
  -- What is indented less deep than a collection is not part of it.
  unwindTo (← get).column
  let s ← get
  let c ← peek
  let next ← peek 1
  let inFlow := s.flow != 0
  if c == endMark then
    outside
    emit .streamEnd
    return false
  if c == '%' && s.column == 0 then
    outside
    emit (.directive (← takeDirective))
  -- These marks are such only at the start of a line.
  else if s.column == 0 && (← atMark '-') then takeDocumentMark .documentStart
  else if s.column == 0 && (← atMark '.') then takeDocumentMark .documentEnd
  else if c == '[' then openFlow .flowSequenceStart
  else if c == '\x7b' then openFlow .flowMappingStart
  else if c == ']' then closeFlow .flowSequenceEnd
  else if c == '\x7d' then closeFlow .flowMappingEnd
  else if c == ',' then
    allowKey true
    dropKey
    skip
    emit .flowEntry
  -- From here on the next character decides, too.
  else if c == '-' && isGap next then takeBlockEntry
  else if c == '?' && (inFlow || isGap next) then takeKeyMark
  else if c == ':' && (inFlow || isGap next) then takeValueMark
  else if c == '*' then takeItem (return .alias (← takeName))
  else if c == '&' then takeItem (return .anchor (← takeName))
  else if c == '!' then takeItem (return .tag (← takeTag))
  else if c == '|' && !inFlow then takeBlockItem false
  else if c == '>' && !inFlow then takeBlockItem true
  else if c == '\x27' || c == '"' then takeQuotedItem c
  else if startsPlain c next inFlow then
    saveKey
    allowKey false
    let indent := (← get).indent + 1
    let text ← takePlain indent [] [] ((← get).rest.length + 1)
    emit (.scalar (String.ofList text) true)
  else reject
  return true

/-- Takes tokens to the end of the text; at most `fuel`. -/
def takeTokens : Nat → Scan Unit
  | 0 => reject
  | fuel + 1 => do
    if ← takeToken then takeTokens fuel

end Scan

/-- Cuts a text into tokens.  A byte order mark in front is no part of it. -/
def Token.scan (text : List Char) : Except Error (List Token) := do
  if !text.all isAllowed then throw .malformed
  let text := if text.head? == some '\ufeff' then text.drop 1 else text
  let ((), s) ← (Scan.takeTokens (text.length + 2)).run { rest := text }
  return s.tokens.reverse

end Yaml

end TreeWalk
