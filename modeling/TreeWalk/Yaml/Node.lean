import TreeWalk.Yaml.Tag
import TreeWalk.Yaml.Token

/-! # Nodes of YAML documents

A document is a tree of nodes, each a scalar, a sequence or a mapping with a tag.
The tokens of a document spell this tree.  A node may be named by an anchor, and an
alias later on stands for the node of that name; the tree holds the node itself in
both places.

## Key results

* `Node.ofTokens?` reads the one document that tokens spell. -/

namespace TreeWalk

namespace Yaml

inductive Node where
  | scalar (tag : Tag) (text : String)
  | sequence (tag : Tag) (items : List Node)
  | mapping (tag : Tag) (entries : List (Node × Node))

/-- A node that is not written, where one may be left out. -/
def Node.missing : Node := .scalar .null ""

/-- What is known while a document is read. -/
structure Composition where
  rest : List Token
  /-- What the handles of tags stand for. -/
  handles : List (String × String) := []
  /-- The names given so far, also to nodes that are not complete yet. -/
  names : List String := []
  /-- The named nodes that are complete. -/
  anchors : List (String × Node) := []

/-- A step of reading a document. -/
abbrev Compose := StateT Composition (Except Error)

namespace Compose

/-- Gives up: the document is not well formed. -/
def reject : Compose α :=
  throw .malformed

/-- The next token. -/
def peek : Compose Token :=
  return (← get).rest.headD .streamEnd

/-- Goes over the next token. -/
def skip : Compose Unit :=
  modify fun s => { s with rest := s.rest.tail }

/-- Goes over the next token if it is the one given. -/
def skipIf (t : Token) : Compose Bool := do
  if (← peek) = t then
    skip
    return true
  else
    return false

/-- Whether the next token is one of those given. -/
def atOneOf (ts : List Token) : Compose Bool :=
  return ts.contains (← peek)

/-! ## Directives -/

/-- The handles that need no directive. -/
def defaultHandles : List (String × String) :=
  [("!", "!"), ("!!", Tag.standardStem)]

/-- Reads directives up to the start of the document; `hasVersion` says whether
    one of the version came before.  At most `fuel`. -/
def directives (hasVersion : Bool) (handles : List (String × String)) :
    Nat → Compose (List (String × String))
  | 0 => reject
  | fuel + 1 => do
    match ← peek with
    | .directive (.version major) =>
      -- There is one version of the language, and it is given once.
      if hasVersion || major != 1 then reject
      skip
      directives true handles fuel
    | .directive (.tagHandle handle replacement) =>
      -- A handle is declared once.
      if (handles.lookup handle).isSome then reject
      skip
      directives hasVersion ((handle, replacement) :: handles) fuel
    | .directive .other =>
      skip
      directives hasVersion handles fuel
    | _ => return handles

/-- Goes over marks of document ends. -/
def skipDocumentEnds : Compose Unit :=
  modify fun s => { s with rest := s.rest.dropWhile (· = .documentEnd) }

/-! ## Properties of nodes -/

/-- The full name that a tag has as written. -/
def fullTag (name : TagName) : Compose String := do
  match name.handle with
  | none => return name.suffix
  | some handle =>
    match (← get).handles.lookup handle with
    | some stem => return stem ++ name.suffix
    | none => reject

/-- An anchor, if one comes next. -/
def takeAnchor? : Compose (Option String) := do
  match ← peek with
  | .anchor name =>
    skip
    return some name
  | _ => return none

/-- A tag, if one comes next. -/
def takeTag? : Compose (Option TagName) := do
  match ← peek with
  | .tag name =>
    skip
    return some name
  | _ => return none

/-- The anchor and the full tag of a node, in either order. -/
def properties : Compose (Option String × Option String) := do
  let early ← takeAnchor?
  let tag ← takeTag?
  -- The anchor may also come behind the tag.
  let anchor ← if early.isNone && tag.isSome then takeAnchor? else pure early
  match tag with
  | some name => return (anchor, some (← fullTag name))
  | none => return (anchor, none)

/-- The tag of a scalar.  One that says nothing but that there is a tag is as good
    as a plain scalar. -/
def scalarTag (uri : Option String) (text : String) (isPlain : Bool) : Tag :=
  match uri with
  | none => if isPlain then Tag.ofPlain text else .str
  | some uri => if uri == "!" then Tag.ofPlain text else Tag.ofUri uri

/-- The tag of a collection, which is that of its shape unless it is given. -/
def collectionTag (uri : Option String) (shape : Tag) : Tag :=
  match uri with
  | none => shape
  | some uri => if uri == "!" then shape else Tag.ofUri uri

/-- Takes a name for a node; it may not be taken yet. -/
def claim (name : Option String) : Compose Unit := do
  if let some name := name then
    if (← get).names.contains name then reject
    modify fun s => { s with names := name :: s.names }

/-- Gives a complete node its name. -/
def bind (name : Option String) (node : Node) : Compose Node := do
  if let some name := name then
    modify fun s => { s with anchors := (name, node) :: s.anchors }
  return node

/-- The node that an alias stands for. -/
def resolve (name : String) : Compose Node := do
  match (← get).anchors.lookup name with
  | some node => return node
  | none => reject

/-! ## Nodes -/

/-- A node of which only properties are written. -/
def absent (anchor uri : Option String) : Compose Node :=
  if anchor.isSome || uri.isSome then bind anchor (.scalar (scalarTag uri "" true) "")
  else reject

mutual

/-- Reads a node.  `inBlock` says whether block collections may stand here, and
    `indentless` whether a sequence may whose entries are not indented. -/
def node (inBlock indentless : Bool) : Nat → Compose Node
  | 0 => reject
  | fuel + 1 => do
    if let .alias name := ← peek then
      skip
      return ← resolve name
    let (anchor, uri) ← properties
    claim anchor
    let sequence := fun (items : Compose (List Node)) => do
      bind anchor (.sequence (collectionTag uri .seq) (← items))
    let mapping := fun (entries : Compose (List (Node × Node))) => do
      bind anchor (.mapping (collectionTag uri .map) (← entries))
    -- An entry mark without indentation starts a sequence only in place of a value.
    match ← peek with
    | .blockEntry => if indentless then sequence (indentlessItems fuel) else absent anchor uri
    | .scalar text isPlain =>
      skip
      bind anchor (.scalar (scalarTag uri text isPlain) text)
    | .flowSequenceStart =>
      -- Flow collections may stand anywhere, block collections only in a block.
      skip
      sequence (flowItems true fuel)
    | .flowMappingStart =>
      skip
      mapping (flowEntries true fuel)
    | .blockSequenceStart =>
      if inBlock then
        skip
        sequence (blockItems fuel)
      else absent anchor uri
    | .blockMappingStart =>
      if inBlock then
        skip
        mapping (blockEntries fuel)
      else absent anchor uri
    | _ => absent anchor uri

/-- Reads a node unless one of the given tokens shows that it is left out. -/
def nodeUnless (stops : List Token) (inBlock indentless : Bool) : Nat → Compose Node
  | 0 => reject
  | fuel + 1 => do
    if ← atOneOf stops then return .missing else node inBlock indentless fuel

/-- The items of a block sequence and its end. -/
def blockItems : Nat → Compose (List Node)
  | 0 => reject
  | fuel + 1 => do
    if ← skipIf .blockEntry then
      let item ← nodeUnless [.blockEntry, .blockEnd] true false fuel
      return item :: (← blockItems fuel)
    else if ← skipIf .blockEnd then return []
    else reject

/-- The items of a sequence whose entries are not indented; nothing marks its
    end. -/
def indentlessItems : Nat → Compose (List Node)
  | 0 => reject
  | fuel + 1 => do
    if ← skipIf .blockEntry then
      let item ← nodeUnless [.blockEntry, .key, .value, .blockEnd] true false fuel
      return item :: (← indentlessItems fuel)
    else return []

/-- The entries of a block mapping and its end. -/
def blockEntries : Nat → Compose (List (Node × Node))
  | 0 => reject
  | fuel + 1 => do
    if ← skipIf .key then
      let key ← nodeUnless [.key, .value, .blockEnd] true true fuel
      let value ← if ← skipIf .value then
          nodeUnless [.key, .value, .blockEnd] true true fuel
        else pure .missing
      return (key, value) :: (← blockEntries fuel)
    else if ← skipIf .blockEnd then return []
    else reject

/-- The value of an entry of a flow collection that ends with `close`. -/
def flowValue (close : Token) : Nat → Compose Node
  | 0 => reject
  | fuel + 1 => do
    if ← skipIf .value then nodeUnless [.flowEntry, close] false false fuel
    else return .missing

/-- The items of a flow sequence and its end.  An entry with a key is a mapping of
    its own. -/
def flowItems (first : Bool) : Nat → Compose (List Node)
  | 0 => reject
  | fuel + 1 => do
    if ← skipIf .flowSequenceEnd then return []
    -- A comma may stand behind the last item, but not in front of the first.
    if !first then
      if !(← skipIf .flowEntry) then reject
    if ← skipIf .key then
      let key ← nodeUnless [.value, .flowEntry, .flowSequenceEnd] false false fuel
      let value ← flowValue .flowSequenceEnd fuel
      return .mapping .map [(key, value)] :: (← flowItems false fuel)
    else if ← skipIf .flowSequenceEnd then return []
    else
      let item ← node false false fuel
      return item :: (← flowItems false fuel)

/-- The entries of a flow mapping and its end.  An entry without a key mark has
    no value. -/
def flowEntries (first : Bool) : Nat → Compose (List (Node × Node))
  | 0 => reject
  | fuel + 1 => do
    if ← skipIf .flowMappingEnd then return []
    -- A comma may stand behind the last entry, but not in front of the first.
    if !first then
      if !(← skipIf .flowEntry) then reject
    if ← skipIf .key then
      let key ← nodeUnless [.value, .flowEntry, .flowMappingEnd] false false fuel
      let value ← flowValue .flowMappingEnd fuel
      return (key, value) :: (← flowEntries false fuel)
    else if ← skipIf .flowMappingEnd then return []
    else
      let key ← node false false fuel
      return (key, .missing) :: (← flowEntries false fuel)

end

/-! ## Documents -/

/-- How deep calls may nest while the tokens that are left are read: each goes over
    a token or is one of a few in front of one. -/
def depth : Compose Nat :=
  return 4 * (← get).rest.length + 8

/-- The node of a document, which is missing if nothing is written. -/
def content : Compose Node := do
  let stops := [Token.documentStart, .documentEnd, .streamEnd]
  -- A directive belongs to the next document.
  match ← peek with
  | .directive _ => return .missing
  | _ => if ← atOneOf stops then return .missing else node true false (← depth)

/-- A document that starts without a mark. -/
def bareDocument : Compose Node := do
  modify fun s => { s with handles := defaultHandles }
  node true false (← depth)

/-- A document that starts with its directives and a mark. -/
def markedDocument : Compose Node := do
  let handles ← directives false [] (← depth)
  modify fun s =>
    { s with handles := handles ++ defaultHandles }
  if !(← skipIf .documentStart) then reject
  content

/-- The node of the only document; `none` if there is no document. -/
def document : Compose (Option Node) := do
  let bare := match ← peek with
    | .directive _ | .documentStart | .streamEnd => false
    | _ => true
  if bare then
    let root ← bareDocument
    finish root
  else
    skipDocumentEnds
    if (← peek) = .streamEnd then return none
    let root ← markedDocument
    finish root
where
  /-- What may follow the document: marks of its end. -/
  finish (root : Node) : Compose (Option Node) := do
    skipDocumentEnds
    -- There may be only one document.
    if (← peek) = .streamEnd then return some root else reject

end Compose

/-- The node of the one document that tokens spell; `none` if they spell none. -/
def Node.ofTokens? (tokens : List Token) : Except Error (Option Node) := do
  let (root, _) ← Compose.document.run { rest := tokens }
  return root

end Yaml

end TreeWalk
