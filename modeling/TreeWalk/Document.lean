import TreeWalk.Adapter
import TreeWalk.Files
import TreeWalk.Readers
import TreeWalk.Text.Quoted
import TreeWalk.Text.Utf8

/-! # Documents

A document is a file that holds a tree: a JSON or YAML dump of tagged nodes, or a
source file whose syntax tree is walked.  Its format shows in the suffix of its name.
The format decides which reader its text is given to, and which adapter its tree is seen
through unless one is given.  The root has to be a node.

## Key results

* `Document.load` loads a document from a file.
* `LoadError.message` says why a document cannot be loaded. -/

namespace TreeWalk

/-- The formats of documents. -/
inductive DocumentFormat where
  | json
  | yaml
  | source
  deriving DecidableEq, Repr

namespace DocumentFormat

/-- The name of a format. -/
def name : DocumentFormat → String
  | .json => "json"
  | .yaml => "yaml"
  | .source => "python"

/-- The format of files with the given suffix, which may be in capitals. -/
def ofSuffix? (suffix : String) : Option DocumentFormat :=
  match suffix.toLower with
  | ".json" => some .json
  | ".yaml" | ".yml" => some .yaml
  | ".py" => some .source
  | _ => none

end DocumentFormat

/-- Why the text of a document gives no tree. -/
inductive TreeFault where
  /-- The document is not well formed, for the reason given. -/
  | malformed (reason : String)
  /-- The value of the document is not a node. -/
  | notNode
  deriving DecidableEq, Repr

/-- The wording of a fault. -/
def TreeFault.message : TreeFault → String
  | .malformed reason => reason
  | .notNode => "root is not a tree node"

/-- What is wrong with a source file, as the reason that its document is not well formed. -/
def SyntaxFault.reason (fault : SyntaxFault) : String :=
  "line " ++ (fault.line.map toString).getD "None" ++ ": " ++ fault.message

/-- Why a document cannot be loaded. -/
inductive LoadError where
  | notFound (path : String)
  | unknownFormat (suffix : String)
  | isDirectory (path : String)
  | encoding (error : Utf8Error)
  /-- What a reader raises besides saying that a text is not well formed. -/
  | raised (exception : Raised)
  | tree (path : String) (fault : TreeFault)
  deriving DecidableEq, Repr

/-- What is said of a directory in place of a file. -/
def directoryMessage (path : String) : String :=
  "[Errno 21] Is a directory: " ++ Quoted.text path

/-- The wording of an error. -/
def LoadError.message : LoadError → String
  | .notFound path => "Tree file not found: " ++ path
  | .unknownFormat suffix => "Unsupported tree format: " ++ suffix
  | .isDirectory path => directoryMessage path
  | .encoding error => error.message
  | .raised exception => exception.message
  | .tree path fault => "Cannot load tree from " ++ path ++ ": " ++ fault.message

/-- A tree with the file it comes from and the adapter it is seen through. -/
structure Document where
  path : String
  format : DocumentFormat
  root : Value
  adapter : Adapter

namespace Document

/-- The format of a file by its path. -/
def formatOf (path : String) : Except LoadError DocumentFormat :=
  let suffix := PathName.suffix path
  match DocumentFormat.ofSuffix? suffix with
  | some format => .ok format
  | none => .error (.unknownFormat suffix)

/-- An error of a reader as one of the document, given the path of its file and what the
    reason is that the document is not well formed. -/
def readError (path : String) (reason : φ → String) : ReadError φ → LoadError
  | .malformed fault => .tree path (.malformed (reason fault))
  | .raised exception => .raised exception

/-- The value that the text of a document spells; `path` is the name of its file. -/
def rootOf (readers : Readers) (path : String) (format : DocumentFormat) (text : List Char) :
    Except LoadError Value :=
  match format with
  | .json => (readers.json text).mapError (readError path id)
  | .yaml => (readers.yaml text).mapError (readError path id)
  | .source => (readers.source text).mapError (readError path SyntaxFault.reason)

/-- The adapter that goes with a format. -/
def adapterFor (format : DocumentFormat) (tagField : String) (skip : List Value) : Adapter :=
  match format with
  | .json | .yaml => .tagged tagField skip
  | .source => .source skip

/-- Loads the document that a path leads to.  The tag field and the fields to skip are
    those of the adapter that is taken if none is given. -/
def load (readers : Readers) (find : String → Option FileEntry) (path : String)
    (tagField : String := defaultTagField) (skip : List Value := [])
    (adapter : Option Adapter := none) : Except LoadError Document := do
  let name := PathName.normalize path
  match find name with
  | none => throw (.notFound path)
  | some entry =>
    -- A missing file is reported as missing, whatever its suffix.
    let format ← formatOf name
    match entry with
    | .directory => throw (.isDirectory name)
    | .file content =>
      -- What cannot be decoded has not come to a reader yet.
      let text ← (Utf8.decode content).mapError .encoding
      let root ← rootOf readers name format (unifyNewlines text)
      let adapter := adapter.getD (adapterFor format tagField skip)
      -- Only the root has to be a node; what lies below it may be anything.
      if adapter.isNode root then return ⟨name, format, root, adapter⟩
      else throw (.tree name .notNode)

end Document

end TreeWalk
