import TreeWalk.Document
import TreeWalk.Log
import TreeWalk.Value.Display

/-! # Configuration

The settings of a walk can be kept in a file: the tag field, the fields to skip and
the verbosity, each with a default.  The file is YAML or JSON as its suffix says, and
holds a mapping; a YAML file that holds nothing, or a value that counts as false, is
as good as an empty one.

## Key results

* `Config.load` reads the settings from a file.
* `Config.ofEntries` gives the settings that a mapping holds. -/

namespace TreeWalk

/-- The settings of a walk. -/
structure Config where
  tagField : String := defaultTagField
  skipFields : List String := []
  verbosity : Verbosity := .quiet
  deriving DecidableEq, Repr

/-- A setting that a file can get wrong. -/
inductive Setting where
  | verbosity
  | tagField
  | skipFields
  deriving DecidableEq, Repr

/-- The name of a setting in a file. -/
def Setting.name : Setting → String
  | .verbosity => "verbosity"
  | .tagField => "tag_field"
  | .skipFields => "skip_fields"

/-- Why settings cannot be read. -/
inductive ConfigError where
  | notFound (path : String)
  | isDirectory (path : String)
  | unknownFormat (suffix : String)
  | encoding (error : Utf8Error)
  /-- A file that is not well formed in its format, for the reason given. -/
  | malformed (format : DocumentFormat) (reason : String)
  /-- What a reader raises besides that. -/
  | raised (exception : Raised)
  /-- A file that holds no mapping but a value of the type named. -/
  | notMapping (typeName : String)
  /-- A setting with a value that it cannot have. -/
  | invalid (setting : Setting) (path : String) (value : Value)

/-- The wording of an error. -/
def ConfigError.message : ConfigError → String
  | .notFound path => "Config file not found: " ++ path
  | .isDirectory path => directoryMessage path
  | .unknownFormat suffix => "Unsupported config format: " ++ suffix
  | .encoding error => error.message
  | .malformed _ reason => reason
  | .raised exception => exception.message
  | .notMapping typeName => Quoted.text typeName ++ " object has no attribute 'get'"
  | .invalid setting path value =>
    "Invalid " ++ setting.name ++ " in " ++ path ++ ": " ++ value.display

namespace Config

/-- The adapter for records that the settings ask for. -/
def adapter (c : Config) : Adapter :=
  .tagged c.tagField (c.skipFields.map Value.str)

/-- The verbosity that a value stands for: the name of a level in any case. -/
def verbosityOf? (value : Value) : Option Verbosity :=
  Verbosity.ofName? value.plain.toLower

/-- The tag field that a value stands for: a text that is not empty. -/
def tagFieldOf? : Value → Option String
  | .str s => if s.isEmpty then none else some s
  | _ => none

/-- The fields to skip that a value stands for: a list of texts, or a single one; a
    value that counts as false stands for none. -/
def skipFieldsOf? (value : Value) : Option (List String) :=
  -- This comes before the shape is looked at, so `false` and zero pass here as well.
  if !value.isTrue then some []
  else match value with
    | .str s => some [s]
    | .group .list items => items.mapM Value.text?
    | _ => none

/-- The value of a setting among the entries of a mapping. -/
def setting (s : Setting) (default : Value) (entries : List (Value × Value)) : Value :=
  (Value.entry? s.name entries).getD default

/-- What a setting stands for; `path` is that of the file. -/
def check (path : String) (s : Setting) (value : Value) (read : Value → Option α) :
    Except ConfigError α :=
  match read value with
  | some a => .ok a
  | none => .error (.invalid s path value)

/-- The settings that a mapping holds; `path` is that of its file. -/
def ofEntries (path : String) (entries : List (Value × Value)) : Except ConfigError Config := do
  -- The order of the checks decides which of several faults is reported.
  let verbosity := setting .verbosity (.str Verbosity.quiet.name) entries
  let verbosity ← check path .verbosity verbosity verbosityOf?
  let tagField ← check path .tagField (setting .tagField (.str defaultTagField) entries) tagFieldOf?
  let skipFields ← check path .skipFields (setting .skipFields .null entries) skipFieldsOf?
  return ⟨tagField, skipFields, verbosity⟩

/-- The settings that the value of a file holds. -/
def ofValue (path : String) : Value → Except ConfigError Config
  | .record .dict entries _ => ofEntries path entries
  | value => .error (.notMapping value.typeName)

/-- An error of the reader for a format as one of the settings. -/
def readError (format : DocumentFormat) : ReadError String → ConfigError
  | .malformed reason => .malformed format reason
  | .raised exception => .raised exception

section

variable (readers : Readers)

/-- The value that a YAML file holds. -/
def yamlValue (content : List UInt8) : Except ConfigError Value := do
  let value ← (readers.yamlFile content).mapError (readError .yaml)
  -- An empty file holds nothing, which is no mapping either.
  return if value.isTrue then value else .dict []

/-- The value that a JSON file holds. -/
def jsonValue (content : List UInt8) : Except ConfigError Value := do
  let text ← (Utf8.decode content).mapError .encoding
  (readers.json (unifyNewlines text)).mapError (readError .json)

/-- The settings in the file that a path leads to. -/
def load (find : String → Option FileEntry) (path : String) : Except ConfigError Config := do
  let name := PathName.normalize path
  match find name with
  | none => throw (.notFound path)
  | some .directory => throw (.isDirectory name)
  | some (.file content) =>
    -- The suffix is taken as it is written, capitals and all.
    match PathName.suffix name with
    | ".yaml" | ".yml" => ofValue path (← yamlValue readers content)
    | ".json" => ofValue path (← jsonValue readers content)
    | suffix => throw (.unknownFormat suffix)

end

end Config

end TreeWalk
