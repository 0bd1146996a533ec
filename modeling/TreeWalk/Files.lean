import TreeWalk.Files.PathName

/-! # Files

The files that a program reads, as a value: contents by place below the working
directory.  A path name is followed part by part, each part but the last having to
be a directory; two dots lead up. -/

namespace TreeWalk

/-- The files and directories below the working directory, each by its parts. -/
structure Files where
  files : List (List String × List UInt8) := []
  directories : List (List String) := []

/-- What a path name leads to. -/
inductive FileEntry where
  | file (content : List UInt8)
  | directory

namespace Files

/-- Whether a directory stands at the given place: one that was made, or one that
    something lies in. -/
def hasDirectory (files : Files) (place : List String) : Bool :=
  place.isEmpty || files.directories.any place.isPrefixOf ||
    files.files.any fun file => place.isPrefixOf file.1 && file.1 != place

/-- What stands at the given place. -/
def at? (files : Files) (place : List String) : Option FileEntry :=
  match files.files.find? fun file => file.1 == place with
  | some (_, content) => some (.file content)
  | none => if files.hasDirectory place then some .directory else none

/-- Follows parts from a place on; all that is gone through has to be a
    directory. -/
def follow (files : Files) (place : List String) : List String → Option FileEntry
  | [] => files.at? place
  | part :: rest =>
    match files.at? place with
    | some .directory =>
      if part = "" ∨ part = "." then follow files place rest
      else if part = ".." then follow files place.dropLast rest
      else follow files (place ++ [part]) rest
    | _ => none

/-- What a path name leads to, if anything.  An empty one leads nowhere, and of
    absolute ones only the root itself is known. -/
def find? (files : Files) (path : String) : Option FileEntry :=
  if path.isEmpty then none
  else if path.startsWith "/" then
    if (PathName.parts path).isEmpty then some .directory else none
  else files.follow [] (PathName.split path)

/-- Adds a file. -/
def add (files : Files) (path : String) (content : List UInt8) : Files :=
  { files with files := (PathName.parts path, content) :: files.files }

/-- Adds a directory. -/
def addDirectory (files : Files) (path : String) : Files :=
  { files with directories := PathName.parts path :: files.directories }

end Files

end TreeWalk
