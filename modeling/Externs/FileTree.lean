/-!
# File trees

The directories and files that paths lead to. A path is followed name by name
from the root or from the working directory; everything it passes through has to
be a directory.
-/

set_option autoImplicit false

namespace Externs

/-- A place in a file tree, by the names from the root on. -/
abbrev Place : Type := List String

/-- Directories, files with their bytes, and a working directory. The root is
always a directory. -/
structure FileTree where
  directories : List Place
  files : List (Place × List UInt8)
  workingDirectory : Place

inductive ReadFailure where
  | notFound
  | isDirectory
  | notDirectory
  /-- The bytes are not the UTF-8 form of a text. -/
  | invalidText
  deriving DecidableEq, Repr

namespace FileTree

/-- The names of a path between its slashes, with empty ones for slashes that
stand together or at an end. -/
def pathNames (path : String) : List String :=
  path.splitOn "/"

def isDirectory (tree : FileTree) (place : Place) : Bool :=
  place.isEmpty || tree.directories.contains place

def file? (tree : FileTree) (place : Place) : Option (List UInt8) :=
  (tree.files.find? fun file => file.1 == place).map Prod.snd

/-- Follows one name. The directory itself has the name `.` and the empty name,
and the directory around it has the name `..`. -/
def follow (tree : FileTree) (place : Place) (name : String) : Except ReadFailure Place :=
  if !tree.isDirectory place then throw .notDirectory
  else if name = "" ∨ name = "." then return place
  else if name = ".." then return place.dropLast
  else
    let next := place ++ [name]
    if tree.isDirectory next || (tree.file? next).isSome then return next
    else throw .notFound

/-- Where a path starts, and the names to follow from there. -/
def start (tree : FileTree) (path : String) : Place × List String :=
  match pathNames path with
  | "" :: names => ([], names)
  | names => (tree.workingDirectory, names)

def resolve (tree : FileTree) (path : String) : Except ReadFailure Place :=
  if path.isEmpty then throw .notFound
  else
    let (place, names) := tree.start path
    names.foldlM tree.follow place

/-- The text of the file at a path. -/
def read (tree : FileTree) (path : String) : Except ReadFailure String := do
  let place ← tree.resolve path
  match tree.file? place with
  | none => throw .isDirectory
  | some bytes =>
      match String.fromUTF8? ⟨bytes.toArray⟩ with
      | some text => return text
      | none => throw .invalidText

/-- Follows one name, and makes a directory where there is nothing. -/
def followMaking (state : FileTree × Place) (name : String) : FileTree × Place :=
  let (tree, place) := state
  match tree.follow place name with
  | .ok next => (tree, next)
  | .error _ =>
      let next := place ++ [name]
      ({ tree with directories := next :: tree.directories }, next)

/-- Puts a file at a path, with all directories on the way. -/
def write (tree : FileTree) (path : String) (bytes : List UInt8) : FileTree :=
  let (place, names) := tree.start path
  let (tree, parent) := names.dropLast.foldl followMaking (tree, place)
  match names.getLast? with
  | some name => { tree with files := (parent ++ [name], bytes) :: tree.files }
  | none => tree

/-- The last name of a path, or the whole path if that names no part of a directory. -/
def fileName (path : String) : String :=
  match ((pathNames path).filter fun name => name != "" && name != ".").getLast? with
  | some name => if name = ".." then path else name
  | none => path

end FileTree

end Externs
