import Scorecard.Workspace

/-!
# File trees

A file tree is a finite map from paths, as lists of names, to files and directories; the empty list
is the directory at hand, which is its own parent.  `locate` follows a written path through the tree
from left to right: a name is looked up in a directory only, a point stays and two points go up.
-/

namespace Scorecard

/-- What a path can lead to. -/
inductive FileEntry where
  | file (bytes : ByteArray)
  | directory

/-- Files and directories under their paths. -/
structure FileTree where
  entries : List (List String × FileEntry)

namespace FileTree

/-- The tree without any entry. -/
def empty : FileTree := ⟨[]⟩

/-- What is at a place. -/
def entry? (t : FileTree) (place : List String) : Option FileEntry :=
  if place = [] then some .directory else t.entries.lookup place

/-- The tree with an entry at a place, instead of what was there. -/
def put (t : FileTree) (place : List String) (e : FileEntry) : FileTree :=
  ⟨(place, e) :: t.entries.filter fun p => p.1 ≠ place⟩

/-- The names in the directory at a place. -/
def namesIn (t : FileTree) (place : List String) : List String :=
  t.entries.filterMap fun p =>
    match p.1.getLast? with
    | some name => if p.1.dropLast = place then some name else none
    | none => none

/-- The place that names lead to from a place.  Only the last name may be missing there. -/
def follow (t : FileTree) (place : List String) : List String → Except FileError (List String)
  | [] => .ok place
  | name :: names =>
      match t.entry? place with
      | some .directory =>
          if name = "." then follow t place names
          else if name = ".." then follow t place.dropLast names
          else follow t (place ++ [name]) names
      | some (.file _) => .error .notDirectory
      | none => .error .notFound

/-- The place that a path leads to.  A path that ends in a slash leads to a directory, if to
anything. -/
def locate (t : FileTree) (path : String) : Except FileError (List String) := do
  if path = "" then throw .notFound
  let names := ((Text.splitAt '/' path.toList).filter (· ≠ [])).map String.ofList
  let place ← t.follow [] names
  if path.toList.getLast? = some '/' ∧ (t.entry? place matches some (.file _)) then
    throw .notDirectory
  return place

/-- What a path leads to. -/
def find (t : FileTree) (path : String) : Except FileError FileEntry := do
  match t.entry? (← t.locate path) with
  | some e => return e
  | none => throw .notFound

/-- The text of a file. -/
def readText (t : FileTree) (path : String) : Except FileError String := do
  match ← t.find path with
  | .directory => throw .isDirectory
  | .file bytes =>
      match String.fromUTF8? bytes with
      | some text => return text
      | none => throw .notText

/-- The tree after a file has been written. -/
def writeText (t : FileTree) (path text : String) : Except FileError FileTree := do
  let place ← t.locate path
  match t.entry? place with
  | some .directory => throw .isDirectory
  | some (.file _) => return t.put place (.file text.toUTF8)
  | none =>
      if path.toList.getLast? = some '/' then throw .isDirectory
      return t.put place (.file text.toUTF8)

/-- The tree after a directory has been made. -/
def makeDirectory (t : FileTree) (path : String) : Except FileError FileTree := do
  let names := ((Text.splitAt '/' path.toList).filter (· ≠ [])).map String.ofList
  if path = "" then throw .notFound
  let place ← t.follow [] names
  match t.entry? place with
  | some _ => throw .alreadyExists
  | none => return t.put place .directory

/-- The names in a directory. -/
def names (t : FileTree) (path : String) : Except FileError (List String) := do
  let place ← t.locate path
  match t.entry? place with
  | some .directory => return t.namesIn place
  | some (.file _) => throw .notDirectory
  | none => throw .notFound

/-- The tree with a file and the directories above it. -/
def withFile (t : FileTree) (place : List String) (bytes : ByteArray) : FileTree :=
  (withDirectories t [] place.dropLast).put place (.file bytes)
where
  /-- The tree with directories at the places that names lead through. -/
  withDirectories (t : FileTree) (place : List String) : List String → FileTree
    | [] => t
    | name :: names =>
        withDirectories (if (t.entry? (place ++ [name])).isSome then t
          else t.put (place ++ [name]) .directory) (place ++ [name]) names

/-- The tree with a directory and those above it. -/
def withDirectory (t : FileTree) (place : List String) : FileTree :=
  withFile.withDirectories t [] place

end FileTree

end Scorecard
