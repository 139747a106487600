import Scorecard.Report.Identifier
import Scorecard.Report.Timestamp
import Scorecard.Text.Split

/-!
# Workspaces

What the commands ask of their surroundings: files, variables, a clock, and two streams of text.
The commands are written once over any monad with these operations; `World` is such a monad in which
everything is a value.
-/

namespace Scorecard

/-- Why a file operation failed. -/
inductive FileError where
  | notFound
  | alreadyExists
  | notDirectory
  | isDirectory
  | notText
  | other (text : String)
  deriving DecidableEq, Repr

/-- The failure in words. -/
def FileError.message : FileError → String
  | notFound => "No such file or directory (os error 2)"
  | alreadyExists => "File exists (os error 17)"
  | notDirectory => "Not a directory (os error 20)"
  | isDirectory => "Is a directory (os error 21)"
  | notText => "stream did not contain valid UTF-8"
  | other text => text

/-- The operations of a workspace. -/
class Workspace (m : Type → Type) where
  /-- The text of a file. -/
  readText (path : String) : m (Except FileError String)
  /-- Replaces the text of a file, which is made if necessary. -/
  writeText (path text : String) : m (Except FileError PUnit)
  /-- Whether a path leads anywhere: to a file, to a directory or to something else. -/
  pathExists (path : String) : m Bool
  /-- Whether a path leads to a file. -/
  isFile (path : String) : m Bool
  /-- Whether a path leads to a directory. -/
  isDirectory (path : String) : m Bool
  /-- The names in a directory, in any order. -/
  names (directory : String) : m (Except FileError (List String))
  /-- Makes a directory whose parent exists. -/
  makeDirectory (path : String) : m (Except FileError PUnit)
  /-- The value of an environment variable. -/
  environment? (name : String) : m (Option String)
  /-- The time. -/
  now : m Timestamp
  /-- A steady clock in milliseconds. -/
  milliseconds : m Nat
  /-- An identifier that was not used before. -/
  freshIdentifier : m Identifier
  /-- Adds to the output. -/
  print (text : String) : m PUnit
  /-- Adds to the output for messages. -/
  printMessage (text : String) : m PUnit

/-- A computation that may fail works in the same workspace. -/
instance {ε : Type} {m : Type → Type} [Monad m] [Workspace m] : Workspace (ExceptT ε m) where
  readText path := ExceptT.lift (Workspace.readText path)
  writeText path text := ExceptT.lift (Workspace.writeText path text)
  pathExists path := ExceptT.lift (Workspace.pathExists path)
  isFile path := ExceptT.lift (Workspace.isFile path)
  isDirectory path := ExceptT.lift (Workspace.isDirectory path)
  names directory := ExceptT.lift (Workspace.names directory)
  makeDirectory path := ExceptT.lift (Workspace.makeDirectory path)
  environment? name := ExceptT.lift (Workspace.environment? name)
  now := ExceptT.lift Workspace.now
  milliseconds := ExceptT.lift Workspace.milliseconds
  freshIdentifier := ExceptT.lift Workspace.freshIdentifier
  print text := ExceptT.lift (Workspace.print text)
  printMessage text := ExceptT.lift (Workspace.printMessage text)

/-! ## Paths -/

/-- The path of a name in a directory; the empty path is the directory at hand. -/
def joinPath (directory name : String) : String :=
  if name.toList.head? = some '/' ∨ directory = "" then name
  else if directory.toList.getLast? = some '/' then directory ++ name
  else directory ++ "/" ++ name

/-- The part of a name after its last point, unless the point is its first character. -/
def extension? (name : List Char) : Option (List Char) :=
  let ending := (name.reverse.takeWhile (· ≠ '.')).reverse
  if ending.length + 1 < name.length then some ending else none

/-- The last name of a path. -/
def fileName (path : String) : List Char := (path.toList.reverse.takeWhile (· ≠ '/')).reverse

/-- The names of a path.  Slashes in a row count as one, and a point is no name unless it comes
first. -/
def pathNames (path : String) : List String :=
  match Text.splitAt '/' path.toList with
  | [] => []
  | first :: rest => ((first :: rest.filter (· ≠ ['.'])).filter (· ≠ [])).map String.ofList

/-- The directory that a path lies in. -/
def parentPath (path : String) : String :=
  (if path.toList.head? = some '/' then "/" else "") ++ Text.join "/" (pathNames path).dropLast

namespace Workspace

variable {m : Type → Type} [Monad m] [Workspace m]

/-- Makes a directory unless there is one already. -/
def ensureDirectory (path : String) : m (Except FileError PUnit) := do
  match ← makeDirectory path with
  | .ok _ => return .ok ⟨⟩
  | .error e => if ← isDirectory path then return .ok ⟨⟩ else return .error e

/-- Makes a directory and as many as `levels` above it, unless they are there already. -/
def ensureDirectories : Nat → String → m (Except FileError PUnit)
  | 0, path => ensureDirectory path
  | levels + 1, path => do
      match ← ensureDirectory path with
      | .error .notFound =>
          let parent := parentPath path
          match ← if parent = "" then pure (.ok ⟨⟩) else ensureDirectories levels parent with
          | .error e => return .error e
          | .ok _ => ensureDirectory path
      | made => return made

/-- Makes a directory and those above it, unless they are there already. -/
def makeDirectories (path : String) : m (Except FileError PUnit) :=
  if path = "" then return .ok ⟨⟩ else ensureDirectories (pathNames path).length path

/-- Adds a line to the output. -/
def printLine (text : String) : m PUnit := print (text ++ "\n")

/-- Adds a line to the output for messages. -/
def printMessageLine (text : String) : m PUnit := printMessage (text ++ "\n")

end Workspace

end Scorecard
