import Scorecard.Workspace.FileTree

/-!
# Worlds

A world is a workspace as a value: a file tree, the environment, a clock that stands still, and what
has been printed so far.  A command run in a world yields the world after it.
-/

namespace Scorecard

/-- A workspace as a value. -/
structure World where
  files : FileTree
  environment : List (String × String)
  time : Timestamp
  identifier : Identifier
  output : String
  messages : String

namespace World

/-- Takes over the tree that a file operation leaves. -/
def commit (result : Except FileError FileTree) : StateM World (Except FileError PUnit) :=
  fun w => match result with
    | .ok files => (.ok ⟨⟩, { w with files })
    | .error e => (.error e, w)

instance : Workspace (StateM World) where
  readText path w := (w.files.readText path, w)
  writeText path text w := commit (w.files.writeText path text) w
  pathExists path w := (w.files.find path matches .ok _, w)
  isFile path w := (w.files.find path matches .ok (.file _), w)
  isDirectory path w := (w.files.find path matches .ok .directory, w)
  names path w := (w.files.names path, w)
  makeDirectory path w := commit (w.files.makeDirectory path) w
  environment? name w := (w.environment.lookup name, w)
  now w := (w.time, w)
  milliseconds w := (0, w)
  freshIdentifier w := (w.identifier, w)
  print text w := (⟨⟩, { w with output := w.output ++ text })
  printMessage text w := (⟨⟩, { w with messages := w.messages ++ text })

end World

end Scorecard
