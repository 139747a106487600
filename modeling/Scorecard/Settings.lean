import Scorecard.Failure
import Scorecard.Toml.Document

/-!
# Settings

Settings are read from a TOML file; what it leaves out has a default, and two environment variables
override it.  In the paths of the settings, `$` and a name in braces stands for the value of an
environment variable.
-/

namespace Scorecard

/-- The settings of a run. -/
structure Settings where
  formConfig : String := "config.txt"
  teamNumberKey : String := "team_num"
  outputDir : String := "./scoutsheet-results"
  formats : List String := ["csv"]
  sortBy : Option String := none
  deriving DecidableEq, Repr

/-! ## References to variables -/

/-- The text up to the first reference, the name that it refers to, and the text after it. -/
def nextReference? (cs : List Char) : Option (List Char × List Char × List Char) := do
  let (before, opened) ← Text.cut ['$', '\x7b'] cs
  let (name, rest) ← Text.cut ['\x7d'] opened
  return (before, name, rest)

theorem length_nextReference? {cs before name rest : List Char}
    (h : nextReference? cs = some (before, name, rest)) : rest.length < cs.length := by
  simp only [nextReference?, Option.bind_eq_bind, Option.pure_def, Option.bind_eq_some_iff] at h
  obtain ⟨⟨b, opened⟩, h1, ⟨n, r⟩, h2, h3⟩ := h
  simp only [Option.some.injEq, Prod.mk.injEq] at h3
  have e1 := congrArg List.length (Text.cut_eq h1)
  have e2 := congrArg List.length (Text.cut_eq h2)
  simp only [List.length_append, List.length_cons, List.length_nil] at e1 e2
  rw [← h3.2.2]
  omega

/-- The text with every reference replaced by the value of its variable, from left to right.  A
variable that is not set counts as empty, and values are not looked through for references. -/
def expand (value? : List Char → Option String) (cs : List Char) : List Char :=
  match _h : nextReference? cs with
  | some (before, name, rest) => before ++ ((value? name).getD "").toList ++ expand value? rest
  | none => cs
termination_by cs.length
decreasing_by exact length_nextReference? (by assumption)

/-- The names that a text refers to. -/
def references (cs : List Char) : List (List Char) :=
  match _h : nextReference? cs with
  | some (_, name, rest) => name :: references rest
  | none => []
termination_by cs.length
decreasing_by exact length_nextReference? (by assumption)

/-! ## Reading -/

namespace Settings

/-- A member that is a text, or a default if there is none. -/
def text? (members : List (String × Json)) (key default : String) : Option String :=
  match members.lookup key with
  | none => some default
  | some (.string s) => some s
  | some _ => none

/-- The text of a value. -/
def ofString? : Json → Option String
  | .string s => some s
  | _ => none

/-- The settings of an object, whose other members do not matter. -/
def ofMembers? (members : List (String × Json)) : Option Settings := do
  let defaults : Settings := {}
  return {
    formConfig := ← text? members "form_config" defaults.formConfig
    teamNumberKey := ← text? members "team_number_key" defaults.teamNumberKey
    outputDir := ← text? members "output_dir" defaults.outputDir
    formats := ← match members.lookup "formats" with
      | none => some defaults.formats
      | some (.array items) => items.mapM ofString?
      | some _ => none
    sortBy := ← match members.lookup "sort_by" with
      | none => some none
      | some (.string s) => some (some s)
      | some _ => none }

/-- Reads the text of a settings file. -/
def parse (text : String) : Option Settings :=
  (Toml.members text.toList).bind ofMembers?

variable {m : Type → Type} [Monad m] [Workspace m]

/-- The name of the settings file in the directory at hand. -/
def localPath : String := "scoutsheet.toml"

/-- The settings file of the user. -/
def userPath (home : String) : String :=
  joinPath (joinPath (joinPath home ".config") "scoutsheet") "config.toml"

/-- The settings file to read, if there is any: the one that was chosen, else the first of the usual
ones that is there. -/
def findPath (chosen : Option String) : ExceptT Failure m (Option String) := do
  match chosen with
  | some path =>
      if ← Workspace.pathExists path then return some path else throw (.settingsNotFound path)
  | none =>
      if ← Workspace.pathExists localPath then return some localPath
      match ← Workspace.environment? "HOME" with
      | none => return none
      | some home =>
          if ← Workspace.pathExists (userPath home) then return some (userPath home)
          else return none

/-- The settings of a file, or the defaults. -/
def readPath (path : Option String) : ExceptT Failure m Settings := do
  match path with
  | none => return {}
  | some path =>
      match ← Workspace.readText path with
      | .error cause => throw (.settingsUnreadable path cause)
      | .ok text =>
          match parse text with
          | some settings => return settings
          | none => throw (.settingsUnparseable path)

/-- The value of a variable.  No variable has an empty name or one with an equals sign. -/
def valueOf (name : List Char) : m (Option String) :=
  if name = [] ∨ name.contains '=' then return none else Workspace.environment? (String.ofList name)

/-- A path with its references replaced. -/
def expandPath (path : String) : m String := do
  let names := references path.toList
  let values ← names.mapM fun name => return (name, (← valueOf name).getD "")
  return String.ofList (expand (fun name => values.lookup name) path.toList)

/-- The settings of a run. -/
def load (chosen : Option String) : ExceptT Failure m Settings := do
  let settings ← readPath (← findPath chosen)
  let outputDir ← Workspace.environment? "SCOUTSHEET_OUTPUT_DIR"
  let teamNumberKey ← Workspace.environment? "SCOUTSHEET_TEAM_NUMBER_KEY"
  return { settings with
    formConfig := ← expandPath settings.formConfig
    teamNumberKey := teamNumberKey.getD settings.teamNumberKey
    outputDir := ← expandPath (outputDir.getD settings.outputDir) }

end Settings

end Scorecard
