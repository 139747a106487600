import Scorecard.Failure

/-!
# Starter files

Settings, a form and a team to begin with.  A file that is there already is left as it is.
-/

namespace Scorecard

/-- A file to begin with. -/
structure StarterFile where
  path : String
  lines : List String

namespace StarterFile

/-- The settings, each with its default or a usual value. -/
def settings : StarterFile where
  path := "scoutsheet.toml"
  lines := [
    "# scoutsheet settings",
    "",
    "form_config = \"config.txt\"",
    "team_number_key = \"team_num\"",
    "output_dir = \"./scoutsheet-results\"",
    "formats = [\"csv\", \"html\"]",
    "sort_by = \"Total Score\""]

/-- A form with a field of every kind but a slider, and two equations. -/
def form : StarterFile where
  path := "config.txt"
  lines := [
    "# Fields: TYPE ;; descriptions ;; keys",
    "LABEL ;; Autonomous",
    "TEXTFIELD<number> ;; Team Number ;; team_num",
    "STEPPER<0,20> ;; Auto Points ;; auto_points",
    "SPACE",
    "LABEL ;; Teleop",
    "STEPPER<0,50> ;; Gears Delivered ;; gears",
    "SEGMENTED_CONTROL<None,Light,Heavy> ;; Defense ;; defense",
    "SWITCH ;; Climbed ;; climbed",
    "TEXTFIELD<text> ;; Notes ;; notes",
    "",
    "# Equations: Name = expression",
    "Total Score = auto_points + gears*2 + climbed_yes*50",
    "Auto Share = auto_points / (auto_points + gears + 1)"]

/-- The record of a team. -/
def team : StarterFile where
  path := "teams/254.json"
  lines := [
    "\x7b",
    "  \"team_num\": \"254\",",
    "  \"auto_points\": \"12\",",
    "  \"gears\": \"6\",",
    "  \"defense\": \"Light\",",
    "  \"climbed\": \"yes\",",
    "  \"notes\": \"fast cycles\"",
    "\x7d"]

/-- The files in the order in which they are made. -/
def all : List StarterFile := [settings, form, team]

/-- The text of a file. -/
def text (f : StarterFile) : String := String.join (f.lines.map (· ++ "\n"))

variable {m : Type → Type} [Monad m] [Workspace m]

/-- Makes a file and the directories above it, and says so. -/
def create (f : StarterFile) : ExceptT Failure m PUnit := do
  if let .error cause ← Workspace.makeDirectories (parentPath f.path) then throw (.unwritable cause)
  if ← Workspace.pathExists f.path then
    Workspace.printLine (f.path ++ " already exists, skipping.")
  else
    if let .error cause ← Workspace.writeText f.path f.text then throw (.unwritable cause)
    Workspace.printLine ("Created " ++ f.path)

/-- What to do with the files. -/
def nextSteps : List String := [
  "",
  "Next steps:",
  "  1. Edit config.txt with your form fields and equations",
  "  2. Run: scoutsheet validate --config config.txt",
  "  3. Run: scoutsheet run --teams teams"]

end StarterFile

end Scorecard
