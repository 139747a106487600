import Scorecard.Form.File
import Scorecard.Report.Format
import Scorecard.Report.Summary
import Scorecard.Roster
import Scorecard.Settings

/-!
# Batches

A batch is scored in three steps.  `Batch.prepare` reads settings, form and teams, and writes
nothing; it is the only step that fails because of what it reads.  `Batch.score` makes the report
and never fails.  `Batch.publish` writes the files of the report.
-/

namespace Scorecard

/-- What is asked for on the command line; what is left open comes from the settings. -/
structure BatchOptions where
  teams : String
  config : Option String := none
  settings : Option String := none
  output : Option String := none
  format : Option String := none
  sortBy : Option String := none
  deriving DecidableEq, Repr

/-- A form, the teams to score with it, and what to do with the report. -/
structure Batch where
  form : Form
  teams : List Team
  sortBy : Option String
  outputDir : String
  /-- The names of the formats, known or not. -/
  formats : List String

namespace Batch

/-- The version of the program. -/
def version : String := "0.1.0"

variable {m : Type → Type} [Monad m] [Workspace m]

/-- Reads all that a batch needs. -/
def prepare (o : BatchOptions) : ExceptT Failure m Batch := do
  let settings ← Settings.load o.settings
  let formPath := o.config.getD settings.formConfig
  let form ← Form.load formPath
  (form.cautions formPath).forM Workspace.printMessageLine
  let outcome : Roster.Outcome Failure (List Team) ←
    Roster.loadDirectory o.teams settings.teamNumberKey
  let teams ← liftExcept outcome.result
  return {
    form, teams
    sortBy := (o.sortBy <|> settings.sortBy) <|> form.equations.head?.map Equation.title
    outputDir := o.output.getD settings.outputDir
    formats := o.format.elim settings.formats Format.requested }
where
  /-- The value of a reading that has been done. -/
  liftExcept {α : Type} (result : Except Failure α) : ExceptT Failure m α :=
    ExceptT.mk (pure result)

/-- What is said before a batch is scored. -/
def heading (b : Batch) : List String :=
  ["scoutsheet v" ++ version ++
    s!" - Scoring {b.teams.length} teams x {b.form.equations.length} equations", ""]

/-- Scores the teams of a batch, and says every step. -/
def score (b : Batch) : m Report := do
  b.heading.forM Workspace.printMessageLine
  b.form.scoreTeams console b.teams

/-- What is said if the rows cannot be ranked as asked. -/
def rankingCautions (b : Batch) (r : Report) : List String :=
  match b.sortBy with
  | none => []
  | some name =>
      if (r.equationIndex? name).isSome then []
      else ["Warning: no equation named '" ++ name ++ "', keeping input order."]

/-- Writes a report in the format of a name, unless there is none of that name. -/
def writeReport (b : Batch) (r : Report) (time : Timestamp) (formatName : String) :
    ExceptT Failure m PUnit := do
  match Format.ofName? formatName with
  | none => Workspace.printMessageLine ("Unknown format: " ++ formatName)
  | some f =>
      let path := joinPath b.outputDir (f.fileName time)
      match ← Workspace.writeText path (f.render r (r.ordered b.sortBy)) with
      | .ok _ => Workspace.printMessageLine (f.announcement path)
      | .error cause => throw (f.failure path cause)

/-- Writes the files of a report. -/
def publish (b : Batch) (r : Report) : ExceptT Failure m PUnit := do
  if let .error cause ← Workspace.makeDirectories b.outputDir then throw (.unwritable cause)
  let time ← Workspace.now
  b.formats.forM (b.writeReport r time)

/-- Scores all teams of a directory and writes the report. -/
def run (o : BatchOptions) : ExceptT Failure m PUnit := do
  let b ← prepare o
  let r ← b.score
  (b.rankingCautions r).forM Workspace.printMessageLine
  Workspace.printLine (r.summary (r.ordered b.sortBy)).text
  b.publish r

end Batch

end Scorecard
