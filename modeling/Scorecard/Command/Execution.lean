import Scorecard.Command
import Scorecard.Starter

/-!
# Performing commands

`Form.explanation` says how the score of a team comes about, equation by equation.  `perform` does
what a command asks for, and `execute` does so for a command line.  A command that fails says why
and yields the exit code 1; a command line that cannot be read yields 2.
-/

namespace Scorecard

/-- The account of an equation's score for a team. -/
def Equation.explanation (e : Equation) (schema : Schema) (team : Team) : List String :=
  let result := e.evaluate schema team
  ["", e.title,
    "  template:   " ++ e.formula,
    "  expression: " ++ result.expression,
    "  score:      " ++ Number.scoreText result.score] ++
  result.problems.map fun problem => "  WARNING: " ++ problem.message

/-- The account of all scores of a team. -/
def Form.explanation (form : Form) (team : Team) : List String :=
  ("Team " ++ team.number) :: form.equations.flatMap fun e => e.explanation form.schema team

namespace Command

variable {m : Type → Type} [Monad m] [Workspace m]

/-- Makes the starter files. -/
def makeStarterFiles : ExceptT Failure m PUnit := do
  StarterFile.all.forM StarterFile.create
  StarterFile.nextSteps.forM Workspace.printLine

/-- Reviews the form of a file. -/
def reviewForm (path : String) : ExceptT Failure m PUnit := do
  let form ← Form.load path
  (form.review path).forM Workspace.printLine

/-- Explains the scores of the first team of a file. -/
def explainTeam (config path teamNumberKey : String) : ExceptT Failure m PUnit := do
  let form ← Form.load config
  let outcome : Roster.Outcome RecordFault (List Team) ← Roster.loadFile path teamNumberKey
  match outcome.result with
  | .error fault => throw (.recordsUnusable path fault)
  | .ok [] => throw (.noRecords path)
  | .ok (team :: others) =>
      (form.explanation team).forM Workspace.printLine
      if others ≠ [] then
        Workspace.printMessageLine ""
        Workspace.printMessageLine (s!"{others.length} more record(s) in " ++ path ++ " not shown.")

/-- Does what a command asks for. -/
def perform : Command → ExceptT Failure m PUnit
  | .version => Workspace.printLine ("scoutsheet " ++ Batch.version)
  | .init => makeStarterFiles
  | .validate config => reviewForm config
  | .explain config team teamNumberKey => explainTeam config team teamNumberKey
  | .run options => Batch.run options

/-- Does what a command line asks for, and yields the exit code. -/
def execute (arguments : List String) : m UInt32 := do
  match ofArguments arguments with
  | .error fault =>
      Workspace.printMessageLine ("error: " ++ fault.message)
      return 2
  | .ok command =>
      match ← (command.perform : ExceptT Failure m PUnit).run with
      | .ok _ => return 0
      | .error failure =>
          Workspace.printMessageLine ("Error: " ++ failure.message)
          return 1

end Command

end Scorecard
