import Scorecard.Form
import Scorecard.Report
import Scorecard.Workspace

/-!
# Scoring

Every team is scored under every equation.  Nothing ends the run: what goes wrong becomes a remark
in the report.  `Form.scoreTeams` is the run, in which an observer is told of every step.

What a run comes to depends on the form and the teams only: `Form.report` is its report, up to the
stamps, and `Form.events` is its course as the observer sees it, up to the time it takes.
-/

namespace Scorecard

/-- The remarks on one evaluation. -/
def remarksOn (team : Team) (e : Equation) (result : Evaluation) : List Remark :=
  result.problems.map fun problem => ⟨team.number, some e.title, problem.message⟩

/-! ## Runs -/

/-- What an observer does when it is told of a step. -/
structure Observer (m : Type → Type) where
  remark (r : Remark) : m PUnit
  scored (row : Row) : m PUnit
  /-- The end of a run, with the time that it has taken. -/
  complete (teams equations remarks milliseconds : Nat) : m PUnit

namespace Form

/-- Scores a team under one equation after the other. -/
def scoreTeam (form : Form) (team : Team) : Row × List Remark := Id.run do
  let mut scores := []
  let mut remarks := []
  for e in form.equations do
    let result := e.evaluate form.schema team
    remarks := remarks ++ remarksOn team e result
    scores := scores ++ [result.score]
  return (⟨team.number, form.schema.cells team, scores⟩, remarks)

/-- Scores one team after the other.  The observer is told of the remarks on a team and then of its
row, and of the counts at the end. -/
def scoreTeams {m : Type → Type} [Monad m] [Workspace m] (form : Form) (observer : Observer m)
    (teams : List Team) : m Report := do
  let start ← Workspace.milliseconds
  let mut rows := []
  let mut remarks := []
  for team in teams do
    let (row, found) := form.scoreTeam team
    for r in found do
      observer.remark r
    observer.scored row
    remarks := remarks ++ found
    rows := rows ++ [row]
  let elapsed := (← Workspace.milliseconds) - start
  observer.complete rows.length form.equations.length remarks.length elapsed
  return {
    id := ← Workspace.freshIdentifier
    createdAt := ← Workspace.now
    columns := form.schema.columns
    equations := form.equations.map Equation.title
    rows, remarks
    milliseconds := elapsed.toUInt64 }

/-! ## What a run comes to -/

/-- The row of a team. -/
def row (form : Form) (team : Team) : Row where
  team := team.number
  cells := form.schema.cells team
  scores := form.equations.map fun e => (e.evaluate form.schema team).score

/-- The remarks on a team, equation by equation. -/
def remarks (form : Form) (team : Team) : List Remark :=
  form.equations.flatMap fun e => remarksOn team e (e.evaluate form.schema team)

/-- The report on teams. -/
def report (form : Form) (teams : List Team) (id : Identifier) (createdAt : Timestamp)
    (milliseconds : UInt64) : Report where
  id := id
  createdAt := createdAt
  columns := form.schema.columns
  equations := form.equations.map Equation.title
  rows := teams.map form.row
  remarks := teams.flatMap form.remarks
  milliseconds := milliseconds

end Form

/-- A step of a run. -/
inductive Event where
  | remark (r : Remark)
  | scored (row : Row)
  | complete (teams equations remarks : Nat)

namespace Form

/-- What an observer is told of one team: the remarks on it, then its row. -/
def teamEvents (form : Form) (team : Team) : List Event :=
  (form.remarks team).map .remark ++ [.scored (form.row team)]

/-- The end of a run. -/
def completion (form : Form) (teams : List Team) : Event :=
  .complete teams.length form.equations.length (teams.flatMap form.remarks).length

/-- The steps of a run in order. -/
def events (form : Form) (teams : List Team) : List Event :=
  teams.flatMap form.teamEvents ++ [form.completion teams]

end Form

end Scorecard
