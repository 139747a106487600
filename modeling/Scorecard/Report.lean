import Scorecard.Report.Identifier
import Scorecard.Report.Timestamp

/-!
# Reports

A report has a row for each team: the cells under the form's columns, then a score for each
equation.  Rows are ranked by the score of one equation, highest first, and rows with equal scores
keep their order.
-/

namespace Scorecard

/-- What a report says about one team. -/
structure Row where
  team : String
  /-- One cell for each column. -/
  cells : List String
  /-- One score for each equation. -/
  scores : List Float

/-- Something that went wrong for a team. -/
structure Remark where
  team : String
  equation : Option String
  message : String
  deriving DecidableEq, Repr

/-- The result of scoring teams. -/
structure Report where
  id : Identifier
  createdAt : Timestamp
  columns : List String
  /-- The titles of the equations. -/
  equations : List String
  rows : List Row
  remarks : List Remark
  /-- How long the scoring took. -/
  milliseconds : UInt64

/-- The score of an equation; a missing one counts as zero. -/
def Row.scoreAt (row : Row) (i : Nat) : Float := row.scores.getD i 0

namespace Report

/-- The head of every column. -/
def headers (r : Report) : List String := "team" :: r.columns ++ r.equations

/-- The place of the first equation of a name.  Blanks around it and the case of the letters A to Z
do not matter. -/
def equationIndex? (r : Report) (name : String) : Option Nat :=
  r.equations.findIdx? fun e => Text.sameIgnoringAsciiCase e (Text.trim name)

/-- The rows from the highest to the lowest score of the equation of a name; the rows as they are if
there is none. -/
def rankedBy (r : Report) (name : String) : List Row :=
  match r.equationIndex? name with
  | some i => r.rows.mergeSort fun a b => !(a.scoreAt i < b.scoreAt i)
  | none => r.rows

/-- The rows in the order that is asked for. -/
def ordered (r : Report) (sortBy : Option String) : List Row := sortBy.elim r.rows r.rankedBy

end Report

end Scorecard
