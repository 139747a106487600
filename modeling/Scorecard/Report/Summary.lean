import Scorecard.Report.Scoring
import Scorecard.Table

/-!
# Summaries

What a run shows on the way and at its end: a message for each step, and a table of ranks and
scores.
-/

namespace Scorecard

/-- Scores in a summary have two decimal places. -/
def summaryScore (x : Float) : String := Number.fixed 2 x

/-- The table of rows in the order of their ranks. -/
def Report.summary (r : Report) (rows : List Row) : Table where
  head := "Rank" :: "Team" :: r.equations
  rows := (rows.zipIdx 1).map fun (row, rank) =>
    toString rank :: row.team :: row.scores.map summaryScore

/-- Seconds with one decimal place. -/
def secondsText (milliseconds : Nat) : String := Number.fixed 1 (Float.ofNat milliseconds / 1000)

/-- The observer that says every step in a message. -/
def console {m : Type → Type} [Monad m] [Workspace m] : Observer m where
  remark r :=
    let about := match r.equation with
      | some equation => r.team ++ " :: " ++ equation
      | none => r.team
    Workspace.printMessageLine ("  WARNING: team " ++ about ++ ": " ++ r.message)
  scored row := Workspace.printMessageLine
    ("  Scored: team " ++ row.team ++ " [" ++
      Text.join ", " (row.scores.map Number.scoreText) ++ "]")
  complete teams equations remarks milliseconds := Workspace.printMessageLine
    (s!"\nComplete: {teams} teams x {equations} equations, {remarks} warnings " ++
      "(" ++ secondsText milliseconds ++ "s)")

end Scorecard
