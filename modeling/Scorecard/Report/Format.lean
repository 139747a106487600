import Scorecard.Failure
import Scorecard.Report.Csv
import Scorecard.Report.Html

/-!
# Report formats

A report is written in one or more formats, each to a file of its own.
-/

namespace Scorecard

/-- How a report is written. -/
inductive Format where
  | csv
  | html
  | json
  deriving DecidableEq, Repr

namespace Format

/-- The name of a format, which is also the extension of its files. -/
def name : Format → String
  | csv => "csv"
  | html => "html"
  | json => "json"

/-- All formats, in the order in which they are written. -/
def all : List Format := [csv, html, json]

/-- The format of a name. -/
def ofName? (name : String) : Option Format := all.find? fun f => f.name = name

theorem ofName?_name (f : Format) : ofName? f.name = some f := by cases f <;> rfl

/-- The names that a request lists: `all`, or names between commas. -/
def requested (request : String) : List String :=
  if request = "all" then all.map name
  else (Text.splitAt ',' request.toList).map fun item => String.ofList (Text.trimmed item)

/-- A report in a format.  The saved report keeps its own order of rows. -/
def render (f : Format) (r : Report) (rows : List Row) : String :=
  match f with
  | csv => r.csv rows
  | html => r.html rows
  | json => r.save

/-- What is said when a report has been written. -/
def announcement (f : Format) (path : String) : String :=
  match f with
  | csv => "CSV report: " ++ path
  | html => "HTML report: " ++ path
  | json => "Results saved to: " ++ path

/-- The failure to write a report. -/
def failure (f : Format) (path : String) (cause : FileError) : Failure :=
  match f with
  | csv => .csvUnwritable path cause
  | html => .unwritable cause
  | json => .reportUnwritable path cause

/-- The name of the file for a report written at a time. -/
def fileName (f : Format) (time : Timestamp) : String := "scores-" ++ time.compact ++ "." ++ f.name

end Format

end Scorecard
