import Scorecard.Report
import Scorecard.Text.Split

/-!
# Reports as comma-separated values

A record is a line of fields with commas between them, ended by a carriage return and a line feed.
A field that holds a comma, a quote or a line end stands in quotes, and a quote inside it is written
twice.
-/

namespace Scorecard

namespace Csv

/-- Whether a field that holds the character stands in quotes. -/
def needsQuotes (c : Char) : Bool := c = ',' || c = '"' || c = '\n' || c = '\r'

/-- The text with every quote written twice. -/
def doubled (cs : List Char) : List Char := cs.flatMap fun c => if c = '"' then ['"', '"'] else [c]

/-- A field as it is written. -/
def field (s : String) : String :=
  if s.toList.any needsQuotes then String.ofList ('"' :: doubled s.toList ++ ['"']) else s

/-- A record as it is written. -/
def record (fields : List String) : String := Text.join "," (fields.map field) ++ "\r\n"

end Csv

/-- The fields of a row. -/
def Row.fields (row : Row) : List String := row.team :: row.cells ++ row.scores.map Number.scoreText

/-- The report with the given rows: a record with the heads of the columns, and one for each row. -/
def Report.csv (r : Report) (rows : List Row) : String :=
  String.join ((r.headers :: rows.map Row.fields).map Csv.record)

end Scorecard
