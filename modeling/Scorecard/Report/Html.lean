import Scorecard.Report
import Scorecard.Report.Saved

/-!
# Reports as web pages

A page is a list of pieces: tags, text, and the style sheet and script that are taken as they are.
Text is escaped when the page is rendered, so no team, cell or message can add or change a tag.
-/

namespace Scorecard

namespace Html

/-- A piece of a page. -/
inductive Piece where
  /-- A tag, without its angle brackets. -/
  | tag (inside : String)
  /-- Text, not yet escaped. -/
  | text (s : String)
  /-- A style sheet or a script. -/
  | verbatim (s : String)
  deriving DecidableEq, Repr

/-- How a character of text is written. -/
def escapedChar (c : Char) : List Char :=
  if c = '&' then "&amp;".toList
  else if c = '<' then "&lt;".toList
  else if c = '>' then "&gt;".toList
  else if c = '"' then "&quot;".toList
  else if c = '\'' then "&#x27;".toList
  else [c]

/-- Text as it is written. -/
def escape (s : String) : String := String.ofList (s.toList.flatMap escapedChar)

/-- A piece as it is written. -/
def Piece.render : Piece → String
  | tag inside => "<" ++ inside ++ ">"
  | text s => escape s
  | verbatim s => s

/-- The pieces of a page as they are written. -/
def render (pieces : List Piece) : String := String.join (pieces.map Piece.render)

/-- Pieces between a tag with attributes and its end tag. -/
def element (name attributes : String) (inside : List Piece) : List Piece :=
  .tag (name ++ attributes) :: inside ++ [.tag ("/" ++ name)]

/-- Text between a tag and its end tag. -/
def leaf (name attributes content : String) : List Piece := element name attributes [.text content]

/-- A line end. -/
def newLine : List Piece := [.text "\n"]

/-- The lines of a style sheet or a script. -/
def verbatimLines (lines : List String) : List Piece :=
  .text "\n" :: lines.flatMap fun line => [.verbatim line, .text "\n"]

/-- The style sheet. -/
def style : List String := [
  ":root \x7b --bg: #fff; --fg: #1a1a1a; --border: #e5e7eb; --fail: #fde2e2; \x7d",
  "@media (prefers-color-scheme: dark) \x7b",
  "  :root \x7b --bg: #111827; --fg: #f9fafb; --border: #374151; --fail: #7f1d1d; \x7d",
  "\x7d",
  "body \x7b font-family: -apple-system, BlinkMacSystemFont, 'Segoe UI', sans-serif; margin: 0; padding: 2rem; background: var(--bg); color: var(--fg); \x7d",
  "h1, h2 \x7b margin-top: 2rem; \x7d",
  ".meta \x7b color: #6b7280; \x7d",
  "table \x7b border-collapse: collapse; width: 100%; margin: 1rem 0; \x7d",
  "th, td \x7b border: 1px solid var(--border); padding: 0.5rem 1rem; text-align: left; \x7d",
  "th \x7b background: var(--border); cursor: pointer; \x7d",
  ".score \x7b font-weight: bold; text-align: right; \x7d",
  ".fail \x7b background: var(--fail); \x7d",
  "pre \x7b overflow-x: auto; padding: 1rem; background: var(--border); border-radius: 8px; \x7d",
  "code \x7b font-family: 'JetBrains Mono', 'Fira Code', monospace; font-size: 0.85rem; \x7d",
  "details \x7b margin: 1rem 0; \x7d",
  "summary \x7b cursor: pointer; font-weight: bold; \x7d"]

/-- The script that sorts the table by the column whose head is clicked. -/
def script : List String := [
  "function sortTable(col) \x7b",
  "  const table = document.getElementById('scores');",
  "  const tbody = table.querySelector('tbody');",
  "  const rows = Array.from(tbody.querySelectorAll('tr'));",
  "  const asc = table.dataset.sortCol == col && table.dataset.sortDir == 'asc' ? false : true;",
  "  rows.sort((a, b) => \x7b",
  "    const va = a.cells[col].textContent;",
  "    const vb = b.cells[col].textContent;",
  "    const na = parseFloat(va), nb = parseFloat(vb);",
  "    const cmp = !isNaN(na) && !isNaN(nb) ? na - nb : va.localeCompare(vb);",
  "    return asc ? cmp : -cmp;",
  "  \x7d);",
  "  table.dataset.sortCol = col;",
  "  table.dataset.sortDir = asc ? 'asc' : 'desc';",
  "  rows.forEach(r => tbody.appendChild(r));",
  "\x7d"]

end Html

open Html

/-- The head of the page. -/
def Html.head : List Piece :=
  element "head" "" (newLine ++ [.tag "meta charset=\"utf-8\""] ++ newLine ++
    [.tag "meta name=\"viewport\" content=\"width=device-width, initial-scale=1\""] ++ newLine ++
    leaf "title" "" "scoutsheet scores" ++ newLine ++
    element "style" "" (newLine ++ verbatimLines style) ++ newLine) ++ newLine

namespace Report

/-- The title of the page, and the size and date of the report. -/
def htmlBanner (r : Report) : List Piece :=
  element "header" "" (newLine ++ leaf "h1" "" "scoutsheet scores" ++ newLine ++
    leaf "p" " class=\"meta\"" (s!"{r.rows.length} teams | {r.equations.length} equations | " ++
      s!"{r.remarks.length} diagnostics | " ++ r.createdAt.display) ++ newLine) ++ newLine

/-- The head of the column at a place. -/
def htmlHeader (r : Report) (place : Nat) (header : String) : List Piece :=
  let score := if r.columns.length < place then " class=\"score\"" else ""
  leaf "th" (score ++ s!" onclick=\"sortTable({place})\"") header

/-- The table row of a team. -/
def htmlRow (row : Row) : List Piece :=
  element "tr" "" (leaf "td" "" row.team ++ row.cells.flatMap (leaf "td" "") ++
    row.scores.flatMap fun x => leaf "td" " class=\"score\"" (Number.scoreText x)) ++ newLine

/-- The table of scores. -/
def htmlTable (r : Report) (rows : List Row) : List Piece :=
  element "section" " class=\"scores\"" (newLine ++ leaf "h2" "" "Scores" ++ newLine ++
    element "table" " id=\"scores\"" (newLine ++
      element "thead" "" (element "tr" ""
        (r.headers.zipIdx.flatMap fun (header, place) => r.htmlHeader place header)) ++ newLine ++
      element "tbody" "" (newLine ++ rows.flatMap htmlRow)) ++ newLine) ++ newLine

/-- The list entry of a remark. -/
def htmlRemark (remark : Remark) : List Piece :=
  leaf "li" " class=\"fail\"" ("team " ++ remark.team ++
    remark.equation.elim "" (fun e => " [" ++ e ++ "]") ++ ": " ++ remark.message) ++ newLine

/-- The list of remarks, if there are any. -/
def htmlRemarks (r : Report) : List Piece :=
  if r.remarks.isEmpty then []
  else
    element "section" " class=\"diagnostics\"" (newLine ++ leaf "h2" "" "Diagnostics" ++ newLine ++
      element "ul" "" (newLine ++ r.remarks.flatMap htmlRemark) ++ newLine) ++ newLine

/-- The report as it is saved. -/
def htmlData (r : Report) : List Piece :=
  element "section" " class=\"raw-data\"" (newLine ++
    element "details" "" (newLine ++ leaf "summary" "" "Raw JSON Data" ++ newLine ++
      element "pre" "" (leaf "code" "" r.save) ++ newLine) ++ newLine) ++ newLine

/-- The pieces of the page that shows the report with the given rows. -/
def htmlPieces (r : Report) (rows : List Row) : List Piece :=
  [.tag "!DOCTYPE html"] ++ newLine ++
    element "html" " lang=\"en\"" (newLine ++ Html.head ++
      element "body" "" (newLine ++ r.htmlBanner ++ r.htmlTable rows ++ r.htmlRemarks ++ r.htmlData ++
        element "script" "" (newLine ++ verbatimLines script) ++ newLine) ++ newLine)

/-- The page that shows the report with the given rows. -/
def html (r : Report) (rows : List Row) : String := render (r.htmlPieces rows)

end Report

end Scorecard
