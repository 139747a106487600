import Scorecard.Report
import Scorecard.Json.Pretty

/-!
# Saved reports

A report is saved as a JSON object with one member for each of its parts, in the order of `Report`.
`Report.ofDocument?` reads it back.  Members of other names are not looked at, whatever they hold;
the remarks, and the equation of a remark, may be missing.  An array may stand for an object and
then holds all its members in order.
-/

namespace Scorecard

/-! ## Writing -/

/-- The array of texts. -/
def Json.ofStrings (texts : List String) : Json := .array (texts.map .string)

/-- The row as it is saved. -/
def Row.toJson (row : Row) : Json :=
  .object [("team", .string row.team), ("cells", .ofStrings row.cells),
    ("scores", .array (row.scores.map .float))]

/-- The remark as it is saved. -/
def Remark.toJson (remark : Remark) : Json :=
  .object [("team", .string remark.team), ("equation", remark.equation.elim .null .string),
    ("message", .string remark.message)]

/-- The report as it is saved. -/
def Report.toJson (r : Report) : Json :=
  .object [("id", .string r.id.text), ("created_at", .string r.createdAt.text),
    ("columns", .ofStrings r.columns), ("equations", .ofStrings r.equations),
    ("rows", .array (r.rows.map Row.toJson)), ("diagnostics", .array (r.remarks.map Remark.toJson)),
    ("duration_ms", .int r.milliseconds.toNat)]

/-! ## Reading -/

namespace Json.Document

/-- The member of a name among members with their keys. -/
def unique? (name : String) (members : List (String × Document)) : Option (Option Document) :=
  match members.filter fun m => m.1 = name with
  | [] => some none
  | [m] => some (some m.2)
  | _ => none

/-- The parts of a record with these names, each present or not: the members of an object, none of
which may be repeated, or the items of an array. -/
def parts? (names : List String) : Document → Option (List (Option Document))
  | object members => do
      let keyed ← members.mapM fun (k, d) => (textOf? k).map fun key => (key, d)
      names.mapM fun name => unique? name keyed
  | array items => if items.length = names.length then some (items.map some) else none
  | _ => none

/-- A text. -/
def string? : Document → Option String
  | string units => textOf? units
  | _ => none

/-- The items of an array, each read in the same way. -/
def list? {α : Type} (read : Document → Option α) : Document → Option (List α)
  | array items => items.mapM read
  | _ => none

/-- A number. -/
def float? : Document → Option Float
  | number negative n =>
      match ofNumeral? negative n with
      | some (.int k) => some (Number.ofInt k)
      | some (.float x) => some x
      | _ => none
  | _ => none

/-- A whole number of 64 bits without sign. -/
def count? : Document → Option UInt64
  | number negative n =>
      match ofNumeral? negative n with
      | some (.int (.ofNat k)) => some (UInt64.ofNat k)
      | _ => none
  | _ => none

/-- A text, or nothing. -/
def nullable? (read : Document → Option String) : Option Document → Option (Option String)
  | none | some null => some none
  | some d => (read d).map some

end Json.Document

open Json (Document)

/-- Reads a row. -/
def Row.ofDocument? (d : Document) : Option Row := do
  match ← d.parts? ["team", "cells", "scores"] with
  | [some team, some cells, some scores] =>
      return ⟨← team.string?, ← cells.list? Document.string?, ← scores.list? Document.float?⟩
  | _ => none

/-- Reads a remark. -/
def Remark.ofDocument? (d : Document) : Option Remark := do
  match ← d.parts? ["team", "equation", "message"] with
  | [some team, equation, some message] =>
      return ⟨← team.string?, ← Document.nullable? Document.string? equation, ← message.string?⟩
  | _ => none

/-- Reads a report. -/
def Report.ofDocument? (d : Document) : Option Report := do
  match ← d.parts? ["id", "created_at", "columns", "equations", "rows", "diagnostics",
      "duration_ms"] with
  | [some id, some createdAt, some columns, some equations, some rows, remarks, some duration] =>
      return {
        id := ← Identifier.parse (← id.string?).toList
        createdAt := ← Timestamp.parse (← createdAt.string?).toList
        columns := ← columns.list? Document.string?
        equations := ← equations.list? Document.string?
        rows := ← rows.list? Row.ofDocument?
        remarks := ← remarks.elim (some []) (Document.list? Remark.ofDocument?)
        milliseconds := ← duration.count? }
  | _ => none

/-- The text of a saved report. -/
def Report.save (r : Report) : String := r.toJson.text

/-- The report whose saved text this is. -/
def Report.load (text : String) : Option Report :=
  (Document.parse text.toList).bind ofDocument?

end Scorecard
