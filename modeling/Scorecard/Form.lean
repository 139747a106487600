import Scorecard.Equation
import Scorecard.Notice

/-!
# Forms

A form is a text with one field or equation a line.  Blank lines and lines that start with `#` are
passed over.  Each other line is read on its own and yields one entry: a field, an equation, or the
reason why it was rejected.  A rejected line never affects the others.
-/

namespace Scorecard

/-- What a line is taken for before it is read. -/
inductive LineKind where
  | blank
  | field
  | equation
  deriving DecidableEq, Repr

/-- The kind of a line.  A line with `;;` is a field, and so is one that consists of the label of a
field; any other line is an equation. -/
def LineKind.ofLine (line : List Char) : LineKind :=
  let body := Text.trimmed line
  if body = [] ∨ body.head? = some '#' then blank
  else if (Text.cut [';', ';'] body).isSome then field
  else if (FieldType.ofLabel? (splitArguments body).1).isSome then field
  else equation

/-- What a line of a form yields. -/
inductive Entry where
  | field (f : Field)
  | equation (e : Equation)
  | rejected (problem : Problem)

namespace Entry

/-- The entry of a line, unless it is passed over. -/
def ofLine? (line : List Char) : Option Entry :=
  match LineKind.ofLine line with
  | .blank => none
  | .field => some (match Field.parse line with
      | .ok f => field f
      | .error problem => rejected problem)
  | .equation => some (match Equation.parse line with
      | .ok e => equation e
      | .error problem => rejected problem)

/-- The field of an entry. -/
def field? : Entry → Option Field
  | field f => some f
  | _ => none

/-- The equation of an entry. -/
def equation? : Entry → Option Equation
  | equation e => some e
  | _ => none

/-- The problem of an entry. -/
def problem? : Entry → Option Problem
  | rejected problem => some problem
  | _ => none

/-- What is said when the entry of a line has been read. -/
def notice (line : Nat) : Entry → Notice
  | field f => ⟨.debug, f.type.name ++ " field loaded"⟩
  | equation e => ⟨.debug, "equation " ++ e.name ++ " loaded"⟩
  | rejected problem => ⟨.warn, s!"config line {line}: " ++ problem.message⟩

end Entry

/-- The entries of a text with their line numbers, counted from one. -/
def Entry.ofText (text : String) : List (Nat × Entry) :=
  ((Text.lines text.toList).zipIdx 1).filterMap fun (line, number) =>
    (ofLine? line).map fun entry => (number, entry)

/-- A form that has been read. -/
structure Form where
  schema : Schema
  equations : List Equation
  /-- The rejected lines with their numbers. -/
  rejected : List (Nat × Problem)

namespace Form

/-- The form made of the entries of its lines. -/
def ofEntries (entries : List (Nat × Entry)) : Form where
  schema := .ofFields (entries.filterMap fun (_, entry) => entry.field?)
  equations := entries.filterMap fun (_, entry) => entry.equation?
  rejected := entries.filterMap fun (line, entry) => entry.problem?.map fun p => (line, p)

/-- Reads a form. -/
def parse (text : String) : Form := ofEntries (Entry.ofText text)

/-- What is said while a form is read. -/
def notices (text : String) : List Notice :=
  let entries := Entry.ofText text
  let form := ofEntries entries
  let (fields, equations) := (form.schema.fields.length, form.equations.length)
  entries.map (fun (line, entry) => entry.notice line) ++
    [⟨.info, s!"{fields} fields and {equations} equations loaded " ++
      s!"({form.rejected.length} lines skipped)"⟩]

end Form

end Scorecard
