import Scorecard.Failure
import Scorecard.Form.Validation

/-!
# Form files

A form is read from a file as a whole.  Then there is something to say about the form on its own:
its size, its columns, the lines that were rejected and the warnings.
-/

namespace Scorecard.Form

/-! ## Reading -/

section

variable {m : Type → Type} [Monad m] [Workspace m]

/-- The text of a form file. -/
def readText (path : String) : ExceptT Failure m String := do
  match ← Workspace.readText path with
  | .ok text => return text
  | .error cause => throw (.formUnreadable path cause)

/-- Reads a form from a file. -/
def load (path : String) : ExceptT Failure m Form := return parse (← readText path)

end

/-! ## Reviewing -/

/-- The line for a rejected line. -/
def rejectionLine (line : Nat) (problem : Problem) : String :=
  s!"  line {line}: ERROR: " ++ problem.message

/-- The line for a warning. -/
def warningLine (w : Warning) : String := "  [" ++ w.subject ++ "] WARNING: " ++ w.message

/-- The review of a form that was read from a file. -/
def review (form : Form) (path : String) : List String :=
  let columns := form.schema.columns
  let (fields, equations) := (form.schema.fields.length, form.equations.length)
  let (errors, warnings) := (form.rejected.length, form.warnings.length)
  ["Form config: " ++ path ++
      s!" ({fields} fields, {columns.length} columns, {equations} equations)"] ++
    (if columns = [] then [] else ["  columns: " ++ Text.join ", " columns]) ++
    form.rejected.map (fun (line, problem) => rejectionLine line problem) ++
    form.warnings.map warningLine ++
    if errors = 0 ∧ warnings = 0 then ["Form config valid."]
    else ["", s!"{errors} error(s), {warnings} warning(s) found."]

/-- What is worth saying about a form before teams are scored with it. -/
def cautions (form : Form) (path : String) : List String :=
  (if form.rejected = [] then [] else
    [s!"Warning: {form.rejected.length} line(s) of " ++ path ++
      " could not be loaded; run `scoutsheet validate` for details."]) ++
  if form.equations = [] then
    ["Warning: no equations found in " ++ path ++ "; only field columns will be reported."]
  else []

end Scorecard.Form
