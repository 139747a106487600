import Scorecard.Form

/-!
# Validation

A form whose lines can all be read may still score in surprising ways.  `Form.warnings` lists what
looks wrong: first field by field, then keys and columns that fields share, then the equations.
-/

namespace Scorecard

/-- Something about a form that reads well and will score surprisingly. -/
inductive Warning where
  /-- A field has not as many descriptions as keys. -/
  | unevenField (keys : List String) (descriptions : Nat)
  /-- A segmented control has no segments. -/
  | noSegments (keys : List String)
  /-- A text field does not say what its answers are. -/
  | noFormat (keys : List String)
  /-- Several fields use one key, letter case aside. -/
  | sharedKey (key : String) (fields : Nat)
  /-- A column occurs earlier. -/
  | repeatedColumn (column : String)
  /-- The name of an equation is blank. -/
  | namelessEquation (equation : Equation)
  /-- The name of an equation occurs earlier. -/
  | repeatedName (name : String)
  /-- An identifier names no key and no column. -/
  | unknownIdentifier (equation identifier : String)
  /-- An identifier names something that no answer is put in for. -/
  | unboundIdentifier (equation identifier : String)
  deriving DecidableEq, Repr

namespace Warning

/-- What the warning is about. -/
def subject : Warning → String
  | unevenField keys _ | noSegments keys | noFormat keys => Text.join "," keys
  | sharedKey key _ => key
  | repeatedColumn column => column
  | namelessEquation equation => equation.text
  | repeatedName name | unknownIdentifier name _ | unboundIdentifier name _ => name

/-- What is wrong with it. -/
def message : Warning → String
  | unevenField keys descriptions => s!"{descriptions} descriptions but {keys.length} keys"
  | noSegments _ => "segmented control has no segments"
  | noFormat _ => "text field has no format argument and will be treated as text"
  | sharedKey _ fields => s!"key is used by {fields} fields; only the first is scored"
  | repeatedColumn _ => "duplicate derived column"
  | namelessEquation _ => "equation has no name"
  | repeatedName _ => "duplicate equation name"
  | unknownIdentifier _ identifier =>
      "`" ++ identifier ++ "` does not match any field key or column"
  | unboundIdentifier _ identifier =>
      "`" ++ identifier ++ "` is never substituted and will score 0"

end Warning

/-- The warnings about one field alone. -/
def Field.warnings (f : Field) : List Warning :=
  match f.inputs? with
  | none => []
  | some inputs =>
      (if inputs.descriptions.length = inputs.keys.length then []
        else [.unevenField inputs.keys inputs.descriptions.length]) ++
      if f.type.usesArguments ∧ inputs.arguments = [] then
        [if f.type = .segmented then .noSegments inputs.keys else .noFormat inputs.keys]
      else []

/-- The keys of the fields in lower case, in order and each once. -/
def lowerKeys (fields : List Field) : List String :=
  ((fields.flatMap fun f => f.keys.map Text.lower).eraseDups).mergeSort fun a b => a ≤ b

/-- The number of fields that use a key in lower case. -/
def keyUsers (fields : List Field) (key : String) : Nat :=
  fields.countP fun f => (f.keys.map Text.lower).contains key

/-- The warnings about keys that several fields use. -/
def sharedKeyWarnings (fields : List Field) : List Warning :=
  (lowerKeys fields).filterMap fun key =>
    if 1 < keyUsers fields key then some (.sharedKey key (keyUsers fields key)) else none

/-- The elements that occur earlier in the list or in `seen`, once for each such occurrence. -/
def repeats {α : Type} [BEq α] (seen : List α) : List α → List α
  | [] => []
  | a :: as => if seen.contains a then a :: repeats seen as else repeats (a :: seen) as

/-- The warning about an identifier in the equation of the given title. -/
def identifierWarning? (schema : Schema) (title identifier : String) : Option Warning :=
  if !schema.knows identifier then some (.unknownIdentifier title identifier)
  else if !schema.binds identifier then some (.unboundIdentifier title identifier)
  else none

/-- The warnings about the name of an equation that follows others with the given titles. -/
def nameWarnings (seen : List String) (e : Equation) : List Warning :=
  if Text.trimmed e.title.toList = [] then [.namelessEquation e]
  else if seen.contains e.title then [.repeatedName e.title]
  else []

/-- The warnings about equations that follow others with the given titles. -/
def equationWarnings (schema : Schema) (seen : List String) : List Equation → List Warning
  | [] => []
  | e :: es =>
      nameWarnings seen e ++ e.identifiers.filterMap (identifierWarning? schema e.title) ++
        equationWarnings schema (e.title :: seen) es

/-- Everything about the form that will score surprisingly. -/
def Form.warnings (form : Form) : List Warning :=
  form.schema.fields.flatMap Field.warnings ++ sharedKeyWarnings form.schema.fields ++
    (repeats [] form.schema.columns).map .repeatedColumn ++
    equationWarnings form.schema [] form.equations

end Scorecard
