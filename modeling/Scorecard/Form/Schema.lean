import Scorecard.Form.Binding

/-!
# Schemas

A schema is the list of the form's fields, with the table of the identifiers that formulas may name.
Where several fields claim one identifier, the earliest claim counts.  The cells of a team line up
with the columns, field by field.
-/

namespace Scorecard

/-- The fields of a form, with the table of their bindings kept beside them. -/
structure Schema where
  fields : List Field
  bindings : BindingTable := .ofFields fields
  bindings_eq : bindings = .ofFields fields := by rfl

namespace Schema

/-- The schema of a list of fields. -/
def ofFields (fields : List Field) : Schema where
  fields := fields

/-- The binding of an identifier. -/
def binding? (schema : Schema) (identifier : String) : Option Binding :=
  schema.bindings.lookup identifier

/-- The columns of every field, in order. -/
def columns (schema : Schema) : List String := schema.fields.flatMap Field.columns

/-- The cell of a column whose text comes from the column's binding. -/
def boundCell (schema : Schema) (team : Team) (column : String) : String :=
  (schema.binding? column).elim "" fun b => (b.resolve team).1

/-- The cells of a team under the columns of one field.  A number is exported as it was answered; a
switch or a segment as `1` or `0`. -/
def fieldCells (schema : Schema) (team : Team) (field : Field) : List String :=
  match field with
  | .label _ | .space => []
  | .textField format inputs =>
      if format.isNumeric then inputs.keys.head?.toList.map team.answer else []
  | .stepper inputs | .slider inputs => inputs.keys.head?.toList.map team.answer
  | .switch _ | .segmented _ => field.columns.map (schema.boundCell team)

/-- The cells of a team under `columns`. -/
def cells (schema : Schema) (team : Team) : List String :=
  schema.fields.flatMap (schema.fieldCells team)

/-- Whether an identifier names a key or a column of some field. -/
def knows (schema : Schema) (identifier : String) : Bool :=
  let normal := normalizeKey identifier
  (schema.binding? normal).isSome || schema.fields.any fun f =>
    f.columns.contains normal || f.keys.any fun key => normalizeKey key == normal

/-- The binding of a word of a formula, whose letter case does not matter. -/
def wordBinding? (schema : Schema) (word : String) : Option Binding :=
  schema.binding? (Text.lower word)

/-- Whether formulas replace the identifier by an answer. -/
def binds (schema : Schema) (identifier : String) : Bool :=
  (schema.wordBinding? identifier).isSome

end Schema

end Scorecard
