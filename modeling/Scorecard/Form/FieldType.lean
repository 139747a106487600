import Scorecard.Text.Case

/-!
# Kinds of form element

A form is made of seven kinds of element.  The label at the front of a field line names one of
them; `ofLabel?` reads it, and the three predicates say what the rest of the line has to hold.
-/

namespace Scorecard

/-- A kind of form element. -/
inductive FieldType where
  | label
  | space
  | textField
  | stepper
  | switch
  | slider
  | segmented
  deriving DecidableEq, Repr

namespace FieldType

/-- Every kind. -/
def all : List FieldType := [label, space, textField, stepper, switch, slider, segmented]

/-- The label that names the kind. -/
def name : FieldType → String
  | label => "LABEL"
  | space => "SPACE"
  | textField => "TEXTFIELD"
  | stepper => "STEPPER"
  | switch => "SWITCH"
  | slider => "SLIDER"
  | segmented => "SEGMENTED_CONTROL"

/-- The kind that a label names.  Blanks around it and the case of the letters A to Z do not
matter. -/
def ofLabel? (label : String) : Option FieldType :=
  all.find? fun t => Text.sameIgnoringAsciiCase t.name (Text.trim label)

/-- Whether a line of this kind names the keys of its answers. -/
def hasKeys : FieldType → Bool
  | label | space => false
  | _ => true

/-- Whether a line of this kind holds descriptions. -/
def hasDescriptions : FieldType → Bool
  | space => false
  | _ => true

/-- Whether the arguments in angle brackets matter to this kind. -/
def usesArguments : FieldType → Bool
  | textField | segmented => true
  | _ => false

theorem mem_all (t : FieldType) : t ∈ all := by cases t <;> simp [all]

end FieldType

end Scorecard
