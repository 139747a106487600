import Scorecard.Problem
import Scorecard.Text.Split

/-!
# Fields

A field line is `TYPE<arguments> ;; descriptions ;; keys`.  The arguments are optional and may stand
anywhere in the first segment; arguments, descriptions and keys are comma-separated lists whose
blank items are dropped.  A space has no further segment, a label one, and every other kind at
least two; what follows them is ignored.
-/

namespace Scorecard

/-- How the answer to a text field is meant. -/
inductive TextFormat where
  | number
  | decimal
  | text
  deriving DecidableEq, Repr

namespace TextFormat

/-- The format that the first argument of a text field asks for. -/
def ofArgument? (argument : Option String) : TextFormat :=
  match argument with
  | some name =>
      if Text.sameIgnoringAsciiCase name "number" then number
      else if Text.sameIgnoringAsciiCase name "decimal" then decimal
      else text
  | none => text

/-- Whether answers of this format are exported as a column. -/
def isNumeric : TextFormat → Bool
  | number | decimal => true
  | text => false

end TextFormat

/-- The lists on the line of a field that has keys. -/
structure Inputs where
  /-- The items in angle brackets, such as the segments of a segmented control. -/
  arguments : List String
  /-- What the form shows, one item for each key. -/
  descriptions : List String
  /-- The keys under which the answers are stored. -/
  keys : List String
  deriving DecidableEq, Repr

/-- An element of the form, with what its kind allows. -/
inductive Field where
  | label (text : String)
  | space
  | textField (format : TextFormat) (inputs : Inputs)
  | stepper (inputs : Inputs)
  | switch (inputs : Inputs)
  | slider (inputs : Inputs)
  | segmented (inputs : Inputs)
  deriving DecidableEq, Repr

namespace Field

/-- The kind of the field. -/
def type : Field → FieldType
  | label _ => .label
  | space => .space
  | textField _ _ => .textField
  | stepper _ => .stepper
  | switch _ => .switch
  | slider _ => .slider
  | segmented _ => .segmented

/-- The lists of a field that has keys. -/
def inputs? : Field → Option Inputs
  | label _ | space => none
  | textField _ inputs | stepper inputs | switch inputs | slider inputs | segmented inputs =>
      some inputs

/-- The items in angle brackets. -/
def arguments (f : Field) : List String := f.inputs?.elim [] Inputs.arguments

/-- What the form shows.  The text of a label is its only description. -/
def descriptions : Field → List String
  | label text => [text]
  | f => f.inputs?.elim [] Inputs.descriptions

/-- The keys under which the answers are stored. -/
def keys (f : Field) : List String := f.inputs?.elim [] Inputs.keys

end Field

/-- The label in the first segment of a line, and the arguments in its first pair of angle
brackets.  A bracket that is not closed belongs to the label. -/
def splitArguments (segment : List Char) : String × List String :=
  match Text.cut ['<'] segment with
  | none => (String.ofList (Text.trimmed segment), [])
  | some (before, afterOpening) =>
      match Text.cut ['>'] afterOpening with
      | none => (String.ofList (Text.trimmed segment), [])
      | some (inside, after) => (String.ofList (Text.trimmed (before ++ after)), Text.items inside)

/-- The lists of a field with keys, from the segments after the first. -/
def Inputs.ofSegments (arguments : List String) : List (List Char) → Except LineFault Inputs
  | [] => .error .noDescription
  | [_] => .error .noKeys
  | descriptions :: keys :: _ =>
      if Text.items keys = [] then .error .emptyKeys
      else .ok ⟨arguments, Text.items descriptions, Text.items keys⟩

namespace Field

/-- The field of a kind with the given arguments and segments after the first. -/
def ofSegments (type : FieldType) (arguments : List String) (rest : List (List Char)) :
    Except LineFault Field :=
  match type with
  | .space => .ok space
  | .label =>
      match rest with
      | [] => .error .noDescription
      | text :: _ => .ok (label (String.ofList (Text.trimmed text)))
  | .textField =>
      (Inputs.ofSegments arguments rest).map (textField (.ofArgument? arguments.head?))
  | .stepper => (Inputs.ofSegments arguments rest).map stepper
  | .switch => (Inputs.ofSegments arguments rest).map switch
  | .slider => (Inputs.ofSegments arguments rest).map slider
  | .segmented => (Inputs.ofSegments arguments rest).map segmented

/-- Reads a field line. -/
def parse (line : List Char) : Except Problem Field :=
  let segments := Text.segments line
  let (typeLabel, arguments) := splitArguments (segments.headD [])
  match FieldType.ofLabel? typeLabel with
  | none => .error (.unknownType typeLabel)
  | some type =>
      match ofSegments type arguments segments.tail with
      | .error fault => .error (.malformedLine type fault)
      | .ok field => .ok field

end Field

end Scorecard
