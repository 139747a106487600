import Scorecard.Form.Field

/-!
# Column keys

Answers are stored, and formulas name them, under normalized keys: backslashes, slashes and spaces
become underscores, letters become lower case, and blanks at the ends are dropped.  `Field.columns`
derives the columns of the report from a field.
-/

namespace Scorecard

/-- Backslash, slash and space become an underscore. -/
def joiner (c : Char) : Char := if c = '\\' ∨ c = '/' ∨ c = ' ' then '_' else c

/-- The normal form of a key. -/
def normalizeKey (raw : String) : String :=
  String.ofList (Text.trimmed (Text.lowered (raw.toList.map joiner)))

/-- The column of one segment of a segmented control. -/
def segmentColumn (key segment : String) : String := normalizeKey (key ++ "_" ++ Text.trim segment)

/-- The column of the answer yes to a switch. -/
def yesColumn (key : String) : String := normalizeKey (key ++ "_yes")

/-- The column of the answer no to a switch. -/
def noColumn (key : String) : String := normalizeKey (key ++ "_no")

/-- The columns that a field adds to a report.  A numeric text field, a stepper and a slider have
one, for the first key; a switch has two for each key; a segmented control has one for each segment,
under the first key. -/
def Field.columns : Field → List String
  | .label _ | .space => []
  | .textField format inputs =>
      if format.isNumeric then inputs.keys.head?.toList.map normalizeKey else []
  | .stepper inputs | .slider inputs => inputs.keys.head?.toList.map normalizeKey
  | .switch inputs => inputs.keys.flatMap fun key => [yesColumn key, noColumn key]
  | .segmented inputs =>
      inputs.keys.head?.toList.flatMap fun key => inputs.arguments.map (segmentColumn key)

end Scorecard
