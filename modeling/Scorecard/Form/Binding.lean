import Scorecard.Form.Column
import Scorecard.Number.Text

/-!
# Teams and bindings

A team is its number and its answers as they were recorded.  A missing answer and an empty one are
the same to everything that reads answers through `Team.answer`.

A binding says which answer an identifier of a formula stands for and how that answer is read.
`Binding.resolve` yields the text that replaces the identifier.  It is a numeral, in parentheses if
it is negative, so it stays one operand wherever it is put.

`BindingTable.ofFields` is the table of a form: it is filled field by field, and an identifier that
is bound keeps its binding.
-/

namespace Scorecard

/-! ## Teams -/

/-- A team's record. -/
structure Team where
  number : String
  /-- Keys and answers; the first entry of a key counts. -/
  answers : List (String × String)
  deriving DecidableEq, Repr

/-- The answer stored under exactly this key. -/
def Team.get? (team : Team) (key : String) : Option String := team.answers.lookup key

/-- The answer under the key as written, else under its normal form, else the empty text. -/
def Team.answer (team : Team) (key : String) : String :=
  match team.get? key with
  | some answer => answer
  | none => (team.get? (normalizeKey key)).getD ""

/-! ## Bindings -/

/-- How an answer becomes a number. -/
inductive Reading where
  /-- A finite decimal number. -/
  | decimal
  /-- A whole number of 64 bits. -/
  | integer
  /-- `1` for the answer yes. -/
  | yes
  /-- `1` for the answer no. -/
  | no
  /-- The place of the selected segment, counted from one; `0` if none is selected. -/
  | position (segments : List String)
  /-- `1` if this segment is selected. -/
  | selected (segment : String)
  deriving DecidableEq, Repr

/-- The key of an answer, and how it is read. -/
structure Binding where
  key : String
  reading : Reading
  deriving DecidableEq, Repr

/-- A numeral as an operand: a negative one stands in parentheses. -/
def operand (numeral : List Char) : String :=
  if numeral.head? = some '-' then String.ofList ('(' :: numeral ++ [')']) else String.ofList numeral

/-- Whether an answer, if there is one, is the expected one.  Blanks at the ends and letter case do
not matter. -/
def isAnswer (raw expected : String) : Bool :=
  let given := Text.trimmed raw.toList
  given ≠ [] && Text.lowered given == Text.lowered (Text.trimmed expected.toList)

/-- `1` or `0`. -/
def flag (on : Bool) : String := if on then "1" else "0"

/-- The operand that an answer stands for, unless it is not numeric where it should be. -/
def Reading.operand? (reading : Reading) (raw : String) : Option String :=
  match reading with
  | decimal =>
      ((Number.readFloat (Text.trimmed raw.toList)).filter Float.isFinite).map fun x =>
        operand (Number.Style.score.text x)
  | integer => (Number.readInt64 (Text.trimmed raw.toList)).map fun n => operand (Number.intText n)
  | yes => some (flag (isAnswer raw "yes"))
  | no => some (flag (isAnswer raw "no"))
  | position segments =>
      some (String.ofList (Number.natDigits
        ((segments.findIdx? (isAnswer raw)).elim 0 (· + 1))))
  | selected segment => some (flag (isAnswer raw segment))

/-- The operand that replaces the identifier for a team.  An answer that is not numeric where it
should be counts as `0` and is reported. -/
def Binding.resolve (b : Binding) (team : Team) : String × Option BadAnswer :=
  match b.reading.operand? (team.answer b.key) with
  | some text => (text, none)
  | none => ("0", some ⟨b.key, team.answer b.key⟩)

/-! ## Tables -/

/-- Identifiers with their bindings, the oldest first. -/
abbrev BindingTable : Type := List (String × Binding)

/-- The table with an identifier bound, unless it is bound already. -/
def BindingTable.insertIfNew (table : BindingTable) (identifier : String) (b : Binding) :
    BindingTable :=
  if (table.lookup identifier).isSome then table else table ++ [(identifier, b)]

/-- Binds the identifiers that a field offers to formulas.  The answer to a slider cannot be
named. -/
def Field.bindInto (field : Field) (table : BindingTable) : BindingTable := Id.run do
  let mut table := table
  match field with
  | .textField _ inputs =>
      for key in inputs.keys do
        table := table.insertIfNew (normalizeKey key) ⟨key, .decimal⟩
  | .stepper inputs =>
      for key in inputs.keys do
        table := table.insertIfNew (normalizeKey key) ⟨key, .integer⟩
  | .switch inputs =>
      for key in inputs.keys do
        table := table.insertIfNew (normalizeKey key) ⟨key, .yes⟩
        table := table.insertIfNew (yesColumn key) ⟨key, .yes⟩
        table := table.insertIfNew (noColumn key) ⟨key, .no⟩
  | .segmented inputs =>
      for key in inputs.keys do
        table := table.insertIfNew (normalizeKey key) ⟨key, .position inputs.arguments⟩
      if let some key := inputs.keys.head? then
        for segment in inputs.arguments do
          table := table.insertIfNew (segmentColumn key segment) ⟨key, .selected segment⟩
  | .slider _ | .label _ | .space => pure ()
  return table

/-- The table of the identifiers that fields offer.  The earlier field wins. -/
def BindingTable.ofFields (fields : List Field) : BindingTable := Id.run do
  let mut table := []
  for field in fields do
    table := field.bindInto table
  return table

end Scorecard
