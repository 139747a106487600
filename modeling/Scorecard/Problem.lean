import Scorecard.Form.FieldType
import Scorecard.Formula.Evaluation

/-!
# Problems

What can be wrong with a form or with a team's answers.  None of it ends a run: a line that cannot
be read is left out, an answer that is not a number counts as `0`, and a formula that cannot be
evaluated scores `0`.
-/

namespace Scorecard

/-- The message of a failed formula. -/
def Formula.Failure.message : Formula.Failure → String
  | .invalid expression cause => "invalid expression `" ++ expression ++ "`: " ++ cause.message
  | .notFinite expression => "expression `" ++ expression ++ "` did not produce a finite number"

/-- What a field line of a known kind lacks. -/
inductive LineFault where
  | noDescription
  | noKeys
  | emptyKeys
  deriving DecidableEq, Repr

/-- The reason given for the fault. -/
def LineFault.reason : LineFault → String
  | .noDescription => "missing description segment"
  | .noKeys => "missing key segment"
  | .emptyKeys => "key segment is empty"

/-- An answer that is not the number its key asks for, as the team gave it. -/
structure BadAnswer where
  key : String
  raw : String
  deriving DecidableEq, Repr

/-- A problem with a line of the form, with an answer, or with a formula. -/
inductive Problem where
  | unknownType (label : String)
  | malformedLine (type : FieldType) (fault : LineFault)
  | malformedEquation (line : String)
  | notNumeric (answer : BadAnswer)
  | formula (failure : Formula.Failure)

/-- The problem in words. -/
def Problem.message : Problem → String
  | .unknownType label => "field type not recognized: " ++ label
  | .malformedLine type fault => "malformed " ++ type.name ++ " line: " ++ fault.reason
  | .malformedEquation line => "malformed equation (expected `Name = expression`): " ++ line
  | .notNumeric answer => answer.key ++ " does not have a numeric value"
  | .formula failure => failure.message

/-- Whether the problem is one of the form, and not of the answers or of a formula's value. -/
def Problem.concernsForm : Problem → Bool
  | .unknownType _ | .malformedLine _ _ | .malformedEquation _ => true
  | .notNumeric _ | .formula _ => false

end Scorecard
