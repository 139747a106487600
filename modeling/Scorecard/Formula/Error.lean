import Scorecard.Formula.Value

/-!
# Why a formula has no value

The causes, in the order of the stages that find them: the characters, the lexemes, the shape of
the expression, and the values.  `EvalError.message` is the only place that words them.
-/

namespace Scorecard.Formula

/-- The operations on two values. -/
inductive Binary where
  | add | sub | mul | div | mod | exp
  | eq | neq | gt | lt | geq | leq
  | and | or
  deriving DecidableEq, Repr

/-- What an operation or function asks of a value. -/
inductive Expectation where
  | number
  | numberOrString
  | tupleOf (length : Nat)
  | tupleBetween (least most : Nat)
  | kind (kind : Kind)
  | oneOf (kinds : List Kind)
  deriving DecidableEq, Repr

/-- Why a formula has no value. -/
inductive EvalError where
  | illegalEscape (escaped : Option Char)
  | unmatchedQuote
  | unmatchedComment
  | incomplete (mark : Char) (following : Option String)
  | unmatchedOpening
  | unmatchedClosing
  | appendedToLeaf
  | precedenceViolation
  | missingOperator
  | argumentCount (wanted given : Nat)
  | expected (what : Expectation) (actual : Value)
  | mixedKinds (kinds : List Kind)
  | overflow (operation : Binary) (left right : Int)
  | negationOverflow (operand : Int)
  | unboundVariable (name : String)
  | unboundFunction (name : String)
  | outOfBounds

/-- What a failed operation on integers was doing, and its sign. -/
def Binary.overflowWords : Binary → String × String
  | .add => ("adding", "+")
  | .sub => ("subtracting", "-")
  | .mul => ("multiplying", "*")
  | .div => ("dividing", "/")
  | _ => ("modulating", "%")

/-- The kinds of value that meet an expectation. -/
def Expectation.words : Expectation → String
  | .number => "a Value::Float or Value::Int"
  | .numberOrString => "a Value::Number or a Value::String"
  | .tupleOf length => "a Value::Tuple of length " ++ toString length
  | .tupleBetween least most =>
      "a Value::Tuple of length " ++ toString least ++ " to " ++ toString most
  | .kind k => "a Value::" ++ k.name
  | .oneOf kinds => "one of [" ++ ", ".intercalate (kinds.map Kind.name) ++ "]"

/-- An integer in decimal. -/
def intString (n : Int) : String := String.ofList (Number.intText n)

/-- The wording of an error. -/
def EvalError.message : EvalError → String
  | illegalEscape escaped => "Illegal escape sequence: \\" ++ String.ofList escaped.toList
  | unmatchedQuote => "Found an unmatched double quote '\"'"
  | unmatchedComment => "Error: unmatched inline comment"
  | incomplete mark (some following) => "Found a partial token '" ++ mark.toString ++
      "' that should not be followed by '" ++ following ++ "'."
  | incomplete mark none => "Found a partial token '" ++ mark.toString ++
      "' that should be followed by another partial token."
  | unmatchedOpening => "Found an unmatched opening parenthesis '('."
  | unmatchedClosing => "Found an unmatched closing parenthesis ')'."
  | appendedToLeaf => "Tried to append a node to a leaf node."
  | precedenceViolation => "Tried to append a node to another node with higher precedence."
  | missingOperator => "Found an opening parenthesis that is preceded by something that does not " ++
      "take any arguments on the right, or found a closing parenthesis that is succeeded by " ++
      "something that does not take any arguments on the left."
  | argumentCount wanted given => "An operator expected " ++ toString wanted ++
      " arguments, but got " ++ toString given ++ "."
  | expected what actual => "Expected " ++ what.words ++ ", but got " ++ actual.shown ++ "."
  | mixedKinds kinds => "The operator Add was called with a wrong combination of types: [" ++
      ", ".intercalate (kinds.map Kind.name) ++ "]"
  | overflow operation left right => "Error " ++ operation.overflowWords.1 ++ " " ++
      intString left ++ " " ++ operation.overflowWords.2 ++ " " ++ intString right
  | negationOverflow operand => "Error negating -" ++ intString operand
  | unboundVariable name =>
      "Variable identifier is not bound to anything by context: " ++ Text.quoted name ++ "."
  | unboundFunction name =>
      "Function identifier is not bound to anything by context: " ++ Text.quoted name ++ "."
  | outOfBounds => "Tried to access a tuple or string at an invalid index."

end Scorecard.Formula
