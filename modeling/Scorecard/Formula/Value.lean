import Scorecard.Number.Text
import Scorecard.Text.Quoted

/-!
# Values of formulas

A formula computes with doubles and with 64-bit integers, and in passing with texts, truth values,
tuples and the empty value.  Only the first two can be a score.
-/

namespace Scorecard.Formula

/-- A value of a formula. -/
inductive Value where
  | float (x : Float)
  | int (n : Int)
  | string (s : String)
  | boolean (b : Bool)
  | tuple (items : List Value)
  | empty
  deriving Inhabited

/-- The kind of a value. -/
inductive Kind where
  | float
  | int
  | string
  | boolean
  | tuple
  | empty
  deriving DecidableEq, Repr

/-- The kind's name. -/
def Kind.name : Kind → String
  | float => "Float"
  | int => "Int"
  | string => "String"
  | boolean => "Boolean"
  | tuple => "Tuple"
  | empty => "Empty"

/-- The kind of a value. -/
def Value.kind : Value → Kind
  | float _ => .float
  | int _ => .int
  | string _ => .string
  | boolean _ => .boolean
  | tuple _ => .tuple
  | empty => .empty

mutual

/-- How a message shows a value. -/
def Value.shown : Value → String
  | .float x => "Float(" ++ String.ofList (Number.Style.message.text x) ++ ")"
  | .int n => "Int(" ++ String.ofList (Number.intText n) ++ ")"
  | .string s => "String(" ++ Text.quoted s ++ ")"
  | .boolean b => "Boolean(" ++ (if b then "true" else "false") ++ ")"
  | .tuple items => "Tuple([" ++ ", ".intercalate (shownAll items) ++ "])"
  | .empty => "Empty"

/-- How a message shows each of several values. -/
def shownAll : List Value → List String
  | [] => []
  | v :: vs => v.shown :: shownAll vs

end

mutual

/-- A value as a text. -/
def Value.text : Value → String
  | .float x => Number.scoreText x
  | .int n => String.ofList (Number.intText n)
  | .string s => "\"" ++ s ++ "\""
  | .boolean b => if b then "true" else "false"
  | .tuple items => "(" ++ ", ".intercalate (textAll items) ++ ")"
  | .empty => "()"

/-- Each of several values as a text. -/
def textAll : List Value → List String
  | [] => []
  | v :: vs => v.text :: textAll vs

end

mutual

/-- Whether two values are the same: equal kinds and equal contents. -/
def Value.same : Value → Value → Bool
  | .float x, .float y => x == y
  | .int m, .int n => m == n
  | .string s, .string t => s == t
  | .boolean a, .boolean b => a == b
  | .tuple xs, .tuple ys => sameAll xs ys
  | .empty, .empty => true
  | _, _ => false

/-- Whether two lists hold the same values in the same order. -/
def sameAll : List Value → List Value → Bool
  | [], [] => true
  | x :: xs, y :: ys => x.same y && sameAll xs ys
  | _, _ => false

end

/-- The number that an integer or a double stands for. -/
def Value.number? : Value → Option Float
  | .float x => some x
  | .int n => some (Number.ofInt n)
  | _ => none

end Scorecard.Formula
