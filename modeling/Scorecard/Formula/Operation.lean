import Scorecard.Formula.Tree
import Scorecard.Number.Arithmetic

/-!
# Operations on values

What each operator computes from its operands, and which operands it refuses.
Integers stay integers as long as a result fits in 64 bits; a double on either side makes the
operation one on doubles.
-/

namespace Scorecard.Formula

open Number (ofInt)

namespace Value

/-- The number of a value; anything else is refused. -/
def toNumber (v : Value) : Except EvalError Float :=
  match v.number? with
  | some x => .ok x
  | none => .error (.expected .number v)

/-- Refuses a value that is neither a number nor a text. -/
def checkNumberOrString : Value → Except EvalError Unit
  | float _ | int _ | string _ => .ok ()
  | v => .error (.expected .numberOrString v)

/-- The truth value of a value; anything else is refused. -/
def toBoolean : Value → Except EvalError Bool
  | boolean b => .ok b
  | v => .error (.expected (.kind .boolean) v)

/-- The text of a value; anything else is refused. -/
def toText : Value → Except EvalError String
  | string s => .ok s
  | v => .error (.expected (.kind .string) v)

end Value

/-- An integer result, refused when it does not fit. -/
def checkedInt (operation : Binary) (a b : Int) (result : Option Int) : Except EvalError Value :=
  match result.filter Number.fitsInt64 with
  | some n => .ok (.int n)
  | none => .error (.overflow operation a b)

/-- The exact result of an arithmetic operation on integers, if there is one. -/
def Binary.onInts (operation : Binary) (a b : Int) : Option Int :=
  match operation with
  | .add => some (a + b)
  | .sub => some (a - b)
  | .mul => some (a * b)
  | .div => if b = 0 then none else some (a.tdiv b)
  | _ =>
      if b = 0 ∨ ¬ Number.fitsInt64 (a.tdiv b) then none else some (a.tmod b)

/-- The result of an arithmetic operation on doubles. -/
def Binary.onFloats (operation : Binary) (a b : Float) : Float :=
  match operation with
  | .add => a + b
  | .sub => a - b
  | .mul => a * b
  | .div => a / b
  | .exp => a.pow b
  | _ => Number.remainder a b

/-- Whether a comparison holds of two values of one type. -/
def Binary.compare {α : Type} (less : α → α → Bool) (lessEq : α → α → Bool) (operation : Binary)
    (a b : α) : Bool :=
  match operation with
  | .gt => less b a
  | .lt => less a b
  | .geq => lessEq b a
  | _ => lessEq a b

/-- An arithmetic operation on two values that are known to be numbers or texts. -/
def arithmetic (operation : Binary) (a b : Value) : Except EvalError Value := do
  match a, b with
  | .int m, .int n =>
      if operation = .exp then return .float (operation.onFloats (ofInt m) (ofInt n))
      else checkedInt operation m n (operation.onInts m n)
  | a, b =>
      let x ← a.toNumber
      let y ← b.toNumber
      return .float (operation.onFloats x y)

/-- A sum of numbers or a concatenation of texts. -/
def addition (a b : Value) : Except EvalError Value := do
  a.checkNumberOrString
  b.checkNumberOrString
  match a, b with
  | .string s, .string t => return .string (s ++ t)
  | a, b =>
      if a.number?.isSome && b.number?.isSome then arithmetic .add a b
      else .error (.mixedKinds [a.kind, b.kind])

/-- A comparison of numbers or of texts. -/
def comparison (operation : Binary) (a b : Value) : Except EvalError Value := do
  a.checkNumberOrString
  b.checkNumberOrString
  match a, b with
  | .string s, .string t =>
      return .boolean (operation.compare (fun s t => s < t) (fun s t => s ≤ t) s t)
  | .int m, .int n =>
      return .boolean (operation.compare (fun m n => m < n) (fun m n => m ≤ n) m n)
  | a, b =>
      let x ← a.toNumber
      let y ← b.toNumber
      return .boolean (operation.compare (fun x y => x < y) (fun x y => x ≤ y) x y)

/-- A logical operation; both operands have to be truth values. -/
def logical (combine : Bool → Bool → Bool) (a b : Value) : Except EvalError Value := do
  let p ← a.toBoolean
  let q ← b.toBoolean
  return .boolean (combine p q)

/-- The result of an operation on two values. -/
def Binary.apply (operation : Binary) (a b : Value) : Except EvalError Value :=
  match operation with
  | .add => addition a b
  | .sub | .mul | .div | .mod | .exp => arithmetic operation a b
  | .eq => .ok (.boolean (a.same b))
  | .neq => .ok (.boolean !(a.same b))
  | .gt | .lt | .geq | .leq => comparison operation a b
  | .and => logical (fun p q => p && q) a b
  | .or => logical (fun p q => p || q) a b

/-- The negative of a number. -/
def negation : Value → Except EvalError Value
  | .int n => if Number.fitsInt64 (-n) then .ok (.int (-n)) else .error (.negationOverflow n)
  | v => v.toNumber.map fun x => .float (-x)

end Scorecard.Formula
