import Scorecard.Formula.Function
import Scorecard.Formula.Token

/-!
# Evaluation

Operands are evaluated from left to right, then the operator is applied; the first error wins.
Assignments inside a formula last until its end.  `evaluate` is the whole way from the text of a
formula to a finite number.
-/

namespace Scorecard.Formula

/-- The variables assigned so far. -/
abbrev Variables := List (String × Value)

/-- A computation that may assign to variables and may fail. -/
abbrev Eval := StateT Variables (Except EvalError)

/-- Assigns a value to a variable, which keeps the kind of its first value. -/
def assignVariable (name : String) (v : Value) : Eval Value := do
  match (← get).lookup name with
  | some old =>
      if old.kind = v.kind then set ((name, v) :: (← get))
      else throw (.expected (.kind old.kind) v)
  | none => set ((name, v) :: (← get))
  return .empty

/-- The value of a variable. -/
def readVariable (name : String) : Eval Value := do
  match (← get).lookup name with
  | some v => return v
  | none => throw (.unboundVariable name)

/-- The result of an operator on the values of its operands, in order. -/
def Operator.apply : Operator → List Value → Eval Value
  | .root, vs => return vs.headD .empty
  | .binary operation, [a, b] => operation.apply a b
  | .neg, [v] => negation v
  | .not, [v] => return .boolean !(← v.toBoolean)
  | .assign, [target, v] => do assignVariable (← target.toText) v
  | .assignWith operation, [target, v] => do
      let name ← target.toText
      let old ← readVariable name
      assignVariable name (← operation.apply old v)
  | .tuple, vs => return .tuple vs
  | .chain, v :: vs => return (v :: vs).getLastD .empty
  | .constant v, [] => return v
  | .write name, [] => return .string name
  | .read name, [] => readVariable name
  | .call name, [v] =>
      match function? name with
      | some f => f v
      | none => throw (.unboundFunction name)
  | op, vs => throw (.argumentCount (op.arity?.getD 1) vs.length)

mutual

/-- The value of an expression. -/
def Node.eval : Node → Eval Value
  | .mk op operands => do op.apply (← evalAll operands).reverse

/-- The values of operands that are given last first, in the same order. -/
def evalAll : List Node → Eval (List Value)
  | [] => return []
  | last :: before => do
      let vs ← evalAll before
      return (← last.eval) :: vs

end

/-- The number that an expression yields. -/
def evaluateNumber (formula : String) : Except EvalError Float := do
  let tree ← parse (← lexemes (← glyphs formula.toList))
  let (v, _) ← tree.eval.run []
  v.toNumber

/-- Why a formula has no score. -/
inductive Failure where
  | invalid (expression : String) (cause : EvalError)
  | notFinite (expression : String)

/-- The finite number that a formula yields. -/
def evaluate (formula : String) : Except Failure Float :=
  match evaluateNumber (fractional formula) with
  | .error e => .error (.invalid formula e)
  | .ok x => if x.isFinite then .ok x else .error (.notFinite formula)

end Scorecard.Formula
