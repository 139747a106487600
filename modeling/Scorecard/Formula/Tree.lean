import Scorecard.Formula.Lexeme

/-!
# Expression trees

Lexemes become a tree one by one.  A stack holds the open parentheses and the open sequences; each
new operator is put where its precedence allows, below the last operands of the tree on top.
Parentheses are nodes of their own, with the operator `root`.
-/

namespace Scorecard.Formula

/-- What a node of an expression does with its operands. -/
inductive Operator where
  | root
  | binary (operation : Binary)
  | neg
  | not
  | assign
  | assignWith (operation : Binary)
  | tuple
  | chain
  | constant (value : Value)
  | write (name : String)
  | read (name : String)
  | call (name : String)

/-- A binary operation with the greater number takes its operands first. -/
def Binary.precedence : Binary → Nat
  | .exp => 120
  | .mul | .div | .mod => 100
  | .add | .sub => 95
  | .eq | .neq | .gt | .lt | .geq | .leq => 80
  | .and => 75
  | .or => 70

namespace Operator

/-- The operator with the greater number takes its operands first. -/
def precedence : Operator → Nat
  | root | constant _ | write _ | read _ => 200
  | call _ => 190
  | neg | not => 110
  | binary operation => operation.precedence
  | assign | assignWith _ => 50
  | tuple => 40
  | chain => 0

/-- The count of operands an operator takes, if it is limited. -/
def arity? : Operator → Option Nat
  | constant _ | write _ | read _ => some 0
  | root | neg | not | call _ => some 1
  | binary _ | assign | assignWith _ => some 2
  | tuple | chain => none

/-- Whether the operator is a pair of parentheses or the whole expression. -/
def isRoot : Operator → Bool
  | root => true
  | _ => false

/-- Whether the operator takes no operand. -/
def isLeaf (op : Operator) : Bool := op.arity? == some 0

/-- Whether the operator stands before its only operand. -/
def isUnary (op : Operator) : Bool := op.arity? == some 1 && !op.isRoot

/-- Whether the operator takes any number of operands. -/
def isSequence (op : Operator) : Bool := op.arity? == none

/-- Whether two sequence operators are the same. -/
def sameSequence : Operator → Operator → Bool
  | tuple, tuple => true
  | chain, chain => true
  | _, _ => false

/-- Whether operators in a row group from the right. -/
def groupsRight : Operator → Bool
  | assign | call _ => true
  | _ => false

/-- Whether `inner` may take its operands from below `outer`. -/
def yieldsTo (outer inner : Operator) : Bool :=
  outer.precedence < inner.precedence || inner.isUnary ||
    (outer.precedence == inner.precedence && outer.groupsRight && inner.groupsRight)

end Operator

/-- A node of an expression.  Its operands are kept in reverse, the last one first. -/
inductive Node where
  | mk (operator : Operator) (operands : List Node)

namespace Node

/-- The node's operator. -/
def operator : Node → Operator
  | mk op _ => op

/-- The node's operands, the last one first. -/
def operands : Node → List Node
  | mk _ operands => operands

/-- A pair of parentheses with nothing inside yet. -/
def group : Node := mk .root []

/-- The node with one more operand after the others. -/
def append (parent operand : Node) : Node := mk parent.operator (operand :: parent.operands)

/-- The tree with `node` put behind its last operands, at the depth that precedence asks for. -/
def insert (node : Node) (atRoot : Bool) : Node → Except EvalError Node
  | mk op operands =>
      if !(op.yieldsTo node.operator || atRoot) then .error .precedenceViolation
      else if op.isLeaf then .error .appendedToLeaf
      else match operands with
        | [] => .ok (mk op [node])
        | last :: rest =>
            if op.arity? ≠ some (rest.length + 1) then .ok (mk op (node :: last :: rest))
            else if last.operator.yieldsTo node.operator then
              (insert node false last).map fun last => mk op (last :: rest)
            else if node.operator.isLeaf then .error .appendedToLeaf
            else if op.isRoot && (!rest.isEmpty || node.operator.isRoot) then
              .error .missingOperator
            else if node.operator.isRoot && (!node.operands.isEmpty || last.operator.isRoot) then
              .error .missingOperator
            else .ok (mk op (node.append last :: rest))

end Node

/-- Closes the sequences on the stack that a new sequence operator does not belong to.  The result
is the tree they make and the rest of the stack. -/
def collapseTo (goal : Operator) (top : Node) : List Node → Except EvalError (Node × List Node)
  | [] => .error .unmatchedClosing
  | above :: stack =>
      if goal.precedence < above.operator.precedence then
        collapseTo goal (above.append top) stack
      else .ok (top, above :: stack)

/-- Closes the sequences above the innermost open parenthesis, from `top` down the stack. -/
def collapseFrom (top : Node) : List Node → Except EvalError (List Node)
  | [] =>
      if !top.operator.isRoot then .error .unmatchedClosing
      else if 1 < top.operands.length then .error .missingOperator
      else .ok [top]
  | above :: stack =>
      if top.operator.isSequence then collapseFrom (above.append top) stack
      else if top.operator.arity?.any (· < top.operands.length) then .error .missingOperator
      else .ok (top :: above :: stack)

/-- Closes the sequences above the innermost open parenthesis. -/
def collapseAll : List Node → Except EvalError (List Node)
  | [] => .error .unmatchedClosing
  | top :: stack => collapseFrom top stack

/-- Puts a node into the tree on top of the stack. -/
def place (node : Node) : List Node → Except EvalError (List Node)
  | [] => .error .unmatchedClosing
  | top :: stack =>
      if node.operator.isSequence then
        if node.operator.sameSequence top.operator then .ok (top.append .group :: stack)
        else if top.operator.isRoot then
          .ok (((node.append top).append .group) :: .group :: stack)
        else if top.operator.precedence < node.operator.precedence then
          match top.operands with
          | [] => .ok (node :: top :: stack)
          | last :: rest =>
              .ok (((node.append last).append .group) :: .mk top.operator rest :: stack)
        else (collapseTo node.operator top stack).map fun (tree, rest) => node.append tree :: rest
      else if top.operator.isSequence then
        match top.operands with
        | [] => .ok (top :: stack)
        | last :: rest =>
            (Node.insert node true last).map fun last => .mk top.operator (last :: rest) :: stack
      else (Node.insert node true top).map (· :: stack)

/-- Whether a lexeme can begin the argument of the identifier before it. -/
def Lexeme.beginsArgument : Lexeme → Bool
  | opening | identifier _ | constant _ => true
  | _ => false

/-- Whether a lexeme assigns to the identifier before it. -/
def Lexeme.assigns : Lexeme → Bool
  | assign | assignWith _ => true
  | _ => false

/-- Whether a lexeme ends an operand, so that a minus after it subtracts. -/
def Lexeme.endsOperand : Lexeme → Bool
  | closing | identifier _ | constant _ => true
  | _ => false

/-- What an identifier does, given the lexeme after it. -/
def identifierOperator (name : String) (following : Option Lexeme) : Operator :=
  if following.any Lexeme.assigns then .write name
  else if following.any Lexeme.beginsArgument then .call name
  else .read name

/-- The operator of a lexeme other than a parenthesis. -/
def Lexeme.operator? (afterOperand : Bool) (following : Option Lexeme) : Lexeme → Option Operator
  | opening | closing => none
  | operation .sub => some (if afterOperand then .binary .sub else .neg)
  | operation op => some (.binary op)
  | not => some .not
  | comma => some .tuple
  | semicolon => some .chain
  | assign => some .assign
  | assignWith op => some (.assignWith op)
  | constant v => some (.constant v)
  | identifier name => some (identifierOperator name following)

/-- The stack after one more lexeme. -/
def step (afterOperand : Bool) (following : Option Lexeme) (stack : List Node) (l : Lexeme) :
    Except EvalError (List Node) :=
  match l with
  | .opening => .ok (.group :: stack)
  | .closing =>
      if stack.length ≤ 1 then .error .unmatchedClosing
      else (collapseAll stack).bind fun
        | [] => .error .unmatchedClosing
        | node :: rest => place node rest
  | l => match l.operator? afterOperand following with
    | some op => place (.mk op []) stack
    | none => .ok stack

/-- The stack after a row of lexemes. -/
def stepAll (afterOperand : Bool) (stack : List Node) : List Lexeme → Except EvalError (List Node)
  | [] => .ok stack
  | l :: ls => (step afterOperand ls.head? stack l).bind (stepAll l.endsOperand · ls)

/-- The tree of a row of lexemes. -/
def parse (ls : List Lexeme) : Except EvalError Node :=
  (stepAll false [.group] ls).bind fun stack => (collapseAll stack).bind fun
    | [tree] => .ok tree
    | _ => .error .unmatchedOpening

end Scorecard.Formula
