import Scorecard.Formula.Operation
import Scorecard.Number.Elementary
import Scorecard.Text.Case
import Scorecard.Text.Utf8

/-!
# Functions

The functions that a formula can call, each under its name.  A function takes one value; several
arguments are the items of a tuple.  The tables group them by what they work on: numbers, groups of
values, texts, and the bits of integers.
-/

namespace Scorecard.Formula

open Number (ofInt)

/-- A function: its result, or why there is none. -/
abbrev Function := Value → Except EvalError Value

namespace Value

/-- The integer of a value; anything else is refused. -/
def toInt : Value → Except EvalError Int
  | int n => .ok n
  | v => .error (.expected (.kind .int) v)

/-- The items of a tuple; anything else is refused. -/
def toItems : Value → Except EvalError (List Value)
  | tuple items => .ok items
  | v => .error (.expected (.kind .tuple) v)

/-- The items of a pair; anything else is refused. -/
def toPair (v : Value) : Except EvalError (Value × Value) := do
  match ← v.toItems with
  | [a, b] => return (a, b)
  | _ => .error (.expected (.tupleOf 2) v)

/-- Refuses an empty value or a tuple. -/
def checkSingle : Value → Except EvalError Unit
  | string _ | int _ | float _ | boolean _ => .ok ()
  | v => .error (.expected (.oneOf [.string, .int, .float, .boolean]) v)

end Value

/-! ## Numbers -/

/-- A function of one double. -/
def onNumber (f : Float → Float) : Function := fun v => v.toNumber.map fun x => .float (f x)

/-- A function of two doubles. -/
def onNumbers (f : Float → Float → Float) : Function := fun v => do
  let (a, b) ← v.toPair
  let x ← a.toNumber
  let y ← b.toNumber
  return .float (f x y)

/-- A question about a double. -/
def askNumber (p : Float → Bool) : Function := fun v => v.toNumber.map fun x => .boolean (p x)

/-- The absolute value of a number; the least integer has none and is kept. -/
def absolute : Function
  | .int n => .ok (.int (if Number.fitsInt64 n.natAbs then n.natAbs else n))
  | v => v.toNumber.map fun x => .float x.abs

/-- Whether a double is finite and its mantissa has all its bits. -/
def isNormal (x : Float) : Bool := x.isFinite && Nat.pow 2 52 ≤ (Number.magnitude x).mantissa

/-- The functions of numbers. -/
def numberFunctions : List (String × Function) := [
  ("floor", onNumber Number.floor),
  ("ceil", onNumber Number.ceiling),
  ("round", onNumber Number.round),
  ("math::abs", absolute),
  ("math::sqrt", onNumber Float.sqrt),
  ("math::cbrt", onNumber Float.cbrt),
  ("math::hypot", onNumbers Number.hypotenuse),
  ("math::pow", onNumbers Float.pow),
  ("math::exp", onNumber Float.exp),
  ("math::exp2", onNumber Float.exp2),
  ("math::ln", onNumber Float.log),
  ("math::log", onNumbers Number.logarithm),
  ("math::log2", onNumber Float.log2),
  ("math::log10", onNumber Float.log10),
  ("math::sin", onNumber Float.sin),
  ("math::cos", onNumber Float.cos),
  ("math::tan", onNumber Float.tan),
  ("math::asin", onNumber Float.asin),
  ("math::acos", onNumber Float.acos),
  ("math::atan", onNumber Float.atan),
  ("math::atan2", onNumbers Float.atan2),
  ("math::sinh", onNumber Float.sinh),
  ("math::cosh", onNumber Float.cosh),
  ("math::tanh", onNumber Float.tanh),
  ("math::asinh", onNumber Float.asinh),
  ("math::acosh", onNumber Number.arcosh),
  ("math::atanh", onNumber Float.atanh),
  ("math::is_nan", askNumber Float.isNaN),
  ("math::is_finite", askNumber Float.isFinite),
  ("math::is_infinite", askNumber Float.isInf),
  ("math::is_normal", askNumber isNormal)]

/-! ## Groups of values -/

/-- The extreme integer and the extreme double among some numbers, each from its own start. -/
def extremes (pickInt : Int → Int → Int) (pickFloat : Float → Float → Float) (start : Int × Float)
    (items : List Value) : Except EvalError (Int × Float) :=
  items.foldlM (fun (n, x) item =>
    match item with
    | .int m => .ok (pickInt n m, x)
    | .float y => .ok (n, pickFloat x y)
    | v => .error (.expected .number v)) start

/-- The least of some numbers.  Integers and doubles are compared apart first. -/
def minimum (items : List Value) : Except EvalError Value := do
  let (n, x) ← extremes min (fun x y => if y < x then y else x)
    (0x7FFFFFFFFFFFFFFF, Number.infinity) items
  return if ofInt n < x then .int n else .float x

/-- The greatest of some numbers.  Integers and doubles are compared apart first. -/
def maximum (items : List Value) : Except EvalError Value := do
  let (n, x) ← extremes max (fun x y => if x < y then y else x)
    (-0x8000000000000000, -Number.infinity) items
  return if x < ofInt n then .int n else .float x

/-- The second or third item of a triple, as its first says. -/
def conditional : Function := fun v => do
  match ← v.toItems with
  | [condition, yes, no] => return if ← condition.toBoolean then yes else no
  | _ => .error (.expected (.tupleOf 3) v)

/-- Whether the first item of a pair, a tuple, holds the second. -/
def contains : Function := fun v => do
  let (items, wanted) ← v.toPair
  let items ← items.toItems
  wanted.checkSingle
  return .boolean (items.any wanted.same)

/-- Whether the first item of a pair, a tuple, holds one of the items of the second. -/
def containsAny : Function := fun v => do
  let (items, wanted) ← v.toPair
  let items ← items.toItems
  let wanted ← wanted.toItems
  wanted.forM Value.checkSingle
  return .boolean (wanted.any fun w => items.any w.same)

/-- The number of bytes of a text or of items of a tuple. -/
def size : Function
  | .string s => .ok (.int s.utf8ByteSize)
  | .tuple items => .ok (.int items.length)
  | v => .error (.expected (.oneOf [.string, .tuple]) v)

/-- The functions of tuples and of values of any kind. -/
def valueFunctions : List (String × Function) := [
  ("min", fun v => v.toItems.bind minimum),
  ("max", fun v => v.toItems.bind maximum),
  ("if", conditional),
  ("contains", contains),
  ("contains_any", containsAny),
  ("len", size),
  ("typeof", fun v => .ok (.string (String.ofList (Text.asciiLowered v.kind.name.toList))))]

/-! ## Texts -/

/-- A function of a text. -/
def onText (f : String → String) : Function := fun v => v.toText.map fun s => .string (f s)

/-- A place in a text; a negative one is out of bounds. -/
def toPlace (v : Value) : Except EvalError Nat := do
  let n ← v.toInt
  if n < 0 then .error .outOfBounds else return n.toNat

/-- The part of a text from one place up to another, or up to its end. -/
def substring : Function := fun v => do
  let (subject, start, stop?) ←
    match ← v.toItems with
    | [subject, start] => pure (subject, start, none)
    | [subject, start, stop] => pure (subject, start, some stop)
    | _ => .error (.expected (.tupleBetween 2 3) v)
  let subject ← subject.toText
  let start ← toPlace start
  let stop ← match stop? with
    | some stop => toPlace stop
    | none => pure subject.utf8ByteSize
  if stop < start ∨ subject.utf8ByteSize < stop then .error .outOfBounds
  else return .string (Text.sliceBytes start stop subject)

/-- The functions of texts. -/
def textFunctions : List (String × Function) := [
  ("str::to_lowercase", onText Text.lower),
  ("str::to_uppercase", onText Text.upper),
  ("str::trim", onText Text.trim),
  ("str::from", fun v => .ok (.string v.text)),
  ("str::substring", substring)]

/-! ## Bits -/

/-- The bits of an integer. -/
def bits (n : Int) : BitVec 64 := BitVec.ofInt 64 n

/-- A function of the bits of two integers. -/
def onBits (f : BitVec 64 → BitVec 64 → BitVec 64) : Function := fun v => do
  let (a, b) ← v.toPair
  let m ← a.toInt
  let n ← b.toInt
  return .int (f (bits m) (bits n)).toInt

/-- The functions of the bits of integers.  A shift is by the six last bits of its distance, and a
shift to the right keeps the sign. -/
def bitFunctions : List (String × Function) := [
  ("bitand", onBits fun a b => a &&& b),
  ("bitor", onBits fun a b => a ||| b),
  ("bitxor", onBits fun a b => a ^^^ b),
  ("bitnot", fun v => v.toInt.map fun n => .int (~~~bits n).toInt),
  ("shl", onBits fun a b => a <<< (b.toNat % 64)),
  ("shr", onBits fun a b => a.sshiftRight (b.toNat % 64))]

/-! ## All of them -/

/-- The functions under their names. -/
def functions : List (String × Function) :=
  numberFunctions ++ valueFunctions ++ textFunctions ++ bitFunctions

/-- The function of a name. -/
def function? (name : String) : Option Function := functions.lookup name

end Scorecard.Formula
