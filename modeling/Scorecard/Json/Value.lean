import Scorecard.Json.Document
import Scorecard.Number.Text

/-!
# JSON values

A value forgets how its document was written: of several members with one key the last counts, and
members are in the order of their keys.

A numeral without fraction and exponent is an integer if it fits in 64 bits.  The value of any
other numeral is approximate: its digits are taken while they fit in 64 bits, and the result is
multiplied or divided by a power of ten, so it may differ from the nearest double in the last
place.
-/

namespace Scorecard

/-- A JSON value. -/
inductive Json where
  | null
  | bool (b : Bool)
  | int (n : Int)
  | float (x : Float)
  | string (s : String)
  | array (items : List Json)
  | object (members : List (String × Json))

namespace Json

open Number (Numeral)

/-! ## Numbers -/

/-- The digits appended to a significand as long as it stays below `2 ^ 64`, and those left over. -/
def takeDigits (significand : Nat) : List Char → Nat × List Char
  | [] => (significand, [])
  | c :: cs =>
      let longer := 10 * significand + Number.digitValue c
      if longer < Nat.pow 2 64 then takeDigits longer cs else (significand, c :: cs)

/-- The power of ten with an exponent up to 308. -/
def powerOfTen (k : Nat) : Float := Numeral.valueOf false 1 k

/-- The double scaled by a power of ten.  A result beyond the range is no number; below the range it
is zero. -/
def scale? (x : Float) (e : Int) : Option Float :=
  if e < -308 then if x == 0 then some x else scale? (x / powerOfTen 308) (e + 308)
  else if e < 0 then some (x / powerOfTen (-e).toNat)
  else if e ≤ 308 then (some (x * powerOfTen e.toNat)).filter Float.isFinite
  else if x == 0 then some x
  else none
termination_by (-e).toNat
decreasing_by omega

/-- The greatest exponent that is looked at. -/
def exponentBound : Nat := Nat.pow 2 31

/-- The absolute value of a numeral whose digits shrank to a significand times a power of ten. -/
def approximate? (significand : Nat) (scale : Int) (exponent : Option Number.Exponent) :
    Option Float :=
  match exponent with
  | none => scale? (Number.ofInt significand) scale
  | some e =>
      if e.value.natAbs < exponentBound then scale? (Number.ofInt significand) (scale + e.value)
      else if significand = 0 ∨ e.sign = some '-' then some 0
      else none

/-- The value of a numeral under a sign, unless it is beyond the range. -/
def ofNumeral? (negative : Bool) (n : Numeral) : Option Json :=
  let (whole, extra) := takeDigits 0 n.whole
  if extra = [] ∧ n.fraction = none ∧ n.exponent = none ∧
      !(negative && (whole = 0 || Nat.pow 2 63 < whole)) then
    some (.int (if negative then -whole else whole))
  else
    let fraction := n.fraction.getD []
    let (significand, unused) := takeDigits whole fraction
    let scale : Int := extra.length - (fraction.length - unused.length : Nat)
    (approximate? significand scale n.exponent).map fun x => .float (if negative then -x else x)

/-! ## Values -/

/-- The members with one more; the one that was there under the same key gives way. -/
def insertMember (key : String) (v : Json) : List (String × Json) → List (String × Json)
  | [] => [(key, v)]
  | (k, w) :: rest =>
      if key < k then (key, v) :: (k, w) :: rest
      else if key = k then (key, v) :: rest
      else (k, w) :: insertMember key v rest

/-- Members in the order of their keys; of several with one key the last counts. -/
def sortMembers (members : List (String × Json)) : List (String × Json) :=
  members.foldl (fun sorted (k, v) => insertMember k v sorted) []

namespace Document

mutual

/-- The value of a document.  Containers may be nested `depth` deep. -/
def value? (depth : Nat) : Document → Option Json
  | null => some .null
  | bool b => some (.bool b)
  | number negative n => ofNumeral? negative n
  | string units => (textOf? units).map .string
  | array items => if depth = 0 then none else (itemValues? (depth - 1) items).map .array
  | object members =>
      if depth = 0 then none
      else (memberValues? (depth - 1) members).map fun ms => .object (sortMembers ms)

/-- The values of the items of an array. -/
def itemValues? (depth : Nat) : List Document → Option (List Json)
  | [] => some []
  | d :: ds => do
      let v ← value? depth d
      return v :: (← itemValues? depth ds)

/-- The keys and values of the members of an object. -/
def memberValues? (depth : Nat) :
    List (List StringUnit × Document) → Option (List (String × Json))
  | [] => some []
  | (k, d) :: ms => do
      let key ← textOf? k
      let v ← value? depth d
      return (key, v) :: (← memberValues? depth ms)

end

end Document

/-- The greatest depth to which containers may be nested. -/
def depthBound : Nat := 127

/-- The value of a text. -/
def parse (cs : List Char) : Option Json := (Document.parse cs).bind (·.value? depthBound)

/-- The text of a number, which is how it stands as an answer. -/
def floatText (x : Float) : String := String.ofList (Number.Style.json.text x)

end Json

end Scorecard
