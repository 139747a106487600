import Scorecard.Toml.DateTime
import Scorecard.Toml.Text

/-!
# Numbers and words in TOML

Integers have 64 bits and may be written to base 16, 8 or 2; underscores may stand between digits.
A value of JSON has no infinity and no value that is not a number: both become `null`.
-/

namespace Scorecard.Toml

open Number (Numeral isDigit)

/-- The digits at the front, with underscores between digits left out, and what follows. -/
def takeDigits (isDigit : Char → Bool) : List Char → List Char × List Char
  | [] => ([], [])
  | [c] => if isDigit c then ([c], []) else ([], [c])
  | c :: d :: cs =>
      if !isDigit c then ([], c :: d :: cs)
      else
        let (digits, rest) :=
          if d = '_' ∧ cs.head?.any isDigit then takeDigits isDigit cs else takeDigits isDigit (d :: cs)
        (c :: digits, rest)

/-- A sign, if there is one, and what follows. -/
def takeSign (cs : List Char) : Bool × List Char :=
  let (sign, rest) := Numeral.scanSign cs
  (sign = some '-', rest)

/-- The digits of a whole decimal number, which has no needless zero, and what follows. -/
def takeWhole : List Char → Option (List Char × List Char)
  | '0' :: cs => some (['0'], cs)
  | cs =>
      let (digits, rest) := takeDigits isDigit cs
      if digits = [] then none else some (digits, rest)

/-- The fraction of a number, and what follows. -/
def takeFraction : List Char → Option (List Char × List Char)
  | '.' :: cs =>
      let (digits, rest) := takeDigits isDigit cs
      if digits = [] then none else some (digits, rest)
  | _ => none

/-- The exponent of a number, and what follows. -/
def takeExponent : List Char → Option (Number.Exponent × List Char)
  | mark :: cs =>
      let (sign, body) := Numeral.scanSign cs
      let (digits, rest) := takeDigits isDigit body
      if (mark = 'e' ∨ mark = 'E') ∧ digits ≠ [] then some (⟨mark, sign, digits⟩, rest) else none
  | [] => none

/-- A double as a JSON value. -/
def ofFloat (x : Float) : Json := if x.isFinite then .float x else .null

/-- A number with a fraction or an exponent, and what follows.  One above the range is refused. -/
def takeFloat (cs : List Char) : Option (Json × List Char) := do
  let (negative, body) := takeSign cs
  let (whole, afterWhole) ← takeWhole body
  let fraction := takeFraction afterWhole
  let afterFraction := fraction.elim afterWhole Prod.snd
  let exponent := takeExponent afterFraction
  if fraction.isNone ∧ exponent.isNone then none
  let x := Numeral.toFloat negative ⟨whole, fraction.map Prod.fst, exponent.map Prod.fst⟩
  if x == Number.infinity then none
  return (ofFloat x, exponent.elim afterFraction Prod.snd)

/-- The words for infinity and for no number, with an optional sign. -/
def takeSpecial (cs : List Char) : Option (Json × List Char) :=
  let (_, body) := takeSign cs
  match body with
  | 'i' :: 'n' :: 'f' :: rest => some (.null, rest)
  | 'n' :: 'a' :: 'n' :: rest => some (.null, rest)
  | _ => none

/-- The value of a digit to a base up to 16, if it is one. -/
def isDigitTo (base : Nat) (c : Char) : Bool := (Json.hexDigit? c).any (· < base)

/-- The integer with these digits, if it has 64 bits. -/
def ofDigitsTo (base : Nat) (negative : Bool) (digits : List Char) : Option Json :=
  let n : Int := digits.foldl (fun n c => base * n + (Json.hexDigit? c).getD 0) 0
  let signed := if negative then -n else n
  if Number.fitsInt64 signed then some (.int signed) else none

/-- An integer to a base, after the mark of the base, and what follows. -/
def takeIntTo (base : Nat) (cs : List Char) : Option (Json × List Char) :=
  let (digits, rest) := takeDigits (isDigitTo base) cs
  if digits = [] then none else (ofDigitsTo base false digits).map fun v => (v, rest)

/-- An integer, and what follows. -/
def takeInt (cs : List Char) : Option (Json × List Char) :=
  match cs with
  | '0' :: 'x' :: body => takeIntTo 16 body
  | '0' :: 'o' :: body => takeIntTo 8 body
  | '0' :: 'b' :: body => takeIntTo 2 body
  | _ => do
      let (negative, body) := takeSign cs
      let (digits, rest) ← takeWhole body
      return (← ofDigitsTo 10 negative digits, rest)

/-! ## Any of them -/

/-- What follows a word. -/
def takeWord (word : String) (v : Json) (cs : List Char) : Option (Json × List Char) :=
  if word.toList.isPrefixOf cs then some (v, cs.drop word.length) else none

/-- A value that holds no other value, and what follows. -/
def takeScalar (cs : List Char) : Option (Json × List Char) :=
  (takeAnyText cs).map (fun (s, rest) => (.string s, rest)) <|>
    takeWord "true" (.bool true) cs <|> takeWord "false" (.bool false) cs <|>
    (takeDateTime .document cs).map (fun (d, rest) => (d.toJson, rest)) <|>
    takeFloat cs <|> takeSpecial cs <|> takeInt cs

end Scorecard.Toml
