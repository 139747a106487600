import Scorecard.Number.Binary
import Scorecard.Text.Case

/-!
# Decimal numerals

A numeral is digits with an optional point and more digits, and an optional exponent.  `scan` takes
the longest one from the front of a text, keeps every character of it, and leaves an exponent mark
alone that no digit follows.  `toFloat` is the correctly rounded value.

The scanner is shared: formulas find their literals with it, and `readFloat` accepts a text when
the scanner takes all of it.
-/

namespace Scorecard.Number

/-- One of the digits 0 to 9. -/
def isDigit (c : Char) : Bool := '0' ≤ c && c ≤ '9'

/-- The value of a digit. -/
def digitValue (c : Char) : Nat := c.toNat - '0'.toNat

/-- The number that a row of digits stands for. -/
def ofDigits (digits : List Char) : Nat :=
  digits.foldl (fun n c => 10 * n + digitValue c) 0

/-- An exponent: its mark, its sign if written, and its digits. -/
structure Exponent where
  mark : Char
  sign : Option Char
  digits : List Char
  deriving DecidableEq, Repr

/-- The exponent as written. -/
def Exponent.text (e : Exponent) : List Char := e.mark :: e.sign.toList ++ e.digits

/-- The exponent's value. -/
def Exponent.value (e : Exponent) : Int :=
  if e.sign = some '-' then -(ofDigits e.digits : Int) else ofDigits e.digits

/-- A decimal numeral in its parts.  `fraction` holds the digits after the point, if there is one. -/
structure Numeral where
  whole : List Char
  fraction : Option (List Char)
  exponent : Option Exponent
  deriving DecidableEq, Repr

namespace Numeral

/-- The numeral as written. -/
def text (n : Numeral) : List Char :=
  n.whole ++ (n.fraction.elim [] ('.' :: ·)) ++ n.exponent.elim [] Exponent.text

/-- The digits before the exponent, point aside. -/
def digits (n : Numeral) : List Char := n.whole ++ n.fraction.getD []

/-- The power of ten by which the digits, read as an integer, are scaled. -/
def scale (n : Numeral) : Int :=
  n.exponent.elim 0 Exponent.value - (n.fraction.getD []).length

/-! ## Scanning -/

/-- A sign at the front of a text. -/
def scanSign : List Char → Option Char × List Char
  | '+' :: cs => (some '+', cs)
  | '-' :: cs => (some '-', cs)
  | cs => (none, cs)

/-- The exponent at the front of a text, when at least one digit follows its mark and sign. -/
def scanExponent : List Char → Option Exponent × List Char
  | [] => (none, [])
  | mark :: cs =>
      let (sign, body) := scanSign cs
      if (mark = 'e' ∨ mark = 'E') ∧ body.takeWhile isDigit ≠ [] then
        (some ⟨mark, sign, body.takeWhile isDigit⟩, body.dropWhile isDigit)
      else (none, mark :: cs)

/-- The point and the digits after it. -/
def scanFraction : List Char → Option (List Char) × List Char
  | '.' :: cs => (some (cs.takeWhile isDigit), cs.dropWhile isDigit)
  | cs => (none, cs)

/-- The longest numeral at the front of a text, possibly without any digit, and the rest. -/
def scan (cs : List Char) : Numeral × List Char :=
  let (fraction, afterFraction) := scanFraction (cs.dropWhile isDigit)
  let (exponent, rest) := scanExponent afterFraction
  (⟨cs.takeWhile isDigit, fraction, exponent⟩, rest)

theorem scanSign_text (cs : List Char) : (scanSign cs).1.toList ++ (scanSign cs).2 = cs := by
  unfold scanSign
  split <;> rfl

theorem scanExponent_text (cs : List Char) :
    ((scanExponent cs).1.elim [] Exponent.text) ++ (scanExponent cs).2 = cs := by
  cases cs with
  | nil => rfl
  | cons mark cs =>
      simp only [scanExponent]
      split
      · simp [Exponent.text, scanSign_text]
      · simp

theorem scanFraction_text (cs : List Char) :
    ((scanFraction cs).1.elim [] ('.' :: ·)) ++ (scanFraction cs).2 = cs := by
  unfold scanFraction
  split <;> simp

/-- Scanning loses nothing. -/
theorem scan_text (cs : List Char) : (scan cs).1.text ++ (scan cs).2 = cs := by
  have he := scanExponent_text (scanFraction (cs.dropWhile isDigit)).2
  have hf := scanFraction_text (cs.dropWhile isDigit)
  simp only [scan, text, List.append_assoc]
  rw [he, hf, List.takeWhile_append_dropWhile]

/-! ## Value -/

/-- The correctly rounded value of the digits `digits` scaled by a power of ten.  The first two
cases only keep the powers of ten small. -/
def valueOf (negative : Bool) (digits : Nat) (scale : Int) : Float :=
  if digits = 0 ∨ scale < -400 - digits.log2 then withSign negative 0
  else if 400 < scale then withSign negative infinityBits
  else nearest negative (.scaled 10 digits scale)

/-- The correctly rounded value of the numeral under a sign. -/
def toFloat (negative : Bool) (n : Numeral) : Float :=
  valueOf negative (ofDigits n.digits) n.scale

end Numeral

/-! ## Reading -/

/-- A leading sign: whether it is a minus, and what follows. -/
def takeSign (cs : List Char) : Bool × List Char :=
  let (sign, body) := Numeral.scanSign cs
  (sign == some '-', body)

/-- The value of a text that is a numeral with an optional sign, or one of the words `inf`,
`infinity` and `nan` in any case. -/
def readFloat (cs : List Char) : Option Float :=
  let (negative, body) := takeSign cs
  if Text.asciiLowered body = "inf".toList ∨ Text.asciiLowered body = "infinity".toList then
    some (withSign negative infinityBits)
  else if Text.asciiLowered body = "nan".toList then some notANumber
  else
    let (n, rest) := Numeral.scan body
    if rest = [] ∧ n.digits ≠ [] then some (n.toFloat negative) else none

/-- The value of a text that is an optional sign and digits only. -/
def readInt (cs : List Char) : Option Int :=
  let (negative, body) := takeSign cs
  if body ≠ [] ∧ body.all isDigit then
    some (if negative then -(ofDigits body : Int) else ofDigits body)
  else none

/-- The range of 64-bit signed integers. -/
def fitsInt64 (n : Int) : Bool := -0x8000000000000000 ≤ n && n < 0x8000000000000000

/-- The value of a text that is an optional sign and digits, within 64 bits. -/
def readInt64 (cs : List Char) : Option Int := (readInt cs).filter fitsInt64

end Scorecard.Number
