import Scorecard.Number.Shortest
import Scorecard.Number.Numeral

/-!
# Numbers as text

Which digits a number has is settled by `Magnitude.shortest`; a `Style` settles how they are laid
out.  Three styles are in use: scores in reports and formulas, numbers in JSON documents, and
values inside error messages.  `fixed` writes a given count of decimal places instead.
-/

namespace Scorecard.Number

/-- How shortest digits are laid out. -/
structure Style where
  /-- What happens when two shortest decimals are equally near. -/
  tie : Tie
  /-- The exponents, of the form with one digit before the point, that are written positionally. -/
  positional : Int → Bool
  /-- Whether a whole number gets a fraction digit. -/
  wholeHasPoint : Bool
  /-- Whether a positive exponent carries a sign. -/
  plus : Bool

/-- Scores have no exponent and no needless point. -/
def Style.score : Style := ⟨.up, fun _ => true, false, false⟩

/-- JSON numbers are positional from `0.00001` up to sixteen whole digits. -/
def Style.json : Style := ⟨.toEven, fun e => -5 ≤ e && e ≤ 15, true, true⟩

/-- Values in error messages are positional from `0.0001` up to sixteen whole digits. -/
def Style.message : Style := ⟨.up, fun e => -4 ≤ e && e ≤ 15, true, false⟩

/-- The decimal digits of a number. -/
def natDigits (n : Nat) : List Char := Nat.toDigits 10 n

/-- An integer in decimal. -/
def intText (n : Int) : List Char := (if n < 0 then ['-'] else []) ++ natDigits n.natAbs

/-- A decimal in positional notation. -/
def inPlaces (wholeHasPoint : Bool) (d : Decimal) : List Char :=
  let digits := natDigits d.digits
  let places := (-d.exponent).toNat
  if 0 ≤ d.exponent then
    digits ++ List.replicate d.exponent.toNat '0' ++ (if wholeHasPoint then ['.', '0'] else [])
  else if places < digits.length then
    digits.take (digits.length - places) ++ '.' :: digits.drop (digits.length - places)
  else '0' :: '.' :: List.replicate (places - digits.length) '0' ++ digits

/-- A decimal with one digit before the point and the given exponent. -/
def scientific (plus : Bool) (digits : List Char) (e : Int) : List Char :=
  digits.take 1 ++ (if digits.length = 1 then [] else '.' :: digits.drop 1) ++
    'e' :: (if plus ∧ 0 ≤ e then ['+'] else []) ++ intText e

/-- A decimal laid out in a style. -/
def Style.layout (style : Style) (d : Decimal) : List Char :=
  let digits := natDigits d.digits
  let e := d.exponent + (digits.length - 1 : Nat)
  if style.positional e then inPlaces style.wholeHasPoint d
  else scientific style.plus digits e

/-- The text of a double. -/
def Style.text (style : Style) (x : Float) : List Char :=
  if x.isNaN then "NaN".toList
  else
    (if isNegative x then ['-'] else []) ++
      if x.isFinite then style.layout ((magnitude x).shortest style.tie) else "inf".toList

/-- The text of a score: shortest digits without exponent. -/
def scoreText (x : Float) : String := String.ofList (Style.score.text x)

/-- The exact value of a finite double rounded to `places` decimal places, a tie to the even last
digit. -/
def fixed (places : Nat) (x : Float) : String :=
  let m := magnitude x
  let r := Ratio.scaled 2 m.mantissa m.exponent
  let digits := natDigits (roundDiv .toEven (r.num * Nat.pow 10 places) r.den)
  let padded := List.replicate (places + 1 - digits.length) '0' ++ digits
  String.ofList ((if isNegative x then ['-'] else []) ++
    padded.take (padded.length - places) ++ '.' :: padded.drop (padded.length - places))

end Scorecard.Number
