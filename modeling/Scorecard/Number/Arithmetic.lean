import Scorecard.Number.Binary

/-!
# Remainders and whole parts

The operations on doubles that formulas offer beyond sum, product and quotient.  Each result is
exact, so it is computed on mantissas and packed again without rounding.
-/

namespace Scorecard.Number

/-- The remainder of a division truncated toward zero; it has the sign of the dividend. -/
def remainder (x y : Float) : Float :=
  if x.isNaN || y.isNaN || x.isInf || y == 0 then notANumber
  else if y.isInf || x == 0 then x
  else
    let a := magnitude x
    let b := magnitude y
    let e := min a.exponent b.exponent
    let r := a.mantissa * Nat.pow 2 (a.exponent - e).toNat %
      (b.mantissa * Nat.pow 2 (b.exponent - e).toNat)
    nearest (isNegative x) (.scaled 2 r e)

/-- How a magnitude is taken to a whole number; the arguments are the whole part, the remaining
numerator and its denominator. -/
def mapWhole (whole : Nat → Nat → Nat → Nat) (x : Float) : Float :=
  if !x.isFinite || 0 ≤ (magnitude x).exponent then x
  else
    let r := Ratio.scaled 2 (magnitude x).mantissa (magnitude x).exponent
    nearest (isNegative x) ⟨whole (r.num / r.den) (r.num % r.den) r.den, 1⟩

/-- The greatest whole number that is not above. -/
def floor (x : Float) : Float :=
  mapWhole (fun n r _ => if isNegative x ∧ r ≠ 0 then n + 1 else n) x

/-- The least whole number that is not below. -/
def ceiling (x : Float) : Float :=
  mapWhole (fun n r _ => if isNegative x ∨ r = 0 then n else n + 1) x

/-- The nearest whole number, a half away from zero. -/
def round (x : Float) : Float :=
  mapWhole (fun n r den => if 2 * r < den then n else n + 1) x

end Scorecard.Number
