import Scorecard.Number.Rounding

/-!
# Binary floating point

A finite double is a sign and a magnitude `mantissa * 2 ^ exponent`.  `magnitude` reads it off the
bits, and `nearest` goes back: it rounds any rational to the nearest double, a tie to the even
mantissa, and anything beyond the range to infinity.
-/

namespace Scorecard.Number

/-- The absolute value `mantissa * 2 ^ exponent` of a finite double. -/
structure Magnitude where
  mantissa : Nat
  exponent : Int
  deriving DecidableEq, Repr

/-- The least exponent of a double. -/
def leastExponent : Int := -1074

/-- The bits of positive infinity. -/
def infinityBits : Nat := 2047 * Nat.pow 2 52

/-- Whether the sign bit is set. -/
def isNegative (x : Float) : Bool := Nat.pow 2 63 ≤ x.toBits.toNat

/-- The magnitude whose bits, sign aside, are the given number. -/
def Magnitude.ofBits (bits : Nat) : Magnitude :=
  let biased : Nat := bits / Nat.pow 2 52
  let fraction : Nat := bits % Nat.pow 2 52
  if biased = 0 then ⟨fraction, leastExponent⟩
  else ⟨Nat.pow 2 52 + fraction, (biased : Int) - 1075⟩

/-- The magnitude of a finite double. -/
def magnitude (x : Float) : Magnitude := .ofBits (x.toBits.toNat % Nat.pow 2 63)

/-- The bits of a magnitude; a mantissa that has been rounded up to `2 ^ 53` carries over into the
exponent. -/
def Magnitude.toBits (m : Magnitude) : Nat :=
  (m.exponent - leastExponent).toNat * Nat.pow 2 52 + m.mantissa

/-- The greatest `e` with `2 ^ e ≤ r`, for a positive rational. -/
def Ratio.log2 (r : Ratio) : Int :=
  let e : Int := r.num.log2 - r.den.log2
  if r.num * Nat.pow 2 (-e).toNat < r.den * Nat.pow 2 e.toNat then e - 1 else e

/-- The magnitude nearest to a positive rational, as if exponents had no upper bound. -/
def Ratio.toMagnitude (r : Ratio) : Magnitude :=
  let e := max leastExponent (r.log2 - 52)
  ⟨roundDiv .toEven (r.num * Nat.pow 2 (-e).toNat) (r.den * Nat.pow 2 e.toNat), e⟩

/-- The double with the given sign and magnitude bits. -/
def withSign (negative : Bool) (bits : Nat) : Float :=
  Float.ofBits (UInt64.ofNat (bits + if negative then Nat.pow 2 63 else 0))

/-- The double nearest to a rational with the given sign. -/
def nearest (negative : Bool) (r : Ratio) : Float :=
  withSign negative (if r.num = 0 then 0 else min infinityBits r.toMagnitude.toBits)

/-- Positive infinity. -/
def infinity : Float := withSign false infinityBits

/-- The value that is not a number. -/
def notANumber : Float := withSign false (infinityBits + Nat.pow 2 51)

/-- The double nearest to an integer. -/
def ofInt (n : Int) : Float := nearest (n < 0) ⟨n.natAbs, 1⟩

end Scorecard.Number
