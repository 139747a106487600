import Scorecard.Number.Binary

/-!
# The fewest digits that read back

A double is the nearest double to every number of an interval around it.  `shortest` finds the
coarsest decimal grid that has a point in the interval, and of two such points the nearer one.
All comparisons are between products of natural numbers, so nothing is rounded on the way.
-/

namespace Scorecard.Number

/-- The number `digits * 10 ^ exponent`. -/
structure Decimal where
  digits : Nat
  exponent : Int
  deriving DecidableEq, Repr

/-- The same number with no zero at the end of its digits; zero has the exponent 0. -/
def Decimal.normalized (d : Decimal) : Decimal :=
  if h : d.digits = 0 then ⟨0, 0⟩
  else if d.digits % 10 = 0 then Decimal.normalized ⟨d.digits / 10, d.exponent + 1⟩
  else d
termination_by d.digits
decreasing_by exact Nat.div_lt_self (Nat.pos_of_ne_zero h) (by omega)

namespace Magnitude

/-- How far below a magnitude its interval reaches, in quarters of the unit `2 ^ exponent`.  The
doubles below the least mantissa of an exponent lie twice as close. -/
def below (m : Magnitude) : Nat :=
  if m.mantissa = Nat.pow 2 52 ∧ leastExponent < m.exponent then 1 else 2

/-- On the grid of multiples of `10 ^ p`: the sizes, in one common unit, of a grid step and of a
quarter of the magnitude's unit. -/
def steps (m : Magnitude) (p : Int) : Nat × Nat :=
  (Nat.pow 10 p.toNat * Nat.pow 2 (2 - m.exponent).toNat,
    Nat.pow 10 (-p).toNat * Nat.pow 2 (m.exponent - 2).toNat)

/-- Whether `k * 10 ^ p` is read back as this magnitude.  The ends of the interval belong to it
when the mantissa is even. -/
def reads (m : Magnitude) (p : Int) (k : Nat) : Bool :=
  let (step, quarter) := m.steps p
  let low := (4 * m.mantissa - m.below) * quarter
  let high := (4 * m.mantissa + 2) * quarter
  let point := k * step
  (low < point && point < high) || (m.mantissa % 2 = 0 && (low = point || point = high))

/-- The point nearest to the magnitude among those of the grid of multiples of `10 ^ p` that are
read back as it. -/
def onGrid? (tie : Tie) (m : Magnitude) (p : Int) : Option Nat :=
  let (step, quarter) := m.steps p
  let floor := 4 * m.mantissa * quarter / step
  match m.reads p floor, m.reads p (floor + 1) with
  | true, true => some (roundDiv tie (4 * m.mantissa * quarter) step)
  | true, false => some floor
  | false, true => some (floor + 1)
  | false, false => none

/-- The first hit among `fuel` grids, from the grid of `10 ^ p` to finer ones. -/
def searchFrom (tie : Tie) (m : Magnitude) : Nat → Int → Decimal
  | 0, _ => ⟨m.mantissa, m.exponent⟩
  | fuel + 1, p =>
      match m.onGrid? tie p with
      | some k => ⟨k, p⟩
      | none => searchFrom tie m fuel (p - 1)

/-- A power of ten above the magnitude: `10 ^ 3 < 2 ^ 10`, and the quotient is never too small. -/
def topExponent (m : Magnitude) : Int :=
  ((m.mantissa.log2 : Int) + m.exponent) * 30103 / 100000 + 1

/-- The shortest decimal that is read back as the magnitude.  Seventeen digits always suffice. -/
def shortest (tie : Tie) (m : Magnitude) : Decimal :=
  if m.mantissa = 0 then ⟨0, 0⟩ else (m.searchFrom tie 24 m.topExponent).normalized

end Magnitude

end Scorecard.Number
