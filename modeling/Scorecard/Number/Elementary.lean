import Scorecard.Number.Binary

/-!
# Elementary functions

What formulas can ask for beyond arithmetic and the functions of the machine.  `floorRoot` is the
whole part of the square root of a natural number.  `hypotenuse` is the root of a sum of two squares
to the nearest double: the sum is exact, and its root is known to more bits than a double has.
`logarithm` takes any base, and `arcosh` is a logarithm too.
-/

namespace Scorecard.Number

/-- The greatest number whose square is not above. -/
def floorRoot (n : Nat) : Nat :=
  if n = 0 then 0
  else
    let r := 2 * floorRoot (n / 4)
    if (r + 1) * (r + 1) ≤ n then r + 1 else r

/-- Twice the whole part of the square root of `n * 4 ^ 64`, and one more unless that root is whole.
Rounded to the bits of a double it gives what the exact root gives. -/
def rootNumerator (n : Nat) : Nat :=
  let wide := n * Nat.pow 4 64
  let r := floorRoot wide
  2 * r + if r * r = wide then 0 else 1

/-- The length of the hypotenuse over two legs. -/
def hypotenuse (x y : Float) : Float :=
  if x.isInf || y.isInf then infinity
  else if x.isNaN || y.isNaN then notANumber
  else
    let a := magnitude x
    let b := magnitude y
    let e := min a.exponent b.exponent
    let m := a.mantissa * Nat.pow 2 (a.exponent - e).toNat
    let n := b.mantissa * Nat.pow 2 (b.exponent - e).toNat
    nearest false (.scaled 2 (rootNumerator (m * m + n * n)) (e - 65))

theorem floorRoot_bounds (n : Nat) :
    floorRoot n * floorRoot n ≤ n ∧ n < (floorRoot n + 1) * (floorRoot n + 1) := by
  fun_induction floorRoot n with
  | case1 => simp
  | case2 n h r hr ih =>
      refine ⟨hr, ?_⟩
      obtain ⟨_, above⟩ := ih
      have step : n < 4 * ((floorRoot (n / 4) + 1) * (floorRoot (n / 4) + 1)) := by omega
      have square : (r + 1 + 1) * (r + 1 + 1) =
          4 * ((floorRoot (n / 4) + 1) * (floorRoot (n / 4) + 1)) := by
        simp only [r]; grind
      omega
  | case3 n h r hr ih =>
      refine ⟨?_, by omega⟩
      obtain ⟨below, _⟩ := ih
      have step : 4 * (floorRoot (n / 4) * floorRoot (n / 4)) ≤ n := by omega
      have square : r * r = 4 * (floorRoot (n / 4) * floorRoot (n / 4)) := by
        simp only [r]; grind
      omega

/-- The logarithm of a number to a base. -/
def logarithm (x base : Float) : Float := x.log / base.log

/-- The inverse of the hyperbolic cosine.  Near one a product of roots loses fewer bits than the root
of a product. -/
def arcosh (x : Float) : Float :=
  if x < 1 then notANumber else (x + (x - 1).sqrt * (x + 1).sqrt).log

end Scorecard.Number
