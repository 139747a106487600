/-!
# Rounding quotients

A non-negative rational is a numerator over a denominator.  `roundDiv` rounds one to the nearest
integer; what happens to a quotient half-way between two integers is its argument.
-/

namespace Scorecard.Number

/-- Where a quotient half-way between two integers goes. -/
inductive Tie where
  | toEven
  | up
  deriving DecidableEq, Repr

/-- The integer nearest to `num / den`. -/
def roundDiv (tie : Tie) (num den : Nat) : Nat :=
  let below := num / den
  let twice := 2 * (num % den)
  if twice < den then below
  else if den < twice then below + 1
  else match tie with
    | .up => below + 1
    | .toEven => below + below % 2

/-- A non-negative rational number, not necessarily in lowest terms. -/
structure Ratio where
  num : Nat
  den : Nat
  deriving DecidableEq, Repr

/-- `m` times the power `e`, positive or negative, of `base`. -/
def Ratio.scaled (base m : Nat) (e : Int) : Ratio :=
  ⟨m * Nat.pow base e.toNat, Nat.pow base (-e).toNat⟩

/-- The rounded quotient differs from the exact one by half a unit at most. -/
theorem roundDiv_near (tie : Tie) (num : Nat) {den : Nat} (h : 0 < den) :
    2 * num ≤ 2 * (roundDiv tie num den * den) + den ∧
      2 * (roundDiv tie num den * den) ≤ 2 * num + den := by
  have hdiv := Nat.div_add_mod num den
  have hmod := Nat.mod_lt num h
  have here : num / den * den = den * (num / den) := Nat.mul_comm _ _
  have above : (num / den + 1) * den = den * (num / den) + den := by
    rw [Nat.add_mul, Nat.one_mul, Nat.mul_comm]
  unfold roundDiv
  simp only
  split
  · omega
  · split
    · omega
    · cases tie with
      | up => simp only; omega
      | toEven =>
          simp only
          rcases Nat.mod_two_eq_zero_or_one (num / den) with he | he
          · rw [he, Nat.add_zero]; omega
          · rw [he]; omega

end Scorecard.Number
