import Mathlib
import Scorecard.Number.Shortest
import Scorecard.Proofs.Number.Conversion

/-!
# Shortest digits are read back

The interval in which `Magnitude.shortest` looks for a decimal is the one that is rounded to the
magnitude (`isNearest_of_reads`), and a grid finer than three quarters of the magnitude's unit has a
point in it (`exists_onGrid?`).  The search starts at most 23 grids above such a one, so it ends at
a decimal that is rounded to the magnitude and has fewer than 57 bits (`shortest_spec`).
-/

namespace Scorecard.Number

/-- The number that the decimal stands for. -/
def Decimal.value (d : Decimal) : ℚ := d.digits * 10 ^ d.exponent

namespace Magnitude

variable {m : Magnitude}

/-! ## The interval of a magnitude -/

theorem below_cases (m : Magnitude) : m.below = 1 ∧ m.mantissa = 2 ^ 52 ∧ -1074 < m.exponent ∨
    m.below = 2 ∧ (m.mantissa = 2 ^ 52 → m.exponent ≤ -1074) := by
  unfold below
  split
  · next h => exact .inl ⟨rfl, h⟩
  · next h => exact .inr ⟨rfl, fun hm => not_lt.mp fun he => h ⟨hm, he⟩⟩

/-- The sizes of a grid step and of a quarter of the unit, in a common unit. -/
theorem steps_eq (m : Magnitude) (p : Int) : ∃ c : ℚ, 0 < c ∧
    ((m.steps p).1 : ℚ) = 10 ^ p * c ∧ ((m.steps p).2 : ℚ) = 2 ^ (m.exponent - 2) * c := by
  have hten := zpow_eq_div (b := 10) (by decide) p
  have htwo := zpow_eq_div (b := 2) (by decide) (m.exponent - 2)
  have hneg : -(m.exponent - 2) = 2 - m.exponent := by ring
  have htenPos : (0 : ℚ) < (10 ^ (-p).toNat : ℕ) := by positivity
  have htwoPos : (0 : ℚ) < (2 ^ (2 - m.exponent).toNat : ℕ) := by positivity
  rw [Nat.cast_ofNat] at hten
  rw [Nat.cast_ofNat, hneg] at htwo
  refine ⟨(10 ^ (-p).toNat : ℕ) * (2 ^ (2 - m.exponent).toNat : ℕ), by positivity, ?_, ?_⟩
  · rw [steps, hten, Nat.pow_eq, Nat.pow_eq, Nat.cast_mul]
    field_simp
  · simp only [steps, htwo, Nat.pow_eq, Nat.cast_mul]
    field_simp

/-- A point that is read as the magnitude lies in its interval, whose ends belong to it if the
mantissa is even. -/
theorem bounds_of_reads {p : Int} {k : Nat} (h : m.reads p k = true) :
    ((4 * m.mantissa - m.below : ℕ) : ℚ) * 2 ^ (m.exponent - 2) ≤ k * 10 ^ p ∧
      (k : ℚ) * 10 ^ p ≤ (4 * m.mantissa + 2 : ℕ) * 2 ^ (m.exponent - 2) ∧
      (((4 * m.mantissa - m.below : ℕ) : ℚ) * 2 ^ (m.exponent - 2) = k * 10 ^ p ∨
        (k : ℚ) * 10 ^ p = (4 * m.mantissa + 2 : ℕ) * 2 ^ (m.exponent - 2) → Even m.mantissa) := by
  obtain ⟨c, hc, hstep, hquarter⟩ := m.steps_eq p
  have hscale : ∀ a : ℕ, ((a * (m.steps p).2 : ℕ) : ℚ) = a * 2 ^ (m.exponent - 2) * c := by
    intro a
    rw [Nat.cast_mul, hquarter, mul_assoc]
  have hpoint : ((k * (m.steps p).1 : ℕ) : ℚ) = k * 10 ^ p * c := by
    rw [Nat.cast_mul, hstep, mul_assoc]
  have hle : ((4 * m.mantissa - m.below) * (m.steps p).2) ≤ (4 * m.mantissa + 2) * (m.steps p).2 :=
    Nat.mul_le_mul_right _ (by omega)
  simp only [reads, Bool.or_eq_true, Bool.and_eq_true, decide_eq_true_eq] at h
  -- The same three facts in natural numbers.
  have hnat : (4 * m.mantissa - m.below) * (m.steps p).2 ≤ k * (m.steps p).1 ∧
      k * (m.steps p).1 ≤ (4 * m.mantissa + 2) * (m.steps p).2 ∧
      ((4 * m.mantissa - m.below) * (m.steps p).2 = k * (m.steps p).1 ∨
        k * (m.steps p).1 = (4 * m.mantissa + 2) * (m.steps p).2 → Even m.mantissa) := by
    rw [Nat.even_iff]
    omega
  rw [← @Nat.cast_le ℚ, ← @Nat.cast_le ℚ, ← @Nat.cast_inj ℚ, ← @Nat.cast_inj ℚ, hscale, hscale, hpoint, mul_le_mul_iff_left₀ hc,
    mul_le_mul_iff_left₀ hc, mul_left_inj' hc.ne', mul_left_inj' hc.ne'] at hnat
  exact hnat

theorem zpow_eq_quarters (e : ℤ) : (2 : ℚ) ^ e = 4 * 2 ^ (e - 2) := by
  rw [zpow_sub₀ (by norm_num)]
  norm_num
  ring

/-- A number that is rounded within a unit. -/
theorem roundsTo_of_quarters {r : ℕ} {e : ℤ} {q : ℚ} (hleast : -1074 ≤ e)
    (hfull : e = -1074 ∨ 2 ^ 52 * 2 ^ e ≤ q) (hlt : q < 2 ^ 53 * 2 ^ e)
    (hlow : (4 * r - 2 : ℚ) * 2 ^ (e - 2) ≤ q) (hhigh : q ≤ (4 * r + 2 : ℚ) * 2 ^ (e - 2))
    (htie : (4 * r - 2 : ℚ) * 2 ^ (e - 2) = q ∨ q = (4 * r + 2 : ℚ) * 2 ^ (e - 2) → Even r) :
    RoundsTo q r e := by
  refine ⟨hleast, hfull, hlt, ?_, ?_⟩
  · rw [zpow_eq_quarters e]
    rcases abs_cases (q - r * (4 * 2 ^ (e - 2))) with ⟨habs, -⟩ | ⟨habs, -⟩ <;>
      rw [habs] <;> linarith
  · intro h
    rw [zpow_eq_quarters e] at h
    refine htie ?_
    rcases abs_cases (q - r * (4 * 2 ^ (e - 2))) with ⟨habs, -⟩ | ⟨habs, -⟩ <;> rw [habs] at h
    · exact .inr (by linarith)
    · exact .inl (by linarith)

/-- The least mantissa of an exponent: below it the unit is half as large. -/
theorem isNearest_leastMantissa {e : ℤ} {q : ℚ} (he : -1074 < e)
    (hlow : (4 * 2 ^ 52 - 1 : ℚ) * 2 ^ (e - 2) ≤ q)
    (hhigh : q ≤ (4 * 2 ^ 52 + 2 : ℚ) * 2 ^ (e - 2)) : IsNearest ⟨2 ^ 52, e⟩ q := by
  have hunit := zpow_eq_quarters e
  have hquarter : (0 : ℚ) < 2 ^ (e - 2) := by positivity
  by_cases hunder : q < 2 ^ 52 * 2 ^ e
  · have hhalf : (2 : ℚ) ^ (e - 1) = 2 * 2 ^ (e - 2) := by
      rw [← zpow_one_add₀ (by norm_num)]
      congr 1
      ring
    have heighth : (2 : ℚ) ^ (e - 1 - 2) = 2 ^ (e - 2) / 2 := by
      have hexp : e - 1 - 2 = e - 2 - 1 := by ring
      rw [hexp, zpow_sub_one₀ (by norm_num), div_eq_mul_inv]
    rw [hunit] at hunder
    refine ⟨2 ^ 53, e - 1, roundsTo_of_quarters (by omega) (.inr ?_) ?_ ?_ ?_ fun _ => ?_, ?_⟩
    · rw [hhalf]
      linarith
    · rw [hhalf]
      linarith
    · rw [heighth]
      push_cast
      linarith
    · rw [heighth]
      push_cast
      linarith
    · exact ⟨2 ^ 52, by norm_num⟩
    · rw [carried, if_pos rfl, sub_add_cancel]
  · rw [not_lt] at hunder
    refine ⟨2 ^ 52, e, roundsTo_of_quarters he.le (.inr hunder) ?_ ?_ ?_ fun _ => ?_, ?_⟩
    · rw [hunit]
      linarith
    · rw [hunit] at hunder
      push_cast
      linarith
    · push_cast
      linarith
    · exact ⟨2 ^ 51, by norm_num⟩
    · rw [carried, if_neg (by norm_num)]

/-- Any other mantissa: the unit is the same on both sides. -/
theorem isNearest_of_quarters (hm : m.IsCanonical)
    (hmore : m.mantissa = 2 ^ 52 → m.exponent ≤ -1074) {q : ℚ}
    (hlow : (4 * m.mantissa - 2 : ℚ) * 2 ^ (m.exponent - 2) ≤ q)
    (hhigh : q ≤ (4 * m.mantissa + 2 : ℚ) * 2 ^ (m.exponent - 2))
    (htie : (4 * m.mantissa - 2 : ℚ) * 2 ^ (m.exponent - 2) = q ∨
      q = (4 * m.mantissa + 2 : ℚ) * 2 ^ (m.exponent - 2) → Even m.mantissa) : m.IsNearest q := by
  have hquarter : (0 : ℚ) < 2 ^ (m.exponent - 2) := by positivity
  have hfull : m.exponent = -1074 ∨ 2 ^ 52 * 2 ^ m.exponent ≤ q := by
    by_cases he : m.exponent = -1074
    · exact .inl he
    · have := hm.full
      have := hm.le_exponent
      have hnext : 2 ^ 52 + 1 ≤ m.mantissa := by omega
      have hnextQ : (2 : ℚ) ^ 52 + 1 ≤ m.mantissa := by exact_mod_cast hnext
      rw [zpow_eq_quarters m.exponent]
      exact .inr (by nlinarith)
  have hlt : q < 2 ^ 53 * 2 ^ m.exponent := by
    have hltQ : (m.mantissa : ℚ) + 1 ≤ 2 ^ 53 := by exact_mod_cast hm.mantissa_lt
    rw [zpow_eq_quarters m.exponent]
    nlinarith
  exact ⟨m.mantissa, m.exponent,
    roundsTo_of_quarters hm.le_exponent hfull hlt hlow hhigh htie, by
      rw [carried, if_neg (Nat.ne_of_lt hm.mantissa_lt)]⟩

/-- A point that is read as the magnitude is rounded to it. -/
theorem isNearest_of_reads (hm : m.IsCanonical) (hpos : m.mantissa ≠ 0) {p : Int} {k : Nat}
    (h : m.reads p k = true) : m.IsNearest (k * 10 ^ p) := by
  obtain ⟨hlow, hhigh, htie⟩ := bounds_of_reads h
  have habove : ((4 * m.mantissa + 2 : ℕ) : ℚ) = 4 * m.mantissa + 2 := by push_cast; rfl
  rw [habove] at hhigh htie
  rcases m.below_cases with ⟨hone, hleast, he⟩ | ⟨htwo, hmore⟩
  · obtain ⟨mantissa, e⟩ := m
    simp only at hleast he hone hlow hhigh
    subst hleast
    rw [hone] at hlow
    refine isNearest_leastMantissa he ?_ ?_
    · exact_mod_cast hlow
    · exact_mod_cast hhigh
  · have hbelow : ((4 * m.mantissa - 2 : ℕ) : ℚ) = 4 * m.mantissa - 2 := by
      rw [Nat.cast_sub (by omega)]
      push_cast
      rfl
    rw [htwo, hbelow] at hlow htie
    exact isNearest_of_quarters hm hmore hlow hhigh htie

/-! ## Grids -/

theorem roundDiv_cases (tie : Tie) (num den : Nat) :
    roundDiv tie num den = num / den ∨ roundDiv tie num den = num / den + 1 := by
  unfold roundDiv
  simp only
  split
  · exact .inl rfl
  · split
    · exact .inr rfl
    · cases tie with
      | up => exact .inr rfl
      | toEven =>
        simp only
        omega

/-- What a grid yields is read as the magnitude. -/
theorem reads_of_onGrid? {tie : Tie} {p : Int} {k : Nat} (h : m.onGrid? tie p = some k) :
    m.reads p k = true := by
  simp only [onGrid?] at h
  split at h
  · next hfloor hnext =>
    obtain rfl := Option.some.inj h
    rcases roundDiv_cases tie (4 * m.mantissa * (m.steps p).2) (m.steps p).1 with heq | heq
    · rw [heq]
      exact hfloor
    · rw [heq]
      exact hnext
  · next hfloor hnext => exact Option.some.inj h ▸ hfloor
  · next hfloor hnext => exact Option.some.inj h ▸ hnext
  · simp at h

theorem reads_of_lt {p : Int} {k : Nat}
    (hlow : (4 * m.mantissa - m.below) * (m.steps p).2 < k * (m.steps p).1)
    (hhigh : k * (m.steps p).1 < (4 * m.mantissa + 2) * (m.steps p).2) : m.reads p k = true := by
  simp [reads, hlow, hhigh]

/-- A grid that is fine enough has a point in the interval. -/
theorem exists_onGrid? (tie : Tie) (hpos : m.mantissa ≠ 0) {p : Int}
    (hp : (10 : ℚ) ^ p < 3 * 2 ^ (m.exponent - 2)) : ∃ k, m.onGrid? tie p = some k := by
  obtain ⟨c, hc, hstep, hquarter⟩ := m.steps_eq p
  have hfine : (m.steps p).1 < 3 * (m.steps p).2 := by
    have hQ : ((m.steps p).1 : ℚ) < 3 * (m.steps p).2 := by
      rw [hstep, hquarter, ← mul_assoc]
      exact mul_lt_mul_of_pos_right hp hc
    exact_mod_cast hQ
  have hstepPos : 0 < (m.steps p).1 := by
    have hQ : (0 : ℚ) < (m.steps p).1 := by
      rw [hstep]
      positivity
    exact_mod_cast hQ
  have hlow : (4 * m.mantissa - m.below) * (m.steps p).2 + (m.steps p).2 ≤
        4 * m.mantissa * (m.steps p).2 := by
    have hbelow : 4 * m.mantissa - m.below + 1 ≤ 4 * m.mantissa := by
      rcases m.below_cases with ⟨h, -⟩ | ⟨h, -⟩ <;> omega
    have hmul := Nat.mul_le_mul_right (m.steps p).2 hbelow
    rwa [Nat.add_mul, Nat.one_mul] at hmul
  have hhigh : (4 * m.mantissa + 2) * (m.steps p).2 =
      4 * m.mantissa * (m.steps p).2 + 2 * (m.steps p).2 := Nat.add_mul _ _ _
  have hfloor := Nat.div_mul_le_self (4 * m.mantissa * (m.steps p).2) (m.steps p).1
  have hnext := Nat.lt_div_mul_add hstepPos (a := 4 * m.mantissa * (m.steps p).2)
  have hreads : m.reads p (4 * m.mantissa * (m.steps p).2 / (m.steps p).1) = true ∨
      m.reads p (4 * m.mantissa * (m.steps p).2 / (m.steps p).1 + 1) = true := by
    by_cases hunder : (4 * m.mantissa - m.below) * (m.steps p).2 <
        4 * m.mantissa * (m.steps p).2 / (m.steps p).1 * (m.steps p).1
    · exact .inl (reads_of_lt hunder (by omega))
    · refine .inr (reads_of_lt ?_ ?_)
      · rw [Nat.add_mul, Nat.one_mul]
        omega
      · rw [Nat.add_mul, Nat.one_mul]
        omega
  simp only [onGrid?]
  rcases hreads with h | h
  · rw [h]
    split <;> simp_all
  · rw [h]
    split <;> simp_all

/-! ## The search -/

/-- The search ends on the first grid that has a point. -/
theorem searchFrom_spec {tie : Tie} {fuel : Nat} {p : Int} {j : Nat} (hj : j < fuel)
    (h : ∃ k, m.onGrid? tie (p - j) = some k) : ∃ k p', m.searchFrom tie fuel p = ⟨k, p'⟩ ∧
      m.onGrid? tie p' = some k ∧ p - j ≤ p' ∧ (p' = p ∨ m.onGrid? tie (p' + 1) = none) := by
  induction fuel generalizing p j with
  | zero => omega
  | succ fuel ih =>
    rw [searchFrom]
    cases hgrid : m.onGrid? tie p with
    | some k => exact ⟨k, p, rfl, hgrid, by omega, .inl rfl⟩
    | none =>
      obtain ⟨j, rfl⟩ : ∃ i, j = i + 1 := by
        refine ⟨j - 1, ?_⟩
        rcases Nat.eq_zero_or_pos j with rfl | hpos
        · simp [hgrid] at h
        · omega
      have hnext : p - 1 - (j : Int) = p - (j + 1 : ℕ) := by push_cast; ring
      obtain ⟨k, p', hsearch, hk, hle, hfirst⟩ := ih (p := p - 1) (j := j) (by omega) (hnext ▸ h)
      refine ⟨k, p', hsearch, hk, by omega, .inr ?_⟩
      rcases hfirst with rfl | hnone
      · rw [sub_add_cancel]
        exact hgrid
      · exact hnone

theorem power_bounds : ∀ k < 632,
    10 ^ k * 2 ^ 1128 < 3 * 2 ^ ((100000 * k - 69378) / 30103) * 10 ^ 346 ∧
      2 ^ (100000 * (k + 1) / 30103) * 10 ^ 323 < 10 ^ k * 2 ^ 1124 := by
  decide +kernel

/-- The search starts above the magnitude, and it comes to a grid that is fine enough. -/
theorem topExponent_bounds (hm : m.IsCanonical) (hpos : m.mantissa ≠ 0) :
    (10 : ℚ) ^ (m.topExponent - 23) < 3 * 2 ^ (m.exponent - 2) ∧
      (2 : ℚ) ^ ((m.mantissa.log2 : ℤ) + m.exponent) < 2 ^ 50 * 10 ^ m.topExponent ∧
        -323 ≤ m.topExponent := by
  have hlog : m.mantissa.log2 ≤ 52 := Nat.lt_succ_iff.mp ((Nat.log2_lt hpos).mpr hm.mantissa_lt)
  have hleast := hm.le_exponent
  have hgreatest := hm.exponent_le
  obtain ⟨i, hi⟩ : ∃ i : ℕ, (m.mantissa.log2 : ℤ) + m.exponent = i - 1074 :=
    ⟨(m.mantissa.log2 + m.exponent + 1074).toNat, by omega⟩
  obtain ⟨k, hk⟩ : ∃ k, k = (i * 30103 + 69378) / 100000 := ⟨_, rfl⟩
  have htop : m.topExponent = k - 323 := by
    rw [topExponent, hi, hk]
    omega
  obtain ⟨hfine, habove⟩ := power_bounds k (by omega)
  have hfineQ : (10 : ℚ) ^ k * 2 ^ 1128 < 3 * 2 ^ i * 10 ^ 346 := by
    have hi : (100000 * k - 69378) / 30103 ≤ i := by omega
    calc (10 : ℚ) ^ k * 2 ^ 1128 < 3 * 2 ^ ((100000 * k - 69378) / 30103) * 10 ^ 346 := by
          exact_mod_cast hfine
      _ ≤ 3 * 2 ^ i * 10 ^ 346 := by
          gcongr
          norm_num
  have haboveQ : (2 : ℚ) ^ i * 10 ^ 323 < 10 ^ k * 2 ^ 1124 := by
    have hi : i ≤ 100000 * (k + 1) / 30103 := by omega
    calc (2 : ℚ) ^ i * 10 ^ 323 ≤ 2 ^ (100000 * (k + 1) / 30103) * 10 ^ 323 := by
          gcongr
          norm_num
      _ < 10 ^ k * 2 ^ 1124 := by exact_mod_cast habove
  refine ⟨?_, ?_, by omega⟩
  · have hexp : m.topExponent - 23 = (k : ℤ) - 346 := by omega
    have hunit : (2 : ℚ) ^ ((i : ℤ) - 1128) ≤ 2 ^ (m.exponent - 2) :=
      zpow_le_zpow_right₀ (by norm_num) (by omega)
    calc (10 : ℚ) ^ (m.topExponent - 23) = 10 ^ k / 10 ^ 346 := by
          rw [hexp, zpow_sub₀ (by norm_num), zpow_natCast, zpow_ofNat]
      _ < 3 * 2 ^ i / 2 ^ 1128 := by
          rw [div_lt_div_iff₀ (by positivity) (by positivity)]
          exact hfineQ
      _ = 3 * 2 ^ ((i : ℤ) - 1128) := by
          rw [zpow_sub₀ (by norm_num), zpow_natCast, zpow_ofNat, mul_div_assoc]
      _ ≤ 3 * 2 ^ (m.exponent - 2) := by gcongr
  · calc (2 : ℚ) ^ ((m.mantissa.log2 : ℤ) + m.exponent) = 2 ^ i / 2 ^ 1074 := by
          rw [hi, zpow_sub₀ (by norm_num), zpow_natCast, zpow_ofNat]
      _ < 2 ^ 50 * 10 ^ k / 10 ^ 323 := by
          rw [div_lt_div_iff₀ (by positivity) (by positivity)]
          refine haboveQ.trans_eq ?_
          rw [mul_right_comm, ← pow_add, mul_comm]
      _ = 2 ^ 50 * 10 ^ m.topExponent := by
          rw [htop, zpow_sub₀ (by norm_num), zpow_natCast, zpow_ofNat, mul_div_assoc]

end Magnitude

/-! ## Shortest decimals -/

theorem Decimal.normalized_spec (d : Decimal) (h : d.digits ≠ 0) : d.normalized.value = d.value ∧
    d.normalized.digits ≠ 0 ∧ d.normalized.digits ≤ d.digits ∧
      d.exponent ≤ d.normalized.exponent := by
  fun_induction Decimal.normalized d with
  | case1 d hzero => exact absurd hzero h
  | case2 d hne hten ih =>
    obtain ⟨hvalue, hdigits, hle, hexponent⟩ := ih (by simp only; omega)
    simp only at hexponent
    refine ⟨hvalue.trans ?_, hdigits, hle.trans (Nat.div_le_self _ _), by omega⟩
    have hnat : d.digits = d.digits / 10 * 10 := by omega
    rw [Decimal.value, Decimal.value, zpow_add_one₀ (by norm_num)]
    simp only
    rw [mul_comm ((10 : ℚ) ^ d.exponent), ← mul_assoc]
    congr 1
    exact_mod_cast hnat.symm
  | case3 d hne hten => exact ⟨rfl, h, le_rfl, le_rfl⟩

namespace Magnitude

variable {m : Magnitude}

theorem ne_zero_of_reads (hpos : m.mantissa ≠ 0) {p : Int} {k : Nat} (h : m.reads p k = true) :
    k ≠ 0 := by
  obtain ⟨hlow, -, -⟩ := bounds_of_reads h
  rintro rfl
  have hfour : 1 ≤ 4 * m.mantissa - m.below := by
    rcases m.below_cases with ⟨h, -⟩ | ⟨h, -⟩ <;> omega
  have hfourQ : (1 : ℚ) ≤ (4 * m.mantissa - m.below : ℕ) := by exact_mod_cast hfour
  have hquarter : (0 : ℚ) < 2 ^ (m.exponent - 2) := by positivity
  rw [Nat.cast_zero, zero_mul] at hlow
  nlinarith

/-- The coarsest grid has few points below the magnitude. -/
theorem lt_of_reads_topExponent (hm : m.IsCanonical) (hpos : m.mantissa ≠ 0) {k : Nat}
    (h : m.reads m.topExponent k = true) : k < 2 ^ 51 := by
  obtain ⟨-, habove, -⟩ := topExponent_bounds hm hpos
  obtain ⟨-, hhigh, -⟩ := bounds_of_reads h
  push_cast at hhigh
  have hten : (0 : ℚ) < 10 ^ m.topExponent := by positivity
  have hmantissa : (m.mantissa : ℚ) + 1 ≤ 2 ^ (m.mantissa.log2 + 1) := by
    exact_mod_cast Nat.lt_log2_self
  have hvalue : (4 * m.mantissa + 2 : ℚ) * 2 ^ (m.exponent - 2) ≤
      2 * 2 ^ ((m.mantissa.log2 : ℤ) + m.exponent) := by
    calc (4 * m.mantissa + 2 : ℚ) * 2 ^ (m.exponent - 2)
        ≤ 4 * 2 ^ (m.mantissa.log2 + 1) * 2 ^ (m.exponent - 2) := by gcongr; linarith
      _ = 2 * 2 ^ ((m.mantissa.log2 : ℤ) + m.exponent) := by
          rw [zpow_add₀ (by norm_num), zpow_eq_quarters m.exponent, zpow_natCast, pow_succ]
          ring
  have hkQ : (k : ℚ) * 10 ^ m.topExponent < 2 ^ 51 * 10 ^ m.topExponent := by linarith
  exact_mod_cast lt_of_mul_lt_mul_right hkQ hten.le

/-- If the next coarser grid has no point, its step is large, so few steps are taken. -/
theorem lt_of_onGrid?_eq_none (hm : m.IsCanonical) (hpos : m.mantissa ≠ 0) {tie : Tie} {p : Int}
    {k : Nat} (h : m.reads p k = true) (hnone : m.onGrid? tie (p + 1) = none) : k < 2 ^ 57 := by
  obtain ⟨-, hhigh, -⟩ := bounds_of_reads h
  push_cast at hhigh
  have hcoarse : 3 * 2 ^ (m.exponent - 2) ≤ (10 : ℚ) ^ (p + 1) := by
    by_contra hlt
    obtain ⟨k', hk'⟩ := exists_onGrid? tie hpos (not_le.mp hlt)
    rw [hnone] at hk'
    simp at hk'
  rw [zpow_add_one₀ (by norm_num)] at hcoarse
  have hten : (0 : ℚ) < 10 ^ p := by positivity
  have hmantissa : (m.mantissa : ℚ) + 1 ≤ 2 ^ 53 := by exact_mod_cast hm.mantissa_lt
  have hkQ : (3 * k : ℚ) * 10 ^ p ≤ (10 * (4 * m.mantissa + 2)) * 10 ^ p := by nlinarith
  have hle : (3 * k : ℚ) ≤ 10 * (4 * m.mantissa + 2) := le_of_mul_le_mul_right hkQ hten
  have hlt : (k : ℚ) < 2 ^ 57 := by linarith
  exact_mod_cast hlt

/-- The shortest decimal is rounded to the magnitude, and it has few digits. -/
theorem shortest_spec (tie : Tie) (hm : m.IsCanonical) (hpos : m.mantissa ≠ 0) :
    m.IsNearest (m.shortest tie).value ∧ (m.shortest tie).digits ≠ 0 ∧
      (m.shortest tie).digits < 2 ^ 57 ∧ -346 ≤ (m.shortest tie).exponent := by
  obtain ⟨hfine, -, htop⟩ := topExponent_bounds hm hpos
  have hhit : ∃ k, m.onGrid? tie (m.topExponent - (23 : ℕ)) = some k :=
    exists_onGrid? tie hpos hfine
  obtain ⟨k, p, hsearch, hgrid, hle, hfirst⟩ := searchFrom_spec (by decide : 23 < 24) hhit
  have hreads := reads_of_onGrid? hgrid
  have hfew : k < 2 ^ 57 := by
    rcases hfirst with rfl | hnone
    · exact (lt_of_reads_topExponent hm hpos hreads).trans (by norm_num)
    · exact lt_of_onGrid?_eq_none hm hpos hreads hnone
  obtain ⟨hvalue, hdigits, hdigitsLe, hexponent⟩ :=
    Decimal.normalized_spec ⟨k, p⟩ (ne_zero_of_reads hpos hreads)
  simp only at hexponent
  rw [shortest, if_neg hpos, hsearch]
  refine ⟨?_, hdigits, hdigitsLe.trans_lt hfew, by omega⟩
  rw [hvalue]
  exact isNearest_of_reads hm hpos hreads

end Magnitude

end Scorecard.Number
