import Mathlib
import Scorecard.Proofs.Number.Nearest

/-!
# Numbers are converted to the nearest double

`nearest` rounds a rational to the nearest double (`nearest_eq_ofMagnitude`), so integers of up to
53 bits become doubles as they are, and greater ones change by a part in `2 ^ 53` at most
(`ofInt_spec`).
-/

namespace Scorecard.Number

/-- A power with a negative exponent is a quotient. -/
theorem zpow_eq_div {b : ℕ} (h : b ≠ 0) (e : ℤ) :
    (b : ℚ) ^ e = (b ^ e.toNat : ℕ) / (b ^ (-e).toNat : ℕ) := by
  have hb : (b : ℚ) ≠ 0 := by exact_mod_cast h
  rcases le_total 0 e with he | he
  · have hneg : (-e).toNat = 0 := by omega
    have hcast : (b : ℚ) ^ e = b ^ e.toNat := by rw [← zpow_natCast, Int.toNat_of_nonneg he]
    rw [hneg, hcast]
    simp
  · have hpos : e.toNat = 0 := by omega
    have hcast : (b : ℚ) ^ e = ((b : ℚ) ^ (-e).toNat)⁻¹ := by
      rw [← zpow_natCast, Int.toNat_of_nonneg (by omega), ← zpow_neg, neg_neg]
    rw [hpos, hcast]
    simp

namespace Ratio

/-- The number that the ratio stands for. -/
def value (r : Ratio) : ℚ := r.num / r.den

variable {r : Ratio}

theorem log2_bounds (hnum : r.num ≠ 0) (hden : r.den ≠ 0) :
    (2 : ℚ) ^ r.log2 ≤ r.value ∧ r.value < 2 ^ (r.log2 + 1) := by
  obtain ⟨num, den⟩ := r
  have hdenQ : (0 : ℚ) < den := by exact_mod_cast Nat.pos_of_ne_zero hden
  have hbelow : (2 : ℚ) ^ ((num.log2 : ℤ) - den.log2 - 1) ≤ num / den := by
    have hn : (2 : ℚ) ^ num.log2 ≤ num := by exact_mod_cast Nat.log2_self_le hnum
    have hd : (den : ℚ) ≤ 2 ^ (den.log2 + 1) := by exact_mod_cast Nat.lt_log2_self.le
    rw [le_div_iff₀ hdenQ]
    calc (2 : ℚ) ^ ((num.log2 : ℤ) - den.log2 - 1) * den
        ≤ 2 ^ ((num.log2 : ℤ) - den.log2 - 1) * 2 ^ (den.log2 + 1) := by gcongr
      _ = 2 ^ num.log2 := by
          rw [← zpow_natCast, ← zpow_natCast, ← zpow_add₀ (by norm_num)]
          congr 1
          push_cast
          ring
      _ ≤ num := hn
  have habove : (num : ℚ) / den < 2 ^ ((num.log2 : ℤ) - den.log2 + 1) := by
    have hn : (num : ℚ) < 2 ^ (num.log2 + 1) := by exact_mod_cast Nat.lt_log2_self
    have hd : (2 : ℚ) ^ den.log2 ≤ den := by exact_mod_cast Nat.log2_self_le hden
    rw [div_lt_iff₀ hdenQ]
    calc (num : ℚ) < 2 ^ (num.log2 + 1) := hn
      _ = 2 ^ ((num.log2 : ℤ) - den.log2 + 1) * 2 ^ den.log2 := by
          rw [← zpow_natCast, ← zpow_natCast, ← zpow_add₀ (by norm_num)]
          congr 1
          push_cast
          ring
      _ ≤ 2 ^ ((num.log2 : ℤ) - den.log2 + 1) * den := by gcongr
  have hcompare : ∀ e : ℤ, num * Nat.pow 2 (-e).toNat < den * Nat.pow 2 e.toNat ↔
      (num : ℚ) / den < 2 ^ e := by
    intro e
    have hpow := zpow_eq_div (b := 2) (by decide) e
    have hpos : (0 : ℚ) < (2 ^ (-e).toNat : ℕ) := by positivity
    rw [Nat.cast_two] at hpow
    rw [hpow, div_lt_div_iff₀ hdenQ hpos, Nat.pow_eq, Nat.pow_eq, mul_comm den]
    exact_mod_cast Iff.rfl
  unfold Ratio.log2 Ratio.value
  simp only
  split
  · next h =>
    refine ⟨hbelow, ?_⟩
    rw [sub_add_cancel]
    exact (hcompare _).mp h
  · next h => exact ⟨not_lt.mp fun hlt => h ((hcompare _).mpr hlt), habove⟩

end Ratio

/-- A quotient half-way between two integers is rounded to the even one. -/
theorem even_roundDiv {num den : Nat} (hden : 0 < den)
    (h : 2 * num + den = 2 * (roundDiv .toEven num den * den) ∨
      2 * num = 2 * (roundDiv .toEven num den * den) + den) : Even (roundDiv .toEven num den) := by
  have hdiv := Nat.div_add_mod num den
  have hmod := Nat.mod_lt num hden
  unfold roundDiv at h ⊢
  simp only at h ⊢
  generalize num / den = below at *
  generalize num % den = rest at *
  have hcomm : below * den = den * below := Nat.mul_comm _ _
  split at h
  · omega
  · next hge =>
    rw [if_neg hge]
    split at h
    · rw [Nat.add_mul, Nat.one_mul] at h
      omega
    · next hle =>
      rw [if_neg hle, Nat.even_iff]
      omega

/-- A quotient is rounded to the nearest integer. -/
theorem near_roundDiv (n : ℕ) {d : ℕ} (hd : 0 < d) :
    2 * |(n : ℚ) / d - roundDiv .toEven n d| ≤ 1 ∧
      (2 * |(n : ℚ) / d - roundDiv .toEven n d| = 1 → Even (roundDiv .toEven n d)) := by
  have hdpos : (0 : ℚ) < d := by exact_mod_cast hd
  obtain ⟨hlow, hhigh⟩ := roundDiv_near .toEven n hd
  have heven := @even_roundDiv n d hd
  generalize roundDiv .toEven n d = k at *
  have hlowQ : 2 * (n : ℚ) ≤ 2 * (k * d) + d := by exact_mod_cast hlow
  have hhighQ : 2 * ((k : ℚ) * d) ≤ 2 * n + d := by exact_mod_cast hhigh
  have hdist : 2 * |(n : ℚ) / d - k| = 2 * |(n : ℚ) - k * d| / d := by
    have hsplit : (n : ℚ) / d - k = (n - k * d) / d := by
      rw [sub_div, mul_div_cancel_right₀ _ hdpos.ne']
    rw [hsplit, abs_div, abs_of_pos hdpos, mul_div_assoc]
  rw [hdist, div_le_one hdpos, div_eq_one_iff_eq hdpos.ne']
  rcases abs_cases ((n : ℚ) - k * d) with ⟨habs, -⟩ | ⟨habs, -⟩ <;> rw [habs]
  · refine ⟨by linarith, fun htie => heven (.inr ?_)⟩
    have htieQ : 2 * (n : ℚ) = 2 * (k * d) + d := by linarith
    exact_mod_cast htieQ
  · refine ⟨by linarith, fun htie => heven (.inl ?_)⟩
    have htieQ : 2 * (n : ℚ) + d = 2 * (k * d) := by linarith
    exact_mod_cast htieQ

namespace Ratio

variable {r : Ratio}

/-- A positive ratio is rounded in the unit that doubles have there. -/
theorem roundsTo_toMagnitude (hnum : r.num ≠ 0) (hden : r.den ≠ 0) :
    RoundsTo r.value r.toMagnitude.mantissa r.toMagnitude.exponent := by
  obtain ⟨hbelow, habove⟩ := log2_bounds hnum hden
  generalize he : max leastExponent (r.log2 - 52) = e
  generalize hn : r.num * Nat.pow 2 (-e).toNat = n
  generalize hd : r.den * Nat.pow 2 e.toNat = d
  have hdpos : 0 < d := by
    rw [← hd]
    exact Nat.mul_pos (Nat.pos_of_ne_zero hden) (Nat.pos_of_ne_zero (by simp))
  have hscaled : r.value / 2 ^ e = n / d := by
    have hpow := zpow_eq_div (b := 2) (by decide) e
    rw [Nat.cast_two] at hpow
    have hdenQ : (r.den : ℚ) ≠ 0 := by exact_mod_cast hden
    have hup : ((2 ^ e.toNat : ℕ) : ℚ) ≠ 0 := by positivity
    have hdown : ((2 ^ (-e).toNat : ℕ) : ℚ) ≠ 0 := by positivity
    rw [hpow, ← hn, ← hd, Ratio.value, Nat.pow_eq, Nat.pow_eq, Nat.cast_mul, Nat.cast_mul]
    field_simp
  have htoMagnitude : r.toMagnitude = ⟨roundDiv .toEven n d, e⟩ := by
    rw [← hn, ← hd, ← he]
    rfl
  obtain ⟨hnear, htie⟩ := near_roundDiv n hdpos
  rw [← hscaled] at hnear htie
  rw [htoMagnitude]
  exact .of_scaled (by rw [← he]; exact max_comm _ _) (.inr hbelow) habove hnear htie

theorem isNearest_carried_toMagnitude (hnum : r.num ≠ 0) (hden : r.den ≠ 0) :
    (carried r.toMagnitude.mantissa r.toMagnitude.exponent).IsNearest r.value :=
  ⟨_, _, roundsTo_toMagnitude hnum hden, rfl⟩

end Ratio

/-- The bits of a magnitude carry over by themselves. -/
theorem toBits_carried {r : ℕ} {e : ℤ} (h : -1074 ≤ e) :
    (carried r e).toBits = Magnitude.toBits ⟨r, e⟩ := by
  unfold carried
  split
  · next hr =>
    rw [Magnitude.toBits_eq, Magnitude.toBits_eq, hr]
    simp only
    omega
  · rfl

/-- A rational is converted to the nearest double. -/
theorem nearest_eq_ofMagnitude (negative : Bool) {r : Ratio} (hnum : r.num ≠ 0) (hden : r.den ≠ 0)
    {m : Magnitude} (hm : m.IsNearest r.value) (he : m.exponent ≤ 971) :
    nearest negative r = ofMagnitude negative m := by
  obtain rfl := hm.unique (Ratio.isNearest_carried_toMagnitude hnum hden)
  have hbits := toBits_carried (r := r.toMagnitude.mantissa)
    (Ratio.roundsTo_toMagnitude hnum hden).least
  have hlt := (hm.isCanonical he).toBits_lt
  rw [nearest, if_neg hnum, ofMagnitude, hbits, min_eq_right]
  rw [← hbits]
  exact hlt.le

/-! ## Integers -/

theorem natCast_eq_scaled {n : ℕ} (h : n.log2 ≤ 52) :
    ((n * 2 ^ (52 - n.log2) : ℕ) : ℚ) * 2 ^ (n.log2 - 52 : ℤ) = n := by
  have hzero : ((52 - n.log2 : ℕ) : ℤ) + (n.log2 - 52 : ℤ) = 0 := by omega
  rw [Nat.cast_mul, mul_assoc, Nat.cast_pow, Nat.cast_two, ← zpow_natCast,
    ← zpow_add₀ (by norm_num), hzero, zpow_zero, mul_one]

/-- An integer of up to 53 bits is rounded to itself. -/
theorem roundsTo_natCast {n : ℕ} (hn : n ≠ 0) (h : n < 2 ^ 53) :
    RoundsTo n (n * 2 ^ (52 - n.log2)) (n.log2 - 52 : ℤ) := by
  have hlog : n.log2 ≤ 52 := Nat.lt_succ_iff.mp ((Nat.log2_lt hn).mpr h)
  have hpow : 2 ^ n.log2 * 2 ^ (52 - n.log2) = 2 ^ 52 := by
    rw [← pow_add]
    congr 1
    omega
  have hfull : 2 ^ 52 ≤ n * 2 ^ (52 - n.log2) := by
    rw [← hpow]
    exact Nat.mul_le_mul_right _ (Nat.log2_self_le hn)
  have hlt : n * 2 ^ (52 - n.log2) < 2 ^ 53 := by
    calc n * 2 ^ (52 - n.log2) < 2 ^ (n.log2 + 1) * 2 ^ (52 - n.log2) :=
          Nat.mul_lt_mul_of_pos_right Nat.lt_log2_self (by positivity)
      _ = 2 ^ 53 := by rw [pow_succ, mul_right_comm, hpow]; norm_num
  have hrounds := RoundsTo.of_eq (e := (n.log2 - 52 : ℤ)) (by omega) (.inr hfull) hlt
  rwa [natCast_eq_scaled hlog] at hrounds

/-- What an integer is rounded to is an integer again, and it differs by less than a part in
`2 ^ 53`. -/
theorem roundsTo_natCast_near {n r : ℕ} {e : ℤ} (hn : n ≠ 0) (h : RoundsTo n r e) :
    ∃ k : ℕ, (r : ℚ) * 2 ^ e = k ∧ k ≤ n + n / 2 ^ 53 ∧ n ≤ k + n / 2 ^ 53 := by
  by_cases hsmall : n < 2 ^ 53
  · have hlog : n.log2 ≤ 52 := Nat.lt_succ_iff.mp ((Nat.log2_lt hn).mpr hsmall)
    obtain ⟨rfl, rfl⟩ := h.unique (roundsTo_natCast hn hsmall)
    exact ⟨n, natCast_eq_scaled hlog, by omega, by omega⟩
  · have he : 0 < e := by
      by_contra hneg
      have hunit : (2 : ℚ) ^ e ≤ 2 ^ (0 : ℤ) := zpow_le_zpow_right₀ (by norm_num) (by omega)
      have hn : (2 : ℚ) ^ 53 ≤ n := by exact_mod_cast not_lt.mp hsmall
      have := h.lt
      rw [zpow_zero] at hunit
      linarith
    obtain ⟨j, rfl⟩ : ∃ j : ℕ, e = j := ⟨e.toNat, by omega⟩
    have hnear := h.abs_sub_le
    have hfull := h.full.resolve_left (by omega)
    rw [zpow_natCast] at hnear hfull ⊢
    refine ⟨r * 2 ^ j, by push_cast; rfl, ?_, ?_⟩
    · have hle : (r * 2 ^ j : ℕ) * 2 ^ 53 ≤ n * 2 ^ 53 + n := by
        have := (abs_le.mp hnear).1
        have hQ : ((r : ℚ) * 2 ^ j) * 2 ^ 53 ≤ n * 2 ^ 53 + n := by linarith
        exact_mod_cast hQ
      omega
    · have hle : n * 2 ^ 53 ≤ (r * 2 ^ j : ℕ) * 2 ^ 53 + n := by
        have := (abs_le.mp hnear).2
        have hQ : (n : ℚ) * 2 ^ 53 ≤ ((r : ℚ) * 2 ^ j) * 2 ^ 53 + n := by linarith
        exact_mod_cast hQ
      omega

theorem ofInt_natCast (n : ℕ) : ofInt n = nearest false ⟨n, 1⟩ := by
  have hneg : decide ((n : ℤ) < 0) = false := by simp
  rw [ofInt, hneg, Int.natAbs_natCast]

/-- The double of an integer. -/
theorem ofInt_spec {n : ℕ} (h : n < 2 ^ 64) : (ofInt n).isFinite = true ∧
    isNegative (ofInt n) = false ∧ ∃ k : ℕ, (magnitude (ofInt n)).value = k ∧
      k ≤ n + n / 2 ^ 53 ∧ n ≤ k + n / 2 ^ 53 := by
  rw [ofInt_natCast]
  by_cases hn : n = 0
  · subst hn
    refine ⟨by decide +kernel, by decide +kernel, 0, ?_, by omega, by omega⟩
    have hzero : magnitude (nearest false ⟨0, 1⟩) = ⟨0, -1074⟩ := by decide +kernel
    rw [hzero, Magnitude.value, Nat.cast_zero, zero_mul]
  · have hrounds := Ratio.roundsTo_toMagnitude (r := ⟨n, 1⟩) hn one_ne_zero
    have hvalue : Ratio.value ⟨n, 1⟩ = n := by simp [Ratio.value]
    have hnearest := Ratio.isNearest_carried_toMagnitude (r := ⟨n, 1⟩) hn one_ne_zero
    generalize Ratio.toMagnitude ⟨n, 1⟩ = m at *
    have he : m.exponent ≤ 64 := by
      rcases hrounds.full with hleast | hfull
      · omega
      · by_contra hlt
        rw [hvalue] at hfull
        have hunit : (2 : ℚ) ^ (64 : ℤ) ≤ 2 ^ m.exponent :=
          zpow_le_zpow_right₀ (by norm_num) (by omega)
        have hn : (n : ℚ) < 2 ^ (64 : ℤ) := by exact_mod_cast h
        linarith
    have hcarried : (carried m.mantissa m.exponent).exponent ≤ 971 := by
      unfold carried
      split
      · simp only
        omega
      · simp only
        omega
    have hcanonical := hnearest.isCanonical hcarried
    rw [nearest_eq_ofMagnitude false hn one_ne_zero hnearest hcarried,
      magnitude_ofMagnitude false hcanonical, Magnitude.value_carried]
    rw [hvalue] at hrounds
    exact ⟨isFinite_ofMagnitude false hcanonical, isNegative_ofMagnitude false hcanonical,
      roundsTo_natCast_near hn hrounds⟩

end Scorecard.Number
