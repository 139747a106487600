import Mathlib
import Scorecard.Proofs.Number.Nearest

/-!
# Products and quotients are rounded to nearest

A product or a quotient of doubles is computed as an integer with two more bits, which say where the
exact result lies between this integer and the next one.  `Approximates` is what they say; it is
kept when bits are dropped (`approximates_shiftRight`), and it is enough to round
(`roundsTo_shifted`).  So the product and the quotient of two doubles are the doubles nearest
to the product and the quotient of their values (`mul_eq_ofMagnitude`, `div_eq_ofMagnitude`).
-/

namespace Scorecard.Number

open Float.Model Float.Model.UnpackedFloat

/-! ## Mantissas with residual bits -/

/-- Where a number lies between the mantissa and the next integer. -/
def Approximates (em : ExtendedMantissa) (y : ℚ) : Prop :=
  match em.roundBit, em.stickyBit with
  | false, false => y = em.mantissa
  | false, true => em.mantissa < y ∧ y < em.mantissa + 1 / 2
  | true, false => y = em.mantissa + 1 / 2
  | true, true => em.mantissa + 1 / 2 < y ∧ y < em.mantissa + 1

theorem Approximates.le {em : ExtendedMantissa} {y : ℚ} (h : Approximates em y) :
    em.mantissa ≤ y ∧ y < em.mantissa + 1 := by
  obtain ⟨m, rb, sb⟩ := em
  cases rb <;> cases sb <;> simp only [Approximates] at h ⊢ <;> constructor <;> linarith

theorem approximates_shiftRightOne {em : ExtendedMantissa} {y : ℚ} (h : Approximates em y) :
    Approximates em.shiftRightOne (y / 2) := by
  obtain ⟨m, rb, sb⟩ := em
  obtain ⟨k, hk | hk⟩ := Nat.even_or_odd' m
  · have hhalf : m / 2 = k := by omega
    have hbit : (m % 2 != 0) = false := by simp [hk]
    have hm : (m : ℚ) = 2 * k := by rw [hk]; push_cast; ring
    cases rb <;> cases sb <;>
      simp only [Approximates, ExtendedMantissa.shiftRightOne, hhalf, hbit, hm, Bool.or_false,
        Bool.or_true] at h ⊢ <;>
      first | linarith | (constructor <;> linarith)
  · have hhalf : m / 2 = k := by omega
    have hbit : (m % 2 != 0) = true := by simp [hk]
    have hm : (m : ℚ) = 2 * k + 1 := by rw [hk]; push_cast; ring
    cases rb <;> cases sb <;>
      simp only [Approximates, ExtendedMantissa.shiftRightOne, hhalf, hbit, hm, Bool.or_false,
        Bool.or_true] at h ⊢ <;>
      first | linarith | (constructor <;> linarith)

theorem approximates_shiftRight {em : ExtendedMantissa} {y : ℚ} (h : Approximates em y) (n : Nat) :
    Approximates (em >>> n) (y / 2 ^ n) := by
  induction n with
  | zero =>
    rw [pow_zero, div_one]
    exact h
  | succ n ih =>
    rw [pow_succ, ← div_div]
    exact approximates_shiftRightOne ih

/-- The rounded mantissa is the integer nearest to the number, an even one if it lies half-way. -/
theorem near_roundedMantissa {em : ExtendedMantissa} {y : ℚ} (h : Approximates em y) :
    2 * |y - em.roundedMantissa| ≤ 1 ∧
      (2 * |y - em.roundedMantissa| = 1 → Even em.roundedMantissa) := by
  obtain ⟨m, rb, sb⟩ := em
  cases rb <;> cases sb <;> simp only [Approximates] at h <;>
    simp only [ExtendedMantissa.roundedMantissa, ExtendedMantissa.accuracy,
      Accuracy.roundToNearestEven]
  · rw [h, sub_self, abs_zero]
    norm_num
  · rw [abs_of_pos (by linarith)]
    exact ⟨by linarith, fun h => by linarith⟩
  · obtain ⟨k, rfl | rfl⟩ := Nat.even_or_odd' m
    · have hround : 2 * k + 2 * k % 2 = 2 * k := by omega
      rw [hround, h, add_sub_cancel_left]
      exact ⟨by norm_num, fun _ => even_two_mul k⟩
    · have hround : 2 * k + 1 + (2 * k + 1) % 2 = 2 * (k + 1) := by omega
      have hdist : ((2 * k + 1 : ℕ) : ℚ) + 1 / 2 - (2 * (k + 1) : ℕ) = -(1 / 2) := by
        push_cast
        ring
      rw [hround, h, hdist]
      exact ⟨by norm_num, fun _ => even_two_mul (k + 1)⟩
  · push_cast
    rw [abs_of_neg (by linarith)]
    exact ⟨by linarith, fun h => by linarith⟩

/-! ## Rounding -/

/-- The exponent that the mantissa should have. -/
theorem targetExponent_eq (m : Nat) (e : Int) :
    Format.binary64.targetExponent (totalExponent m e) = max (m.log2 + e - 52) (-1074) := by
  simp only [Format.targetExponent, totalExponent, Format.mantissaBits, Format.minExponent]
  norm_num
  omega

/-- A mantissa that is not too small, in a unit that is not too large, is rounded in the unit that
doubles have there. -/
theorem roundsTo_shifted {m : Nat} {e t : Int} {acc : Accuracy} {q : ℚ}
    (h : Approximates (.ofMantissaAndAccuracy m acc) (q / 2 ^ e))
    (ht : t = max (m.log2 + e - 52) (-1074)) (he : e ≤ t) :
    RoundsTo q (ExtendedMantissa.ofMantissaAndAccuracy m acc >>> (t - e).toNat).roundedMantissa
      t := by
  have hscale : q / 2 ^ e / 2 ^ (t - e).toNat = q / 2 ^ t := by
    have hexp : t = e + (t - e).toNat := by omega
    rw [div_div, ← zpow_natCast, ← zpow_add₀ (by norm_num), ← hexp]
  have hmantissa : (ExtendedMantissa.ofMantissaAndAccuracy m acc).mantissa = m := by
    unfold ExtendedMantissa.ofMantissaAndAccuracy
    split <;> rfl
  obtain ⟨hle, hlt⟩ := h.le
  rw [hmantissa, le_div_iff₀ (by positivity)] at hle
  rw [hmantissa, div_lt_iff₀ (by positivity)] at hlt
  have hbelow : t = -1074 ∨ (2 : ℚ) ^ ((m.log2 : ℤ) + e) ≤ q := by
    by_cases hm : m = 0
    · subst hm
      rw [Nat.log2_zero] at ht
      omega
    · have hlog : ((2 : ℚ) ^ m.log2) ≤ m := by exact_mod_cast Nat.log2_self_le hm
      rw [zpow_add₀ (by norm_num), zpow_natCast]
      exact .inr ((mul_le_mul_of_nonneg_right hlog (by positivity)).trans hle)
  have habove : q < (2 : ℚ) ^ ((m.log2 : ℤ) + e + 1) := by
    have hlog : (m : ℚ) + 1 ≤ 2 ^ (m.log2 + 1) := by exact_mod_cast Nat.lt_log2_self
    calc q < (m + 1) * 2 ^ e := hlt
      _ ≤ 2 ^ (m.log2 + 1) * 2 ^ e := by gcongr
      _ = 2 ^ ((m.log2 : ℤ) + e + 1) := by
          rw [← zpow_natCast, ← zpow_add₀ (by norm_num)]
          congr 1
          push_cast
          ring
  obtain ⟨hnear, htie⟩ :=
    near_roundedMantissa (hscale ▸ approximates_shiftRight h (t - e).toNat)
  exact .of_scaled ht hbelow habove hnear htie

/-- A rounded mantissa needs at most one more shift, which loses no bit. -/
theorem shiftToTargetExponent_exact {q : ℚ} {r : Nat} {e : Int} (h : RoundsTo q r e) :
    (shiftToTargetExponent .binary64 r e .exact).1.mantissa = (carried r e).mantissa ∧
      (shiftToTargetExponent .binary64 r e .exact).2 = (carried r e).exponent := by
  have hleast := h.least
  unfold shiftToTargetExponent carried
  rw [targetExponent_eq]
  split
  · next hr =>
    subst hr
    have hlog : (2 ^ 53 : Nat).log2 = 53 := Nat.log2_two_pow
    have hshift : (max (((2 ^ 53 : Nat).log2 : Int) + e - 52) (-1074) - e).toNat = 1 := by
      rw [hlog]
      omega
    unfold shiftToExponent
    simp only [hshift]
    exact ⟨rfl, rfl⟩
  · next hr =>
    have hlog : r.log2 ≤ 52 := by
      have hle := h.le
      by_cases hzero : r = 0
      · rw [hzero]
        decide
      · exact Nat.lt_succ_iff.mp ((Nat.log2_lt hzero).mpr (by omega))
    have hshift : (max ((r.log2 : Int) + e - 52) (-1074) - e).toNat = 0 := by omega
    unfold shiftToExponent
    simp only [hshift]
    exact ⟨rfl, by simp⟩

theorem roundWithAccuracy_eq (negative : Bool) {m : Nat} {e : Int} {acc : Accuracy} {q : ℚ}
    (h : Approximates (.ofMantissaAndAccuracy m acc) (q / 2 ^ e))
    (he : e ≤ max (m.log2 + e - 52) (-1074)) : ∃ n : Magnitude, n.IsNearest q ∧
      roundWithAccuracy .binary64 (signOf negative) m e acc = unpacked negative n := by
  have hrounds := roundsTo_shifted h rfl he
  refine ⟨_, ⟨_, _, hrounds, rfl⟩, ?_⟩
  obtain ⟨hmantissa, hexponent⟩ := shiftToTargetExponent_exact hrounds
  have hfirst : shiftToTargetExponent .binary64 m e acc =
      (ExtendedMantissa.ofMantissaAndAccuracy m acc >>>
        (max ((m.log2 : Int) + e - 52) (-1074) - e).toNat,
        max ((m.log2 : Int) + e - 52) (-1074)) := by
    unfold shiftToTargetExponent shiftToExponent
    rw [targetExponent_eq]
    simp only [Prod.mk.injEq, true_and]
    omega
  unfold roundWithAccuracy unpacked
  rw [hfirst]
  simp only [hmantissa, hexponent]

/-- What is packed is the double of the sign and the magnitude. -/
theorem pack_unpacked (negative : Bool) {n : Magnitude} (h : n.IsCanonical) :
    Float.ofModel (.pack (unpacked negative n)) = ofMagnitude negative n := by
  have hunpack := unpack_of_isFinite (isFinite_ofMagnitude negative h)
  rw [isNegative_ofMagnitude negative h, magnitude_ofMagnitude negative h] at hunpack
  rw [← hunpack]
  exact Float.ofBits_toBits (ofMagnitude negative n)

theorem isNearest_zero : Magnitude.IsNearest ⟨0, -1074⟩ 0 := by
  have h : RoundsTo ((0 : ℕ) * 2 ^ (-1074 : ℤ)) 0 (-1074) :=
    .of_eq le_rfl (.inl rfl) (by norm_num)
  rw [Nat.cast_zero, zero_mul] at h
  exact ⟨0, -1074, h, rfl⟩

theorem unpacked_of_zero (negative : Bool) {n : Magnitude} (h : n.mantissa = 0) :
    unpacked negative n = .zero (signOf negative) := dif_pos h

theorem signOf_mul (s t : Bool) : signOf s * signOf t = signOf (s != t) := by
  cases s <;> cases t <;> rfl

theorem signOf_div (s t : Bool) : signOf s / signOf t = signOf (s != t) := by
  cases s <;> cases t <;> rfl

/-! ## Products -/

theorem approximates_exact (m : Nat) : Approximates (.ofMantissaAndAccuracy m .exact) m := rfl

/-- The product of mantissas has all the bits of a mantissa unless its unit is below the least. -/
theorem unit_mul_le {m n : Magnitude} (hm : m.IsCanonical) (hn : n.IsCanonical)
    (hm0 : m.mantissa ≠ 0) (hn0 : n.mantissa ≠ 0) : m.exponent + n.exponent ≤
      max ((m.mantissa * n.mantissa).log2 + (m.exponent + n.exponent) - 52) (-1074) := by
  have hne : m.mantissa * n.mantissa ≠ 0 := Nat.mul_ne_zero hm0 hn0
  by_cases hleast : m.exponent = -1074 ∧ n.exponent = -1074
  · omega
  · have hfull : 2 ^ 52 ≤ m.mantissa * n.mantissa := by
      rcases hm.full with hfull | hm1
      · exact hfull.trans (Nat.le_mul_of_pos_right _ (Nat.pos_of_ne_zero hn0))
      · have hfull := hn.full.resolve_right fun hn1 => hleast ⟨hm1, hn1⟩
        exact hfull.trans (Nat.le_mul_of_pos_left _ (Nat.pos_of_ne_zero hm0))
    have hlog : 52 ≤ (m.mantissa * n.mantissa).log2 := (Nat.le_log2 hne).mpr hfull
    omega

theorem mul_unpacked (s t : Bool) {m n : Magnitude} (hm : m.IsCanonical) (hn : n.IsCanonical) :
    ∃ k : Magnitude, k.IsNearest (m.value * n.value) ∧
      UnpackedFloat.mul .binary64 (unpacked s m) (unpacked t n) = unpacked (s != t) k := by
  have hzero : unpacked (s != t) ⟨0, -1074⟩ = .zero (signOf s * signOf t) := by
    rw [signOf_mul]
    rfl
  by_cases hm0 : m.mantissa = 0
  · refine ⟨⟨0, -1074⟩, ?_, ?_⟩
    · rw [Magnitude.value, hm0, Nat.cast_zero, zero_mul, zero_mul]
      exact isNearest_zero
    · rw [unpacked_of_zero s hm0, hzero]
      unfold unpacked
      split <;> rfl
  · by_cases hn0 : n.mantissa = 0
    · refine ⟨⟨0, -1074⟩, ?_, ?_⟩
      · rw [Magnitude.value, Magnitude.value, hn0, Nat.cast_zero, zero_mul, mul_zero]
        exact isNearest_zero
      · rw [unpacked_of_zero t hn0, hzero]
        unfold unpacked
        rw [dif_neg hm0]
        rfl
    · have happrox : Approximates (.ofMantissaAndAccuracy (m.mantissa * n.mantissa) .exact)
          (m.value * n.value / 2 ^ (m.exponent + n.exponent)) := by
        have hvalue : m.value * n.value / 2 ^ (m.exponent + n.exponent) =
            (m.mantissa * n.mantissa : ℕ) := by
          rw [Magnitude.value, Magnitude.value, zpow_add₀ (by norm_num), Nat.cast_mul]
          field_simp
        rw [hvalue]
        exact approximates_exact _
      obtain ⟨k, hk, hround⟩ :=
        roundWithAccuracy_eq (s != t) happrox (unit_mul_le hm hn hm0 hn0)
      refine ⟨k, hk, ?_⟩
      rw [← hround, ← signOf_mul, unpacked, unpacked, dif_neg hm0, dif_neg hn0]
      rfl

/-- A product of doubles is the double nearest to the product of their values. -/
theorem mul_eq_ofMagnitude {x y : Float} (hx : x.isFinite = true) (hy : y.isFinite = true)
    {n : Magnitude} (hn : n.IsNearest ((magnitude x).value * (magnitude y).value))
    (he : n.exponent ≤ 971) : x * y = ofMagnitude (isNegative x != isNegative y) n := by
  obtain ⟨k, hk, hmul⟩ := mul_unpacked (isNegative x) (isNegative y) (isCanonical_magnitude hx)
    (isCanonical_magnitude hy)
  obtain rfl := hn.unique hk
  show Float.ofModel (.pack (UnpackedFloat.mul .binary64 x.toModel.unpack y.toModel.unpack)) = _
  rw [unpack_of_isFinite hx, unpack_of_isFinite hy, hmul, pack_unpacked _ (hn.isCanonical he)]

/-- A product of doubles that lies in their range is finite. -/
theorem isFinite_mul {x y : Float} (hx : x.isFinite = true) (hy : y.isFinite = true)
    (h : (magnitude x).value * (magnitude y).value < (2 ^ 54 - 1) * 2 ^ (970 : ℤ)) :
    (x * y).isFinite = true := by
  obtain ⟨n, hn, -⟩ := mul_unpacked (isNegative x) (isNegative y) (isCanonical_magnitude hx)
    (isCanonical_magnitude hy)
  have he := hn.exponent_le h
  rw [mul_eq_ofMagnitude hx hy hn he]
  exact isFinite_ofMagnitude _ (hn.isCanonical he)

/-! ## Quotients -/

/-- A quotient of integers lies where its remainder says. -/
theorem approximates_fraction (m : Nat) {d : Nat} (h : 0 < d) :
    Approximates (.ofMantissaAndAccuracy (m / d) (accuracyOfFraction (m % d) d)) (m / d : ℚ) := by
  have hd : (0 : ℚ) < d := by exact_mod_cast h
  have hsplit : (m : ℚ) / d = (m / d : ℕ) + (m % d : ℕ) / d := by
    have hnat : (m : ℚ) = d * (m / d : ℕ) + (m % d : ℕ) := by
      exact_mod_cast (Nat.div_add_mod m d).symm
    rw [div_eq_iff hd.ne', add_mul, div_mul_cancel₀ _ hd.ne']
    linarith
  have hlt : m % d < d := Nat.mod_lt m h
  rw [hsplit]
  generalize m % d = r at *
  generalize m / d = k at *
  unfold accuracyOfFraction
  split
  · next hr =>
    rw [hr, Nat.cast_zero, zero_div, add_zero]
    exact approximates_exact k
  · next hr =>
    have hpos : (0 : ℚ) < r := by exact_mod_cast Nat.pos_of_ne_zero hr
    have hltQ : (r : ℚ) < d := by exact_mod_cast hlt
    rcases lt_trichotomy (2 * r) d with hcmp | hcmp | hcmp
    · rw [compare_lt_iff_lt.mpr hcmp]
      have hhalf : (2 * r : ℚ) < d := by exact_mod_cast hcmp
      have hfraction : (r : ℚ) / d < 1 / 2 := by
        rw [div_lt_div_iff₀ hd (by norm_num)]
        linarith
      have hfractionPos : 0 < (r : ℚ) / d := by positivity
      show (k : ℚ) < k + r / d ∧ (k : ℚ) + r / d < k + 1 / 2
      exact ⟨by linarith, by linarith⟩
    · rw [compare_eq_iff_eq.mpr hcmp]
      have hhalf : (2 * r : ℚ) = d := by exact_mod_cast hcmp
      show (k : ℚ) + r / d = k + 1 / 2
      rw [← hhalf]
      field_simp
    · rw [compare_gt_iff_gt.mpr hcmp]
      have hhalf : (d : ℚ) < 2 * r := by exact_mod_cast hcmp
      have hfraction : 1 / 2 < (r : ℚ) / d := by
        rw [div_lt_div_iff₀ (by norm_num) hd]
        linarith
      have hfractionLt : (r : ℚ) / d < 1 := (div_lt_one hd).mpr hltQ
      show (k : ℚ) + 1 / 2 < k + r / d ∧ (k : ℚ) + r / d < k + 1
      exact ⟨by linarith, by linarith⟩

/-- The quotient is computed in a unit in which it has all the bits of a mantissa, unless the unit
is below the least one. -/
theorem unit_div_le {m₁ m₂ : Nat} {e t : Int} (hm₁ : m₁ ≠ 0) (hm₂ : m₂ ≠ 0)
    (ht : t = min e (max (m₁.log2 - m₂.log2 + e - 53) (-1074))) :
    t ≤ max ((m₁ * 2 ^ (e - t).toNat / m₂).log2 + t - 52) (-1074) := by
  by_cases hleast : t ≤ -1074
  · omega
  · have hshift : 53 + m₂.log2 ≤ m₁.log2 + (e - t).toNat := by omega
    have hfull : 2 ^ 52 ≤ m₁ * 2 ^ (e - t).toNat / m₂ := by
      rw [Nat.le_div_iff_mul_le (Nat.pos_of_ne_zero hm₂)]
      calc 2 ^ 52 * m₂ ≤ 2 ^ 52 * 2 ^ (m₂.log2 + 1) :=
            Nat.mul_le_mul_left _ Nat.lt_log2_self.le
        _ = 2 ^ (53 + m₂.log2) := by rw [← pow_add]; congr 1; omega
        _ ≤ 2 ^ (m₁.log2 + (e - t).toNat) := Nat.pow_le_pow_right (by decide) hshift
        _ = 2 ^ m₁.log2 * 2 ^ (e - t).toNat := pow_add _ _ _
        _ ≤ m₁ * 2 ^ (e - t).toNat := Nat.mul_le_mul_right _ (Nat.log2_self_le hm₁)
    have hlog : 52 ≤ (m₁ * 2 ^ (e - t).toNat / m₂).log2 :=
      (Nat.le_log2 (by omega)).mpr hfull
    omega

/-- The exact quotient in the unit in which it is computed. -/
theorem value_div_value (m₁ : ℕ) {m₂ : ℕ} {e₁ e₂ u : ℤ} (hm₂ : m₂ ≠ 0) (hu : u ≤ e₁ - e₂) :
    Magnitude.value ⟨m₁, e₁⟩ / Magnitude.value ⟨m₂, e₂⟩ / 2 ^ u =
      (m₁ * 2 ^ (e₁ - e₂ - u).toNat : ℕ) / m₂ := by
  have hpow : (2 : ℚ) ^ e₁ = 2 ^ (e₁ - e₂ - u).toNat * 2 ^ e₂ * 2 ^ u := by
    rw [← zpow_natCast, ← zpow_add₀ (by norm_num), ← zpow_add₀ (by norm_num)]
    congr 1
    omega
  have hm₂Q : (m₂ : ℚ) ≠ 0 := by exact_mod_cast hm₂
  rw [Magnitude.value, Magnitude.value, hpow]
  push_cast
  field_simp

theorem divCore_eq {m₁ m₂ : ℕ} {e₁ e₂ u : ℤ}
    (hu : min (e₁ - e₂) (max ((m₁.log2 : ℤ) - m₂.log2 + (e₁ - e₂) - 53) (-1074)) = u) :
    divCore .binary64 m₁ e₁ m₂ e₂ = (m₁ * 2 ^ (e₁ - e₂ - u).toNat / m₂, u,
      accuracyOfFraction (m₁ * 2 ^ (e₁ - e₂ - u).toNat % m₂) m₂) := by
  have htarget : min (e₁ - e₂) (Format.binary64.targetExponent
      (totalExponent m₁ e₁ - totalExponent m₂ e₂)) = u := by
    rw [← hu]
    simp only [Format.targetExponent, totalExponent, Format.mantissaBits, Format.minExponent]
    norm_num
    omega
  unfold divCore
  simp only [htarget, Nat.shiftLeft_eq]

theorem div_unpacked (s t : Bool) {m n : Magnitude} (hn : n.mantissa ≠ 0) :
    ∃ k : Magnitude, k.IsNearest (m.value / n.value) ∧
      UnpackedFloat.div .binary64 (unpacked s m) (unpacked t n) = unpacked (s != t) k := by
  by_cases hm : m.mantissa = 0
  · refine ⟨⟨0, -1074⟩, ?_, ?_⟩
    · rw [Magnitude.value, hm, Nat.cast_zero, zero_mul, zero_div]
      exact isNearest_zero
    · have hzero : unpacked (s != t) ⟨0, -1074⟩ = .zero (signOf s / signOf t) := by
        rw [signOf_div]
        rfl
      rw [unpacked_of_zero s hm, hzero, unpacked, dif_neg hn]
      rfl
  · obtain ⟨m₁, e₁⟩ := m
    obtain ⟨m₂, e₂⟩ := n
    simp only at hm hn
    generalize hu : min (e₁ - e₂) (max ((m₁.log2 : Int) - m₂.log2 + (e₁ - e₂) - 53) (-1074)) = u
    have happrox : Approximates (.ofMantissaAndAccuracy (m₁ * 2 ^ (e₁ - e₂ - u).toNat / m₂)
        (accuracyOfFraction (m₁ * 2 ^ (e₁ - e₂ - u).toNat % m₂) m₂))
        (Magnitude.value ⟨m₁, e₁⟩ / Magnitude.value ⟨m₂, e₂⟩ / 2 ^ u) := by
      rw [value_div_value m₁ hn (by omega)]
      exact approximates_fraction _ (Nat.pos_of_ne_zero hn)
    obtain ⟨k, hk, hround⟩ :=
      roundWithAccuracy_eq (s != t) happrox (unit_div_le hm hn hu.symm)
    refine ⟨k, hk, ?_⟩
    rw [← hround, ← signOf_div, unpacked, unpacked, dif_neg hm, dif_neg hn]
    show roundWithAccuracy .binary64 (signOf s / signOf t) (divCore .binary64 m₁ e₁ m₂ e₂).1
      (divCore .binary64 m₁ e₁ m₂ e₂).2.1 (divCore .binary64 m₁ e₁ m₂ e₂).2.2 = _
    rw [divCore_eq hu]

/-- A quotient of doubles is the double nearest to the quotient of their values. -/
theorem div_eq_ofMagnitude {x y : Float} (hx : x.isFinite = true) (hy : y.isFinite = true)
    (hne : (magnitude y).mantissa ≠ 0) {n : Magnitude}
    (hn : n.IsNearest ((magnitude x).value / (magnitude y).value)) (he : n.exponent ≤ 971) :
    x / y = ofMagnitude (isNegative x != isNegative y) n := by
  obtain ⟨k, hk, hdiv⟩ := div_unpacked (isNegative x) (isNegative y) (m := magnitude x) hne
  obtain rfl := hn.unique hk
  show Float.ofModel (.pack (UnpackedFloat.div .binary64 x.toModel.unpack y.toModel.unpack)) = _
  rw [unpack_of_isFinite hx, unpack_of_isFinite hy, hdiv, pack_unpacked _ (hn.isCanonical he)]

/-! ## Signs -/

theorem neg_ofMagnitude {m : Magnitude} (h : m.IsCanonical) :
    -ofMagnitude false m = ofMagnitude true m := by
  have hunpack := unpack_of_isFinite (isFinite_ofMagnitude false h)
  rw [isNegative_ofMagnitude false h, magnitude_ofMagnitude false h] at hunpack
  have hneg : (unpacked false m).neg = unpacked true m := by
    unfold unpacked
    split <;> rfl
  show Float.ofModel (.pack (ofMagnitude false m).toModel.unpack.neg) = _
  rw [hunpack, hneg, pack_unpacked true h]

end Scorecard.Number
