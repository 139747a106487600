import Mathlib
import Scorecard.Proofs.Number.Value

/-!
# Rounding to the nearest double

`RoundsTo q r e` says that `q`, measured in units of `2 ^ e`, is rounded to `r`, a tie to the even
integer, and that `2 ^ e` is the unit which doubles have at `q`.  There is at most one such pair
(`RoundsTo.unique`).  An `r` that has become `2 ^ 53` carries over into the exponent, and this gives
the magnitude nearest to `q` (`IsNearest`).

A finite double is made of its sign and its magnitude (`ofMagnitude_magnitude`), so it is the only
double of its sign that is nearest to a number (`Magnitude.IsNearest.unique`).
-/

namespace Scorecard.Number

/-! ## Rounding -/

/-- A number rounded in the unit that doubles have at it. -/
structure RoundsTo (q : ℚ) (r : ℕ) (e : ℤ) : Prop where
  least : -1074 ≤ e
  full : e = -1074 ∨ 2 ^ 52 * 2 ^ e ≤ q
  lt : q < 2 ^ 53 * 2 ^ e
  near : 2 * |q - r * 2 ^ e| ≤ 2 ^ e
  tie : 2 * |q - r * 2 ^ e| = 2 ^ e → Even r

namespace RoundsTo

variable {q : ℚ} {r r' : ℕ} {e e' : ℤ}

theorem abs_sub_le (h : RoundsTo q r e) : |q - r * 2 ^ e| ≤ 2 ^ e / 2 := by
  linarith [h.near]

theorem exponent_le (h : RoundsTo q r e) (h' : RoundsTo q r' e') : e ≤ e' := by
  by_contra hlt
  rcases h.full with hleast | hfull
  · have := h'.least
    omega
  · have hunit : (2 : ℚ) ^ (e' + 1) ≤ 2 ^ e := zpow_le_zpow_right₀ (by norm_num) (by omega)
    rw [zpow_add_one₀ (by norm_num)] at hunit
    have := h'.lt
    linarith

theorem le_of_unit (h : RoundsTo q r e) (h' : RoundsTo q r' e) : r' ≤ r := by
  by_contra hlt
  have hpos : (0 : ℚ) < 2 ^ e := by positivity
  have hstep : ((r : ℚ) + 1) * 2 ^ e ≤ r' * 2 ^ e := by
    gcongr
    exact_mod_cast not_le.mp hlt
  have hbelow := (abs_le.mp h.abs_sub_le).2
  have habove := (abs_le.mp h'.abs_sub_le).1
  -- Both lie half a unit away, so both are even, but they are neighbours.
  have hnext : (r' : ℚ) = r + 1 := by
    have : (r' : ℚ) * 2 ^ e ≤ (r + 1) * 2 ^ e := by linarith
    have := le_of_mul_le_mul_right this hpos
    have := le_of_mul_le_mul_right hstep hpos
    linarith
  have hr : q - r * 2 ^ e = 2 ^ e / 2 := by
    rw [hnext] at habove
    linarith
  have hr' : q - r' * 2 ^ e = -(2 ^ e / 2) := by
    rw [hnext] at habove ⊢
    linarith
  have heven := h.tie (by rw [hr, abs_of_pos (by positivity)]; ring)
  have heven' := h'.tie (by rw [hr', abs_neg, abs_of_pos (by positivity)]; ring)
  have : r' = r + 1 := by exact_mod_cast hnext
  rw [this] at heven'
  exact Nat.not_even_iff_odd.mpr heven.add_one heven'

/-- There is one way to round a number. -/
theorem unique (h : RoundsTo q r e) (h' : RoundsTo q r' e') : r = r' ∧ e = e' := by
  obtain rfl := le_antisymm (h.exponent_le h') (h'.exponent_le h)
  exact ⟨le_antisymm (h'.le_of_unit h) (h.le_of_unit h'), rfl⟩

theorem le (h : RoundsTo q r e) : r ≤ 2 ^ 53 := by
  by_contra hlt
  have hpos : (0 : ℚ) < 2 ^ e := by positivity
  have hstep : (2 ^ 53 + 1) * (2 : ℚ) ^ e ≤ r * 2 ^ e := by
    gcongr
    exact_mod_cast not_le.mp hlt
  have := (abs_le.mp h.abs_sub_le).1
  have := h.lt
  linarith

theorem full_mantissa (h : RoundsTo q r e) : e = -1074 ∨ 2 ^ 52 ≤ r := by
  refine h.full.imp_right fun hfull => ?_
  by_contra hlt
  have hpos : (0 : ℚ) < 2 ^ e := by positivity
  have hstep : ((r : ℚ) + 1) * 2 ^ e ≤ 2 ^ 52 * 2 ^ e := by
    gcongr
    exact_mod_cast not_le.mp hlt
  have := (abs_le.mp h.abs_sub_le).2
  linarith

/-- What lies on the grid is not changed by rounding. -/
theorem of_eq (hleast : -1074 ≤ e) (hfull : e = -1074 ∨ 2 ^ 52 ≤ r) (hlt : r < 2 ^ 53) :
    RoundsTo (r * 2 ^ e) r e where
  least := hleast
  full := hfull.imp_right fun h => by
    gcongr
    exact_mod_cast h
  lt := by
    gcongr
    exact_mod_cast hlt
  near := by
    rw [sub_self, abs_zero, mul_zero]
    positivity
  tie h := by
    rw [sub_self, abs_zero, mul_zero] at h
    exact absurd h (by positivity)

/-- A number with its first bit at `l` is rounded in the unit that this bit determines. -/
theorem of_scaled {l : ℤ} (he : e = max (l - 52) (-1074)) (hbelow : e = -1074 ∨ 2 ^ l ≤ q)
    (habove : q < 2 ^ (l + 1)) (hnear : 2 * |q / 2 ^ e - r| ≤ 1)
    (htie : 2 * |q / 2 ^ e - r| = 1 → Even r) : RoundsTo q r e := by
  have hunit : (0 : ℚ) < 2 ^ e := by positivity
  have hscaled : 2 * |q - r * 2 ^ e| = 2 * |q / 2 ^ e - r| * 2 ^ e := by
    rw [mul_assoc, ← abs_of_pos hunit, ← abs_mul, sub_mul, abs_of_pos hunit,
      div_mul_cancel₀ _ hunit.ne']
  refine ⟨by omega, ?_, ?_, ?_, ?_⟩
  · by_cases hleast : e = -1074
    · exact .inl hleast
    · have hexp : l = 52 + e := by omega
      rw [hexp, zpow_add₀ (by norm_num), zpow_ofNat] at hbelow
      exact hbelow
  · calc q < 2 ^ (l + 1) := habove
      _ ≤ 2 ^ (53 + e) := zpow_le_zpow_right₀ (by norm_num) (by omega)
      _ = 2 ^ 53 * 2 ^ e := by rw [zpow_add₀ (by norm_num), zpow_ofNat]
  · rw [hscaled]
    exact mul_le_of_le_one_left hunit.le hnear
  · intro heq
    rw [hscaled] at heq
    exact htie (mul_right_cancel₀ hunit.ne' (heq.trans (one_mul _).symm))

end RoundsTo

/-! ## Nearest magnitudes -/

/-- The magnitude of a rounded number. -/
def carried (r : ℕ) (e : ℤ) : Magnitude := if r = 2 ^ 53 then ⟨2 ^ 52, e + 1⟩ else ⟨r, e⟩

namespace Magnitude

/-- The magnitude is the nearest one to a number, as if exponents had no upper bound. -/
def IsNearest (m : Magnitude) (q : ℚ) : Prop := ∃ r e, RoundsTo q r e ∧ m = carried r e

theorem value_carried (r : ℕ) (e : ℤ) : (carried r e).value = r * 2 ^ e := by
  unfold carried
  split
  · next h =>
    rw [Magnitude.value, h, zpow_add_one₀ (by norm_num)]
    push_cast
    ring
  · rfl

theorem IsNearest.unique {m n : Magnitude} {q : ℚ} (hm : m.IsNearest q) (hn : n.IsNearest q) :
    m = n := by
  obtain ⟨r, e, h, rfl⟩ := hm
  obtain ⟨r', e', h', rfl⟩ := hn
  obtain ⟨rfl, rfl⟩ := h.unique h'
  rfl

/-- The nearest magnitude has all its bits unless its exponent is the least. -/
theorem IsNearest.isCanonical {m : Magnitude} {q : ℚ} (h : m.IsNearest q) (he : m.exponent ≤ 971) :
    m.IsCanonical := by
  obtain ⟨r, e, hr, rfl⟩ := h
  have hle := hr.le
  have hleast := hr.least
  have hfull := hr.full_mantissa
  unfold carried at he ⊢
  split at he
  · next h =>
    rw [if_pos h]
    exact ⟨by norm_num, by simp only; omega, he, .inl le_rfl⟩
  · next h =>
    rw [if_neg h]
    exact ⟨by simp only; omega, hleast, he, hfull.symm⟩

/-- A number below the middle between the greatest double and the next power of two has a double
nearest to it. -/
theorem IsNearest.exponent_le {m : Magnitude} {q : ℚ} (h : m.IsNearest q)
    (hq : q < (2 ^ 54 - 1) * 2 ^ (970 : ℤ)) : m.exponent ≤ 971 := by
  obtain ⟨r, e, hr, rfl⟩ := h
  have hpos : (0 : ℚ) < 2 ^ (970 : ℤ) := by positivity
  have he : e ≤ 970 + 1 := by
    by_contra hlt
    have hunit : (2 : ℚ) ^ ((970 : ℤ) + 1 + 1) ≤ 2 ^ e :=
      zpow_le_zpow_right₀ (by norm_num) (by omega)
    rw [zpow_add_one₀ (by norm_num), zpow_add_one₀ (by norm_num)] at hunit
    have hfull := hr.full.resolve_left (by omega)
    generalize (2 : ℚ) ^ (970 : ℤ) = u at *
    linarith
  unfold carried
  split
  · next hcarry =>
    by_contra hlt
    obtain rfl : e = 970 + 1 := by simp only at hlt; omega
    have hlow := (abs_le.mp hr.abs_sub_le).1
    rw [hcarry, zpow_add_one₀ (by norm_num), Nat.cast_pow, Nat.cast_two] at hlow
    generalize (2 : ℚ) ^ (970 : ℤ) = u at *
    linarith
  · exact he

theorem IsNearest.lt_of_exponent_le {m : Magnitude} {q : ℚ} (h : m.IsNearest q)
    (he : m.exponent ≤ 971) : q < 2 ^ 53 * 2 ^ (971 : ℤ) := by
  obtain ⟨r, e, hr, rfl⟩ := h
  have hexponent : e ≤ 971 := by
    unfold carried at he
    split at he <;> simp only at he <;> omega
  calc q < 2 ^ 53 * 2 ^ e := hr.lt
    _ ≤ 2 ^ 53 * 2 ^ (971 : ℤ) := by gcongr; norm_num

/-- What is rounded to less than the greatest magnitude is below the middle between the last two. -/
theorem IsNearest.le_of_ne {m : Magnitude} {q : ℚ} (h : m.IsNearest q) (he : m.exponent ≤ 971)
    (hne : m ≠ ⟨2 ^ 53 - 1, 971⟩) : q ≤ (2 ^ 54 - 3) * 2 ^ (970 : ℤ) := by
  obtain ⟨r, e, hr, rfl⟩ := h
  have hbelow (hlow : e ≤ 970) : q ≤ (2 ^ 54 - 3) * 2 ^ (970 : ℤ) :=
    calc q ≤ 2 ^ 53 * 2 ^ e := hr.lt.le
      _ ≤ 2 ^ 53 * 2 ^ (970 : ℤ) := by gcongr; norm_num
      _ ≤ (2 ^ 54 - 3) * 2 ^ (970 : ℤ) := by gcongr; norm_num
  unfold carried at he hne
  split at he
  · exact hbelow (by simp only at he; omega)
  · next hr53 =>
    rw [if_neg hr53, ne_eq, Magnitude.mk.injEq] at hne
    rcases (show e ≤ 971 from he).lt_or_eq with hlt | rfl
    · exact hbelow (by omega)
    · have hmantissa : r ≤ 2 ^ 53 - 2 := by
        have := hr.le
        omega
      have hmantissa' : (r : ℚ) ≤ 2 ^ 53 - 2 := by
        have : r + 2 ≤ 2 ^ 53 := by omega
        have : (r : ℚ) + 2 ≤ 2 ^ 53 := by exact_mod_cast this
        linarith
      have hunit : (2 : ℚ) ^ (971 : ℤ) = 2 ^ (970 : ℤ) * 2 :=
        zpow_add_one₀ (by norm_num) 970
      have hnear := (abs_le.mp hr.abs_sub_le).2
      rw [hunit] at hnear
      clear hbelow hunit
      have hpos : (0 : ℚ) < 2 ^ (970 : ℤ) := by positivity
      generalize (2 : ℚ) ^ (970 : ℤ) = unit at hpos hnear ⊢
      have hstep : (r : ℚ) * (unit * 2) ≤ (2 ^ 53 - 2) * (unit * 2) := by gcongr
      linarith

theorem IsCanonical.isNearest {m : Magnitude} (h : m.IsCanonical) : m.IsNearest m.value :=
  ⟨m.mantissa, m.exponent, .of_eq h.le_exponent h.full.symm h.mantissa_lt, by
    rw [carried, if_neg (Nat.ne_of_lt h.mantissa_lt)]⟩

end Magnitude

/-! ## Doubles of a sign and a magnitude -/

/-- The double of a sign and a magnitude. -/
def ofMagnitude (negative : Bool) (m : Magnitude) : Float := withSign negative m.toBits

namespace Magnitude

theorem toBits_eq (m : Magnitude) :
    m.toBits = (m.exponent + 1074).toNat * 2 ^ 52 + m.mantissa := rfl

theorem ofBits_eq (bits : Nat) : Magnitude.ofBits bits =
    if bits / 2 ^ 52 = 0 then ⟨bits % 2 ^ 52, -1074⟩
    else ⟨2 ^ 52 + bits % 2 ^ 52, (bits / 2 ^ 52 : Nat) - 1075⟩ := rfl

theorem IsCanonical.toBits_lt {m : Magnitude} (h : m.IsCanonical) : m.toBits < infinityBits := by
  have := h.mantissa_lt
  have := h.exponent_le
  rw [infinityBits_eq, toBits_eq]
  omega

theorem IsCanonical.ofBits_toBits {m : Magnitude} (h : m.IsCanonical) :
    Magnitude.ofBits m.toBits = m := by
  obtain ⟨mantissa, exponent⟩ := m
  obtain ⟨hlt, hleast, -, hfull⟩ := h
  simp only at hlt hleast hfull
  rw [ofBits_eq, toBits_eq]
  by_cases hsmall : mantissa < 2 ^ 52
  · obtain rfl : exponent = -1074 := by omega
    rw [if_pos (by simp only; omega), Magnitude.mk.injEq]
    exact ⟨by simp only; omega, rfl⟩
  · rw [if_neg (by simp only; omega), Magnitude.mk.injEq]
    simp only
    omega

theorem toBits_ofBits (bits : Nat) : (Magnitude.ofBits bits).toBits = bits := by
  rw [ofBits_eq, toBits_eq]
  split
  · simp only
    omega
  · simp only
    omega

end Magnitude

open Float.Model Float.Model.UnpackedFloat in
/-- A double is finite unless all bits of its exponent are set. -/
theorem isFinite_of_bits {x : Float} (h : x.toBits.toNat / 2 ^ 52 % 2 ^ 11 ≠ 2047) :
    x.isFinite = true := by
  have hexponent : @unpackExponent .binary64 x.toBits.toBitVec ≠ -1#11 := by
    intro hall
    refine h ?_
    rw [← toNat_unpackExponent, hall]
    rfl
  show (UnpackedFloat.unpack .binary64 x.toBits.toBitVec).isFinite = true
  unfold UnpackedFloat.unpack
  simp only
  rw [if_neg hexponent]
  split
  · split <;> rfl
  · rfl

theorem toNat_toBits_ofMagnitude (negative : Bool) {m : Magnitude} (h : m.IsCanonical) :
    (ofMagnitude negative m).toBits.toNat = m.toBits + if negative then 2 ^ 63 else 0 :=
  toNat_toBits_withSign negative h.toBits_lt.le

theorem isNegative_ofMagnitude (negative : Bool) {m : Magnitude} (h : m.IsCanonical) :
    isNegative (ofMagnitude negative m) = negative :=
  isNegative_withSign negative h.toBits_lt.le

theorem magnitude_ofMagnitude (negative : Bool) {m : Magnitude} (h : m.IsCanonical) :
    magnitude (ofMagnitude negative m) = m := by
  have hlt := h.toBits_lt
  rw [infinityBits_eq] at hlt
  rw [magnitude, toNat_toBits_ofMagnitude negative h, Nat.pow_eq]
  have hbits : (m.toBits + if negative then 2 ^ 63 else 0) % 2 ^ 63 = m.toBits := by
    cases negative <;> simp <;> omega
  rw [hbits, h.ofBits_toBits]

theorem isFinite_ofMagnitude (negative : Bool) {m : Magnitude} (h : m.IsCanonical) :
    (ofMagnitude negative m).isFinite = true := by
  have hlt := h.toBits_lt
  rw [infinityBits_eq] at hlt
  refine isFinite_of_bits ?_
  rw [toNat_toBits_ofMagnitude negative h]
  cases negative <;> simp <;> omega

/-- A double is made of its sign and its magnitude. -/
theorem ofMagnitude_magnitude (x : Float) : ofMagnitude (isNegative x) (magnitude x) = x := by
  have hlt : x.toBits.toNat < 2 ^ 64 := x.toBits.toBitVec.isLt
  have hbits : x.toBits.toNat % 2 ^ 63 + (if isNegative x then 2 ^ 63 else 0) = x.toBits.toNat := by
    simp only [isNegative, Nat.pow_eq, decide_eq_true_eq]
    split <;> omega
  rw [ofMagnitude, magnitude, Magnitude.toBits_ofBits, withSign, Nat.pow_eq, hbits,
    UInt64.ofNat_toNat, Float.ofBits_toBits]

end Scorecard.Number
