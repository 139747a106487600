import Mathlib
import Scorecard.Proofs.Json.Reading
import Scorecard.Proofs.Number.Operations

/-!
# Doubles are read from their own text

A double is written with the fewest digits that are nearest to it (`decimal_spec`).  Its text is
read in two steps, each of which is rounded: the digits are made a double as if they were an
integer, and that is multiplied or divided by a power of ten (`rescaled`, `float?_document`).

* If the digits are below `2 ^ 53` and the power is at most the twenty-second, both are exact.  The
  one rounding that is left ends at the nearest double, the one that was written
  (`rescaled_of_keepsDigits`).
* Otherwise another double may come out, but there always is one (`exists_rescaled`): a quotient is
  in range, and the product for a large double is in range although its digits are rounded up
  (`mul_powerOfTen_lt`).
-/

namespace Scorecard.Json

open Number

/-! ## The decimal of a double -/

/-- The decimal that a double is written as, apart from its sign. -/
def decimal (x : Float) : Decimal := (magnitude x).shortest .toEven

/-- The decimal of a finite double is nearest to it, and it is not too large to be read. -/
theorem decimal_spec {x : Float} (h : x.isFinite = true) :
    (magnitude x).IsNearest (decimal x).value ∧ (decimal x).digits < 2 ^ 57 ∧
      -346 ≤ (decimal x).exponent ∧ (decimal x).exponent ≤ 308 := by
  have hm := isCanonical_magnitude h
  by_cases hzero : (magnitude x).mantissa = 0
  · have hdecimal : decimal x = ⟨0, 0⟩ := if_pos hzero
    have hnearest : (magnitude x).IsNearest (magnitude x).value := hm.isNearest
    rw [Magnitude.value, hzero, Nat.cast_zero, zero_mul] at hnearest
    rw [hdecimal, Decimal.value, Nat.cast_zero, zero_mul]
    exact ⟨hnearest, by decide, by decide, by decide⟩
  · obtain ⟨hnearest, hne, hlt, hleast⟩ := Magnitude.shortest_spec .toEven hm hzero
    refine ⟨hnearest, hlt, hleast, ?_⟩
    by_contra hlarge
    have hdigits : (1 : ℚ) ≤ (decimal x).digits := by exact_mod_cast Nat.pos_of_ne_zero hne
    have hpow : (10 : ℚ) ^ (309 : ℤ) ≤ 10 ^ (decimal x).exponent :=
      zpow_le_zpow_right₀ (by norm_num) (by omega)
    have hlimit : (2 : ℚ) ^ 53 * 2 ^ (971 : ℤ) ≤ 10 ^ (309 : ℤ) := by
      have hnat : 2 ^ 53 * 2 ^ 971 ≤ 10 ^ 309 := by decide +kernel
      exact_mod_cast hnat
    have hvalue : (10 : ℚ) ^ (decimal x).exponent ≤ (decimal x).value :=
      le_mul_of_one_le_left (by positivity) hdigits
    have hbelow : (decimal x).value < 2 ^ 53 * 2 ^ (971 : ℤ) :=
      hnearest.lt_of_exponent_le hm.exponent_le
    exact absurd (hbelow.trans_le hlimit) (not_lt.mpr (hpow.trans hvalue))

/-- The digits of a double's text as a double, times or over the power of ten that goes with
them. -/
def rescaled (x : Float) : Option Float :=
  (scale? (ofInt (ofDigits (numeral (decimal x)).digits)) (numeral (decimal x)).scale).map
    fun y => if isNegative x then -y else y

/-- The numeral of a finite double is read as the rescaled double. -/
theorem float?_document {x : Float} (h : x.isFinite = true) :
    Document.float? (document (.float x)) = rescaled x := by
  obtain ⟨-, hdigits, hleast, hgreatest⟩ := decimal_spec h
  have hlength : (natDigits (decimal x).digits).length ≤ 18 :=
    (length_natDigits_le_iff (by decide)).mpr (hdigits.trans (by norm_num))
  have hbound : ∀ y ∈ (numeral (decimal x)).exponent, y.value.natAbs < exponentBound := by
    intro y hy
    rw [exponent_numeral hy, exponentBound, Nat.pow_eq]
    omega
  have hread := ofNumeral?_eq (isNegative x) (digits_numeral_lt hdigits) (isSome_numeral _) hbound
  rw [document, Document.float?, ← decimal, hread, rescaled]
  cases scale? (ofInt (ofDigits (numeral (decimal x)).digits)) (numeral (decimal x)).scale <;> rfl

/-! ## Few digits -/

/-- The digits of the text of a double make an integer that is a double itself, and so is the power
of ten that goes with them. -/
def KeepsDigits (x : Float) : Prop :=
  ofDigits (numeral (decimal x)).digits < 2 ^ 53 ∧ (numeral (decimal x)).scale.natAbs ≤ 22

theorem value_mul_pow {m : Magnitude} (h : -52 ≤ m.exponent) :
    m.value * 2 ^ 52 = (m.mantissa * 2 ^ (m.exponent + 52).toNat : ℕ) := by
  have hsplit : (2 : ℚ) ^ (m.exponent + 52).toNat = 2 ^ m.exponent * 2 ^ 52 := by
    rw [← zpow_natCast, Int.toNat_of_nonneg (by omega), zpow_add₀ (by norm_num), zpow_ofNat]
  rw [Magnitude.value, Nat.cast_mul, Nat.cast_pow, Nat.cast_two, hsplit, mul_assoc]

/-- Up to the twenty-second, a power of ten is a double. -/
theorem powerOfTen_bits : ∀ k < 23, (powerOfTen k).isFinite = true ∧
    isNegative (powerOfTen k) = false ∧ -52 ≤ (magnitude (powerOfTen k)).exponent ∧
    (magnitude (powerOfTen k)).mantissa * 2 ^ ((magnitude (powerOfTen k)).exponent + 52).toNat =
      10 ^ k * 2 ^ 52 := by
  decide +kernel

theorem powerOfTen_spec {k : ℕ} (h : k ≤ 22) : (powerOfTen k).isFinite = true ∧
    isNegative (powerOfTen k) = false ∧ (magnitude (powerOfTen k)).value = 10 ^ k := by
  obtain ⟨hfinite, hsign, hexp, hbits⟩ := powerOfTen_bits k (by omega)
  refine ⟨hfinite, hsign, ?_⟩
  have hscaled := value_mul_pow hexp
  rw [hbits, Nat.cast_mul, Nat.cast_pow, Nat.cast_pow] at hscaled
  exact mul_right_cancel₀ (by norm_num) hscaled

/-- Few digits and a small power of ten are exact, so their quotient or product is the nearest. -/
theorem scale?_eq_ofMagnitude {digits : ℕ} {e : ℤ} {m : Magnitude} (hdigits : digits < 2 ^ 53)
    (he : e.natAbs ≤ 22) (hm : m.IsCanonical) (hnearest : m.IsNearest (digits * 10 ^ e)) :
    scale? (ofInt digits) e = some (ofMagnitude false m) := by
  obtain ⟨hfinite, hsign, k, hvalue, hle, hge⟩ := ofInt_spec (n := digits) (by omega)
  obtain rfl : k = digits := by omega
  obtain ⟨hfinite', hsign', hvalue'⟩ := powerOfTen_spec he
  rw [scale?, if_neg (by omega)]
  by_cases hneg : e < 0
  · have hquotient : (magnitude (ofInt k)).value / (magnitude (powerOfTen e.natAbs)).value =
        k * 10 ^ e := by
      rw [hvalue, hvalue', div_eq_mul_inv, ← zpow_natCast, ← zpow_neg]
      congr 2
      omega
    have hne : (magnitude (powerOfTen e.natAbs)).mantissa ≠ 0 := by
      intro hzero
      rw [Magnitude.value, hzero, Nat.cast_zero, zero_mul] at hvalue'
      exact absurd hvalue'.symm (by positivity)
    have hdiv := div_eq_ofMagnitude hfinite hfinite' hne (hquotient ▸ hnearest) hm.exponent_le
    have habs : (-e).toNat = e.natAbs := by omega
    rw [if_pos hneg, habs, hdiv, hsign, hsign', bne_self_eq_false]
  · have hproduct : (magnitude (ofInt k)).value * (magnitude (powerOfTen e.natAbs)).value =
        k * 10 ^ e := by
      rw [hvalue, hvalue', ← zpow_natCast]
      congr 2
      omega
    have hmul := mul_eq_ofMagnitude hfinite hfinite' (hproduct ▸ hnearest) hm.exponent_le
    have habs : e.toNat = e.natAbs := by omega
    rw [if_neg hneg, if_pos (by omega), habs, hmul, hsign, hsign', bne_self_eq_false,
      Option.filter_some, if_pos (isFinite_ofMagnitude _ hm)]

theorem signed_magnitude {x : Float} (h : x.isFinite = true) :
    (if isNegative x then -ofMagnitude false (magnitude x) else ofMagnitude false (magnitude x)) =
      x := by
  conv_rhs => rw [← ofMagnitude_magnitude x]
  cases isNegative x with
  | false => rfl
  | true => exact neg_ofMagnitude (isCanonical_magnitude h)

/-- A double with few digits is read as itself. -/
theorem rescaled_of_keepsDigits {x : Float} (h : x.isFinite = true) (hkeeps : KeepsDigits x) :
    rescaled x = some x := by
  have hnearest := (decimal_spec h).1
  rw [← value_numeral] at hnearest
  have hscaled := scale?_eq_ofMagnitude hkeeps.1 hkeeps.2 (isCanonical_magnitude h) hnearest
  rw [rescaled, hscaled, Option.map_some, signed_magnitude h]

/-! ## No number is lost -/

theorem exists_scale?_of_neg (x : Float) {e : Int} (h : e < 0) : ∃ y, scale? x e = some y := by
  fun_induction scale? x e with
  | case1 x e hlow hzero => exact ⟨x, rfl⟩
  | case2 x e hlow hne ih => exact ih (by omega)
  | case3 x e hlow hneg => exact ⟨_, rfl⟩
  | case4 | case5 | case6 => omega

/-- The greatest digits that a double below the greatest one can have at a power of ten. -/
def greatestDigits (k : ℕ) : ℕ := min ((2 ^ 54 - 3) * 2 ^ 970 / 10 ^ k) (2 ^ 57)

/-- The greatest digits, rounded up and times the rounded power of ten, are in range. -/
theorem greatestDigits_mul_lt : ∀ k < 309, (powerOfTen k).isFinite = true ∧
    -52 ≤ (magnitude (powerOfTen k)).exponent ∧
    (greatestDigits k + greatestDigits k / 2 ^ 53) * ((magnitude (powerOfTen k)).mantissa *
        2 ^ ((magnitude (powerOfTen k)).exponent + 52).toNat) <
      (2 ^ 54 - 1) * 2 ^ 970 * 2 ^ 52 := by
  decide +kernel

/-- The product for a decimal without places is in range, but for that of the greatest double. -/
theorem mul_powerOfTen_lt {d : Decimal} (hwhole : 0 ≤ d.exponent) (hexponent : d.exponent ≤ 308)
    (hdigits : d.digits < 2 ^ 57) (hvalue : d.value ≤ (2 ^ 54 - 3) * 2 ^ (970 : ℤ)) :
    (powerOfTen d.exponent.toNat).isFinite = true ∧ (magnitude (ofInt d.digits)).value *
      (magnitude (powerOfTen d.exponent.toNat)).value < (2 ^ 54 - 1) * 2 ^ (970 : ℤ) := by
  obtain ⟨S, e⟩ := d
  obtain ⟨k, rfl⟩ := Int.eq_ofNat_of_zero_le hwhole
  simp only [Int.toNat_natCast] at *
  have hvalueNat : S * 10 ^ k ≤ (2 ^ 54 - 3) * 2 ^ 970 := by
    have hcast : ((2 ^ 54 - 3 : ℕ) : ℚ) = 2 ^ 54 - 3 := by norm_num
    rw [Decimal.value, zpow_natCast, zpow_ofNat, ← hcast] at hvalue
    exact_mod_cast hvalue
  have hle : S ≤ greatestDigits k := by
    rw [greatestDigits, le_min_iff, Nat.le_div_iff_mul_le (by positivity)]
    exact ⟨hvalueNat, hdigits.le⟩
  obtain ⟨-, -, j, hj, hjle, -⟩ := ofInt_spec (n := S) (by omega)
  obtain ⟨hfinite, hleast, hlt⟩ := greatestDigits_mul_lt k (by omega)
  refine ⟨hfinite, ?_⟩
  rw [hj]
  generalize magnitude (powerOfTen k) = m at *
  have hround : j ≤ greatestDigits k + greatestDigits k / 2 ^ 53 :=
    hjle.trans (Nat.add_le_add hle (Nat.div_le_div_right hle))
  have hnat : j * (m.mantissa * 2 ^ (m.exponent + 52).toNat) < (2 ^ 54 - 1) * 2 ^ 970 * 2 ^ 52 :=
    calc j * (m.mantissa * 2 ^ (m.exponent + 52).toNat)
        ≤ (greatestDigits k + greatestDigits k / 2 ^ 53) *
            (m.mantissa * 2 ^ (m.exponent + 52).toNat) := Nat.mul_le_mul_right _ hround
      _ < (2 ^ 54 - 1) * 2 ^ 970 * 2 ^ 52 := hlt
  have hcast : ((2 ^ 54 - 1 : ℕ) : ℚ) = 2 ^ 54 - 1 := by norm_num
  have hrat : (j : ℚ) * (m.value * 2 ^ 52) < (2 ^ 54 - 1 : ℕ) * 2 ^ 970 * 2 ^ 52 := by
    rw [value_mul_pow hleast]
    exact_mod_cast hnat
  rw [hcast, ← mul_assoc] at hrat
  rw [zpow_ofNat]
  exact lt_of_mul_lt_mul_right hrat (by positivity)

/-- A finite double is read as a double. -/
theorem exists_rescaled {x : Float} (h : x.isFinite = true) : ∃ y, rescaled x = some y := by
  have hm := isCanonical_magnitude h
  obtain ⟨hnearest, hdigits, hleast, hgreatest⟩ := decimal_spec h
  suffices hscaled : ∃ y, scale? (ofInt (ofDigits (numeral (decimal x)).digits))
      (numeral (decimal x)).scale = some y by
    obtain ⟨y, hy⟩ := hscaled
    rw [rescaled, hy]
    exact ⟨_, rfl⟩
  by_cases hneg : (numeral (decimal x)).scale < 0
  · exact exists_scale?_of_neg _ hneg
  · have hwhole : ofDigits (numeral (decimal x)).digits = (decimal x).digits ∧
        (numeral (decimal x)).scale = (decimal x).exponent := by
      rcases digits_numeral (decimal x) with hsame | ⟨-, -, -, hscale⟩
      · exact hsame
      · omega
    obtain ⟨heq, hscale⟩ := hwhole
    rw [hscale] at hneg
    rw [heq, hscale]
    by_cases hmax : magnitude x = ⟨2 ^ 53 - 1, 971⟩
    · have hdecimal : decimal x = ⟨17976931348623157, 292⟩ := by
        rw [decimal, hmax]
        decide +kernel
      have hproduct : (ofInt 17976931348623157 * powerOfTen 292).isFinite = true := by
        decide +kernel
      rw [hdecimal, scale?, if_neg (by simp), if_neg (by simp), if_pos (by simp),
        Option.filter_some]
      exact ⟨_, if_pos hproduct⟩
    · have hbelow := hnearest.le_of_ne hm.exponent_le hmax
      obtain ⟨hfinite, hlt⟩ := mul_powerOfTen_lt (by omega) hgreatest hdigits hbelow
      have hproduct := isFinite_mul (ofInt_spec (by omega)).1 hfinite hlt
      rw [scale?, if_neg (by omega), if_neg hneg, if_pos hgreatest, Option.filter_some,
        if_pos hproduct]
      exact ⟨_, rfl⟩

end Scorecard.Json
