import Mathlib
import Scorecard.Proofs.Number.Bits

/-!
# The numbers that doubles stand for

A finite double stands for a rational number, its `value`.  Doubles are compared through sign,
exponent and mantissa, in this order; since the mantissas of all exponents but the least fill the
same range, that is the order of the values (`lt_iff_value_lt`, `le_iff_value_le`), and two doubles
are equal as numbers exactly if their values are (`beq_iff_value_eq`).
-/

namespace Scorecard.Number

open Float.Model Float.Model.UnpackedFloat

/-- The number that a magnitude stands for. -/
def Magnitude.value (m : Magnitude) : ℚ := m.mantissa * 2 ^ m.exponent

/-- The number that a finite double stands for. -/
def value (x : Float) : ℚ := (if isNegative x then -1 else 1) * (magnitude x).value

/-- The magnitude is one that a finite double can have: its mantissa has all its bits unless the
exponent is the least. -/
structure Magnitude.IsCanonical (m : Magnitude) : Prop where
  mantissa_lt : m.mantissa < 2 ^ 53
  le_exponent : -1074 ≤ m.exponent
  exponent_le : m.exponent ≤ 971
  full : 2 ^ 52 ≤ m.mantissa ∨ m.exponent = -1074

/-- The sign bit as a sign. -/
def signOf (negative : Bool) : Sign := if negative then .negative else .positive

/-! ## From bits to magnitudes -/

section

variable (x : Float)

theorem toNat_unpackExponent :
    (@unpackExponent .binary64 x.toBits.toBitVec).toNat =
      x.toBits.toNat / 2 ^ 52 % 2 ^ 11 := by
  simp [unpackExponent, Nat.shiftRight_eq_div_pow]

theorem toNat_unpackMantissa :
    (@unpackMantissa .binary64 x.toBits.toBitVec).toNat = x.toBits.toNat % 2 ^ 52 := by
  simp [unpackMantissa]

theorem sign_eq : Sign.ofBitVec (@unpackSign .binary64 x.toBits.toBitVec) =
    signOf (isNegative x) := by
  have hlt : x.toBits.toNat < 2 ^ 64 := x.toBits.toBitVec.isLt
  have hsign : @unpackSign .binary64 x.toBits.toBitVec = 0#1 ↔
      isNegative x = false := by
    rw [← BitVec.toNat_inj]
    simp [unpackSign, Nat.shiftRight_eq_div_pow, isNegative]
    omega
  unfold Sign.ofBitVec signOf
  cases hneg : isNegative x with
  | false => rw [if_pos (hsign.mpr hneg)]; rfl
  | true =>
    rw [if_neg fun h => by rw [hsign.mp h] at hneg; exact absurd hneg (by decide)]
    rfl

end

/-- The bits of a magnitude: what is above the fraction, and the fraction. -/
theorem magnitude_eq (x : Float) : magnitude x =
    if x.toBits.toNat / 2 ^ 52 % 2 ^ 11 = 0 then ⟨x.toBits.toNat % 2 ^ 52, -1074⟩
    else ⟨2 ^ 52 + x.toBits.toNat % 2 ^ 52, (x.toBits.toNat / 2 ^ 52 % 2 ^ 11 : Nat) - 1075⟩ := by
  have hexponent : x.toBits.toNat % 2 ^ 63 / 2 ^ 52 = x.toBits.toNat / 2 ^ 52 % 2 ^ 11 := by omega
  have hfraction : x.toBits.toNat % 2 ^ 63 % 2 ^ 52 = x.toBits.toNat % 2 ^ 52 := by omega
  show Magnitude.ofBits (x.toBits.toNat % 2 ^ 63) = _
  simp only [Magnitude.ofBits, Nat.pow_eq, hexponent, hfraction]
  rfl

/-- A magnitude under a sign, as the parts of a double. -/
def unpacked (negative : Bool) (m : Magnitude) : UnpackedFloat :=
  if h : m.mantissa = 0 then .zero (signOf negative)
  else .finite (signOf negative) m.mantissa m.exponent (Nat.pos_of_ne_zero h)

theorem unpacked_of_pos (negative : Bool) {m : Nat} {e : Int} (h : 0 < m) :
    unpacked negative ⟨m, e⟩ = .finite (signOf negative) m e h :=
  dif_neg (Nat.ne_of_gt h)

/-- The parts of a finite double are its sign and its magnitude, and not all bits of its exponent
are set. -/
theorem unpack_eq {x : Float} (h : x.isFinite = true) :
    x.toModel.unpack = unpacked (isNegative x) (magnitude x) ∧
      x.toBits.toNat / 2 ^ 52 % 2 ^ 11 ≠ 2047 := by
  have hexponent := toNat_unpackExponent x
  have hmantissa := toNat_unpackMantissa x
  have hsign := sign_eq x
  have hmag := magnitude_eq x
  change UnpackedFloat.isFinite (UnpackedFloat.unpack .binary64 x.toBits.toBitVec) = true at h
  change UnpackedFloat.unpack .binary64 x.toBits.toBitVec = _ ∧ _
  unfold UnpackedFloat.unpack at h ⊢
  simp only at h ⊢
  by_cases hall : @unpackExponent .binary64 x.toBits.toBitVec = -1#11
  · rw [if_pos hall] at h
    split at h <;> simp [UnpackedFloat.isFinite] at h
  · have hne : x.toBits.toNat / 2 ^ 52 % 2 ^ 11 ≠ 2047 := by
      intro heq
      exact hall (BitVec.eq_of_toNat_eq (hexponent.trans heq))
    refine ⟨?_, hne⟩
    rw [if_neg hall]
    by_cases hzero : @unpackExponent .binary64 x.toBits.toBitVec = 0#11
    · have hexp0 : x.toBits.toNat / 2 ^ 52 % 2 ^ 11 = 0 := by rw [← hexponent, hzero]; rfl
      rw [if_pos hzero, hmag, if_pos hexp0]
      by_cases hfrac : @unpackMantissa .binary64 x.toBits.toBitVec = 0#52
      · have hfrac0 : x.toBits.toNat % 2 ^ 52 = 0 := by rw [← hmantissa, hfrac]; rfl
        rw [dif_pos hfrac, hsign, hfrac0]
        rfl
      · rw [dif_neg hfrac, ← hmantissa, unpacked_of_pos, hsign]
        · congr 1
          rw [hzero]
          rfl
        · exact Nat.pos_of_ne_zero fun h0 => hfrac (BitVec.eq_of_toNat_eq h0)
    · have hexp0 : x.toBits.toNat / 2 ^ 52 % 2 ^ 11 ≠ 0 := by
        intro heq
        exact hzero (BitVec.eq_of_toNat_eq (hexponent.trans heq))
      have hlt : x.toBits.toNat % 2 ^ 52 < 2 ^ 52 := Nat.mod_lt _ (by decide)
      have hfull : (1#1 ++ @unpackMantissa .binary64 x.toBits.toBitVec).toNat =
          2 ^ 52 + x.toBits.toNat % 2 ^ 52 := by
        rw [BitVec.toNat_append, hmantissa, ← Nat.shiftLeft_add_eq_or_of_lt hlt]
        rfl
      rw [if_neg hzero, hmag, if_neg hexp0, ← hexponent, ← hfull, unpacked_of_pos, hsign]
      rfl

/-- The parts of a finite double. -/
theorem unpack_of_isFinite {x : Float} (h : x.isFinite = true) :
    x.toModel.unpack = unpacked (isNegative x) (magnitude x) := (unpack_eq h).1

theorem isCanonical_magnitude {x : Float} (h : x.isFinite = true) :
    (magnitude x).IsCanonical := by
  have hne := (unpack_eq h).2
  rw [magnitude_eq]
  split
  · exact ⟨by simp only; omega, by simp, by simp, .inr rfl⟩
  · refine ⟨?_, ?_, ?_, .inl ?_⟩ <;> simp only <;> omega

/-! ## The order of doubles -/

/-- Of two magnitudes the one with the greater exponent is greater. -/
theorem Magnitude.IsCanonical.value_lt {m n : Magnitude} (hm : m.IsCanonical) (hn : n.IsCanonical)
    (h : m.exponent < n.exponent) : m.value < n.value := by
  have hfull : 2 ^ 52 ≤ n.mantissa := by
    rcases hn.full with hfull | hleast
    · exact hfull
    · have := hm.le_exponent
      omega
  have hmantissa : (m.mantissa : ℚ) < 2 ^ 53 := by exact_mod_cast hm.mantissa_lt
  have hfullQ : (2 : ℚ) ^ 52 ≤ n.mantissa := by exact_mod_cast hfull
  calc m.value < 2 ^ 53 * 2 ^ m.exponent := by
        unfold Magnitude.value
        gcongr
    _ = 2 ^ 52 * 2 ^ (m.exponent + 1) := by
        rw [zpow_add_one₀ (by norm_num)]
        ring
    _ ≤ n.mantissa * 2 ^ n.exponent := by
        gcongr
        · norm_num
        · omega

/-- Magnitudes are compared by exponent and then by mantissa, as their numbers are. -/
theorem Magnitude.IsCanonical.cmp_value {m n : Magnitude} (hm : m.IsCanonical)
    (hn : n.IsCanonical) : (compare m.exponent n.exponent).then (compare m.mantissa n.mantissa) =
      cmp m.value n.value := by
  rcases lt_trichotomy m.exponent n.exponent with h | h | h
  · rw [compare_lt_iff_lt.mpr h, (cmp_eq_lt_iff _ _).mpr (hm.value_lt hn h)]
    rfl
  · rw [compare_eq_iff_eq.mpr h]
    have hpos : (0 : ℚ) < 2 ^ n.exponent := by positivity
    unfold Magnitude.value
    rw [h, cmp_mul_pos_right hpos, Nat.strictMono_cast.cmp_map_eq, cmp_eq_compare]
    rfl
  · rw [compare_gt_iff_gt.mpr h, (cmp_eq_gt_iff _ _).mpr (hn.value_lt hm h)]
    rfl

theorem Magnitude.value_pos {m : Nat} (h : 0 < m) (e : Int) : 0 < Magnitude.value ⟨m, e⟩ := by
  unfold Magnitude.value
  positivity

/-- The parts of two doubles are compared as the numbers that they stand for. -/
theorem compare_unpacked (s t : Bool) {m n : Magnitude} (hm : m.IsCanonical)
    (hn : n.IsCanonical) : (unpacked s m).compare (unpacked t n) =
      some (cmp ((if s then -1 else 1) * m.value) ((if t then -1 else 1) * n.value)) := by
  have hcmp := hm.cmp_value hn
  obtain ⟨m, e⟩ := m
  obtain ⟨n, f⟩ := n
  have hzero : ∀ k : Int, Magnitude.value ⟨0, k⟩ = 0 := by simp [Magnitude.value]
  rcases Nat.eq_zero_or_pos m with rfl | hmpos <;> rcases Nat.eq_zero_or_pos n with rfl | hnpos
  · simp only [hzero, mul_zero, cmp_self_eq_eq]
    rfl
  · rw [unpacked_of_pos t hnpos, hzero, mul_zero]
    have hpos := Magnitude.value_pos hnpos f
    cases t
    · rw [(cmp_eq_lt_iff _ _).mpr (by simpa using hpos)]
      rfl
    · rw [(cmp_eq_gt_iff _ _).mpr (by simpa using hpos)]
      rfl
  · rw [unpacked_of_pos s hmpos, hzero, mul_zero]
    have hpos := Magnitude.value_pos hmpos e
    cases s
    · rw [(cmp_eq_gt_iff _ _).mpr (by simpa using hpos)]
      rfl
    · rw [(cmp_eq_lt_iff _ _).mpr (by simpa using hpos)]
      rfl
  · rw [unpacked_of_pos s hmpos, unpacked_of_pos t hnpos]
    have hvpos := Magnitude.value_pos hmpos e
    have hwpos := Magnitude.value_pos hnpos f
    cases s <;> cases t
    · show some ((compare e f).then (compare m n)) = _
      rw [hcmp]
      simp
    · rw [(cmp_eq_gt_iff _ _).mpr (by simp; linarith)]
      rfl
    · rw [(cmp_eq_lt_iff _ _).mpr (by simp; linarith)]
      rfl
    · show some ((compare e f).then (compare m n)).swap = _
      rw [hcmp, cmp_swap]
      exact congrArg some (cmp_mul_neg_left (by norm_num) _ _).symm

/-- Two finite doubles are compared as the numbers that they stand for. -/
theorem compare_unpack {x y : Float} (hx : x.isFinite = true) (hy : y.isFinite = true) :
    x.toModel.unpack.compare y.toModel.unpack = some (cmp (value x) (value y)) := by
  rw [unpack_of_isFinite hx, unpack_of_isFinite hy]
  exact compare_unpacked _ _ (isCanonical_magnitude hx) (isCanonical_magnitude hy)

section

variable {x y : Float} (hx : x.isFinite = true) (hy : y.isFinite = true)

include hx hy

theorem lt_iff_value_lt : x < y ↔ value x < value y := by
  rw [← cmp_eq_lt_iff]
  show decide ((x.toModel.unpack.compare y.toModel.unpack == some .lt) = true) = true ↔ _
  rw [compare_unpack hx hy]
  simp

theorem le_iff_value_le : x ≤ y ↔ value x ≤ value y := by
  rw [← not_lt, ← cmp_eq_gt_iff]
  show decide ((x.toModel.unpack.compare y.toModel.unpack).any (·.isLE) = true) = true ↔ _
  rw [compare_unpack hx hy]
  cases cmp (value x) (value y) <;> simp

theorem beq_iff_value_eq : (x == y) = true ↔ value x = value y := by
  rw [← cmp_eq_eq_iff (value x)]
  show (x.toModel.unpack.compare y.toModel.unpack == some .eq) = true ↔ _
  rw [compare_unpack hx hy]
  simp

end

end Scorecard.Number
