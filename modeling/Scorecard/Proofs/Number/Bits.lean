import Mathlib
import Scorecard.Number.Binary

/-!
# The bits of a double

`withSign` makes a double from its bits, and `isNegative` and `magnitude` read a double's bits.
Packing a double forgets only which bit pattern a value that is not a number had.  So the bits that
`withSign` is given come back (`toNat_toBits_withSign`), and with them the sign
(`isNegative_withSign`), and the double is a number (`isNaN_withSign`).
-/

namespace Scorecard.Number

open Float.Model Float.Model.UnpackedFloat

theorem infinityBits_eq : infinityBits = 9218868437227405312 := by decide

theorem signBit_eq : Nat.pow 2 63 = 9223372036854775808 := by decide

/-- A pattern that is no greater than that of infinity, sign aside, stands for a number. -/
theorem isNaNBits_of_le {b : BitVec Format.binary64.numBits}
    (h : b.toNat % Nat.pow 2 63 ≤ infinityBits) : isNaNBits b = false := by
  simp only [isNaNBits, decide_eq_false_iff_not, not_and, not_not]
  intro he
  refine BitVec.eq_of_toNat_eq ?_
  have he := congrArg BitVec.toNat he
  simp [unpackExponent, unpackMantissa, Nat.shiftRight_eq_div_pow] at he ⊢
  rw [infinityBits_eq, signBit_eq] at h
  omega

/-- The bits of a double that stands for a number are the bits that it was made of. -/
theorem toBits_ofBits {bits : UInt64} (h : bits.toNat % Nat.pow 2 63 ≤ infinityBits) :
    (Float.ofBits bits).toBits = bits := by
  have hpack := @pack_unpack .binary64 bits.toBitVec (by decide)
  rw [@isNaNBits_of_le bits.toBitVec h] at hpack
  exact congrArg UInt64.ofBitVec hpack

/-- A double that stands for a number is a number. -/
theorem isNaN_ofBits {bits : UInt64} (h : bits.toNat % Nat.pow 2 63 ≤ infinityBits) :
    (Float.ofBits bits).isNaN = false := by
  rw [Float.isNaN_eq_decide_eq_nan, decide_eq_false_iff_not]
  intro hnan
  have hbits : bits = Float.nan.toBits := by rw [← hnan, toBits_ofBits h]
  subst hbits
  exact absurd h (by decide +kernel)

/-- The bits that `withSign` puts together. -/
theorem toNat_withSign_bits (negative : Bool) {bits : Nat} (h : bits ≤ infinityBits) :
    (UInt64.ofNat (bits + if negative then Nat.pow 2 63 else 0)).toNat =
      bits + if negative then Nat.pow 2 63 else 0 := by
  rw [infinityBits_eq] at h
  rw [signBit_eq]
  cases negative <;> simp <;> omega

theorem withSign_bits_le (negative : Bool) {bits : Nat} (h : bits ≤ infinityBits) :
    (UInt64.ofNat (bits + if negative then Nat.pow 2 63 else 0)).toNat % Nat.pow 2 63 ≤
      infinityBits := by
  rw [toNat_withSign_bits negative h, signBit_eq]
  rw [infinityBits_eq] at h ⊢
  cases negative <;> simp <;> omega

/-- The bits of a double that `withSign` makes. -/
theorem toNat_toBits_withSign (negative : Bool) {bits : Nat} (h : bits ≤ infinityBits) :
    (withSign negative bits).toBits.toNat = bits + if negative then Nat.pow 2 63 else 0 := by
  rw [withSign, toBits_ofBits (withSign_bits_le negative h), toNat_withSign_bits negative h]

/-- The sign of a double that `withSign` makes. -/
theorem isNegative_withSign (negative : Bool) {bits : Nat} (h : bits ≤ infinityBits) :
    isNegative (withSign negative bits) = negative := by
  rw [isNegative, toNat_toBits_withSign negative h, signBit_eq]
  rw [infinityBits_eq] at h
  cases negative with
  | false =>
    simp
    omega
  | true => simp

theorem isNaN_withSign (negative : Bool) {bits : Nat} (h : bits ≤ infinityBits) :
    (withSign negative bits).isNaN = false :=
  isNaN_ofBits (withSign_bits_le negative h)

/-- What is rounded to never lies beyond infinity. -/
theorem nearest_eq_withSign (negative : Bool) (r : Ratio) :
    ∃ bits ≤ infinityBits, nearest negative r = withSign negative bits := by
  refine ⟨_, ?_, rfl⟩
  split
  · exact Nat.zero_le _
  · exact Nat.min_le_left _ _

/-- A finite double is a number. -/
theorem isNaN_of_isFinite {x : Float} (h : x.isFinite = true) : x.isNaN = false := by
  rw [Float.isNaN_eq_decide_eq_nan, decide_eq_false_iff_not]
  rintro rfl
  exact absurd h (by decide +kernel)

end Scorecard.Number
