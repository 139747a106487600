import Mathlib
import Scorecard.Proofs.Json.Written
import Scorecard.Proofs.Number.Shortest
import Scorecard.Report.Saved

/-!
# Numerals are read

The digits of a numeral are taken as one integer of 64 bits, and so are those behind a point
(`takeDigits_eq`, `takeDigits_digits`).  A whole number is read as itself (`count?_document`).  A
numeral with a point or an exponent is read as the double of its digits, scaled by a power of ten
(`ofNumeral?_eq`).  The numeral of a decimal has the digits and the power of the decimal, but for a
whole number, which has a zero behind the point (`digits_numeral`).
-/

namespace Scorecard.Json

open Number

/-- Digits that fit in 64 bits are all taken. -/
theorem takeDigits_eq {significand : Nat} {ds : List Char}
    (h : 10 ^ ds.length * significand + ofDigits ds < 2 ^ 64) :
    takeDigits significand ds = (10 ^ ds.length * significand + ofDigits ds, []) := by
  induction ds generalizing significand with
  | nil => simp [takeDigits, ofDigits]
  | cons c cs ih =>
    have hcons : 10 ^ (c :: cs).length * significand + ofDigits (c :: cs) =
        10 ^ cs.length * (10 * significand + digitValue c) + ofDigits cs := by
      have hsplit := ofDigits_append [c] cs
      have hone : ofDigits [c] = digitValue c := by simp [ofDigits]
      rw [List.singleton_append, hone] at hsplit
      rw [hsplit, List.length_cons, pow_succ]
      ring
    rw [hcons] at h ⊢
    have hpos : 0 < 10 ^ cs.length := by positivity
    have hstep : 10 * significand + digitValue c < Nat.pow 2 64 := by
      calc 10 * significand + digitValue c
          ≤ 10 ^ cs.length * (10 * significand + digitValue c) := Nat.le_mul_of_pos_left _ hpos
        _ < Nat.pow 2 64 := by rw [Nat.pow_eq]; omega
    rw [takeDigits]
    simp only [if_pos hstep]
    exact ih h

/-- A whole number of 64 bits is read as itself. -/
theorem count?_document (n : UInt64) :
    Document.count? (document (.int n.toNat)) = some n := by
  have hdigits : takeDigits 0 (natDigits n.toNat) = (n.toNat, []) := by
    have h := @takeDigits_eq 0 (natDigits n.toNat) (by simpa using n.toNat_lt)
    simpa using h
  have hnumeral : ofNumeral? false ⟨natDigits n.toNat, none, none⟩ = some (.int n.toNat) := by
    simp [ofNumeral?, hdigits]
  have hneg : decide ((n.toNat : Int) < 0) = false := by simp
  rw [document, hneg, Int.natAbs_natCast, Document.count?, hnumeral]
  simp

/-! ## Numerals with a point or an exponent -/

/-- The digits of a numeral become one integer if it fits in 64 bits. -/
theorem takeDigits_digits {n : Numeral} (h : ofDigits n.digits < 2 ^ 64) :
    takeDigits 0 n.whole = (ofDigits n.whole, []) ∧
      takeDigits (ofDigits n.whole) (n.fraction.getD []) = (ofDigits n.digits, []) := by
  have hsplit := ofDigits_append n.whole (n.fraction.getD [])
  have hpos : 0 < 10 ^ (n.fraction.getD []).length := by positivity
  have hle : ofDigits n.whole ≤ 10 ^ (n.fraction.getD []).length * ofDigits n.whole :=
    Nat.le_mul_of_pos_left _ hpos
  rw [Numeral.digits, hsplit] at h
  have hwhole := @takeDigits_eq 0 n.whole (by rw [Nat.mul_zero]; omega)
  have hfraction := @takeDigits_eq (ofDigits n.whole) (n.fraction.getD []) (by omega)
  rw [Nat.mul_zero, Nat.zero_add] at hwhole
  rw [← hsplit] at hfraction
  exact ⟨hwhole, hfraction⟩

/-- A numeral with a point or an exponent is its digits, scaled. -/
theorem ofNumeral?_eq (negative : Bool) {n : Numeral} (hdigits : ofDigits n.digits < 2 ^ 64)
    (hpoint : n.fraction ≠ none ∨ n.exponent ≠ none)
    (hexponent : ∀ x ∈ n.exponent, x.value.natAbs < exponentBound) : ofNumeral? negative n =
      (scale? (ofInt (ofDigits n.digits)) n.scale).map
        fun x => .float (if negative then -x else x) := by
  obtain ⟨hwhole, hfraction⟩ := takeDigits_digits hdigits
  have happrox : approximate? (ofDigits n.digits) (-(n.fraction.getD []).length) n.exponent =
      scale? (ofInt (ofDigits n.digits)) n.scale := by
    rw [Numeral.scale]
    cases hx : n.exponent with
    | none =>
      rw [approximate?, Option.elim_none, zero_sub]
    | some x =>
      simp only [approximate?, if_pos (hexponent x hx), Option.elim_some]
      congr 1
      ring
  have hnone : ¬(n.fraction = none ∧ n.exponent = none) := by
    rcases hpoint with h | h <;> simp [h]
  simp only [ofNumeral?, hwhole, hfraction]
  rw [if_neg fun h => hnone ⟨h.2.1, h.2.2.1⟩]
  simpa using congrArg _ happrox

theorem value_signed (e : Int) :
    (Exponent.mk 'e' (some (if 0 ≤ e then '+' else '-')) (natDigits e.natAbs)).value = e := by
  unfold Exponent.value
  rw [ofDigits_natDigits]
  by_cases he : 0 ≤ e
  · rw [if_pos he, if_neg (by simp)]
    omega
  · rw [if_neg he, if_pos rfl]
    omega

/-- The digits of the numeral of a decimal and the power of ten that goes with them: those of the
decimal, unless it is written as a whole number, which gets a zero behind the point. -/
theorem digits_numeral (d : Decimal) :
    (ofDigits (numeral d).digits = d.digits ∧ (numeral d).scale = d.exponent) ∨
      0 ≤ d.exponent ∧ d.exponent + (natDigits d.digits).length ≤ 16 ∧
        ofDigits (numeral d).digits = d.digits * 10 ^ (d.exponent.toNat + 1) ∧
        (numeral d).scale = -1 := by
  have hpos := List.length_pos_iff.mpr (natDigits_ne_nil d.digits)
  have hvalue := ofDigits_natDigits d.digits
  unfold numeral
  dsimp only
  generalize natDigits d.digits = ds at *
  split
  · next hpositional =>
    split
    · next hwhole =>
      refine .inr ⟨hwhole, ?_, ?_, rfl⟩
      · simp only [Style.json, Bool.and_eq_true, decide_eq_true_eq] at hpositional
        omega
      · have hzero : ofDigits ['0'] = 0 := by decide
        rw [Numeral.digits, Option.getD_some, ofDigits_append, ofDigits_append, ofDigits_zeros,
          hvalue, hzero, List.length_replicate, List.length_singleton, pow_succ]
        ring
    · next hneg =>
      refine .inl ?_
      split
      · refine ⟨?_, ?_⟩
        · rw [Numeral.digits, Option.getD_some, List.take_append_drop, hvalue]
        · rw [Numeral.scale, Option.elim_none, Option.getD_some, List.length_drop]
          omega
      · refine ⟨?_, ?_⟩
        · have hzeros := ofDigits_zeros_append ((-d.exponent).toNat - ds.length + 1) ds
          rwa [List.replicate_succ, hvalue] at hzeros
        · rw [Numeral.scale, Option.elim_none, Option.getD_some, List.length_append,
            List.length_replicate]
          omega
  · refine .inl ⟨?_, ?_⟩
    · rw [Numeral.digits]
      split
      · next hone =>
        rw [Option.getD_none, List.append_nil, List.take_of_length_le hone.le, hvalue]
      · rw [Option.getD_some, List.take_append_drop, hvalue]
    · rw [Numeral.scale, Option.elim_some, value_signed]
      split
      · next hone =>
        rw [Option.getD_none, List.length_nil, hone]
        simp
      · rw [Option.getD_some, List.length_drop]
        omega

theorem isSome_numeral (d : Decimal) :
    (numeral d).fraction ≠ none ∨ (numeral d).exponent ≠ none := by
  unfold numeral
  dsimp only
  split
  · split
    · simp
    · split <;> simp
  · simp

/-- The numeral of a decimal stands for it. -/
theorem value_numeral (d : Decimal) :
    (ofDigits (numeral d).digits : ℚ) * 10 ^ (numeral d).scale = d.value := by
  rcases digits_numeral d with ⟨hdigits, hscale⟩ | ⟨hwhole, -, hdigits, hscale⟩
  · rw [hdigits, hscale, Decimal.value]
  · rw [hdigits, hscale, Decimal.value, Nat.cast_mul, Nat.cast_pow, ← zpow_natCast, mul_assoc,
      Nat.cast_ofNat, ← zpow_add₀ (by norm_num)]
    congr 2
    omega

/-- The digits of the numeral of a decimal with few digits fit in 64 bits. -/
theorem digits_numeral_lt {d : Decimal} (h : d.digits < 2 ^ 57) :
    ofDigits (numeral d).digits < 2 ^ 64 := by
  rcases digits_numeral d with ⟨hdigits, -⟩ | ⟨hwhole, hlength, hdigits, -⟩
  · omega
  · have hlt : d.digits < 10 ^ (natDigits d.digits).length :=
      (length_natDigits_le_iff (List.length_pos_iff.mpr (natDigits_ne_nil _))).mp le_rfl
    calc ofDigits (numeral d).digits = d.digits * 10 ^ (d.exponent.toNat + 1) := hdigits
      _ ≤ 10 ^ (natDigits d.digits).length * 10 ^ (d.exponent.toNat + 1) :=
          Nat.mul_le_mul_right _ hlt.le
      _ = 10 ^ ((natDigits d.digits).length + (d.exponent.toNat + 1)) := (pow_add _ _ _).symm
      _ ≤ 10 ^ 17 := Nat.pow_le_pow_right (by decide) (by omega)
      _ < 2 ^ 64 := by norm_num

theorem exponent_numeral {d : Decimal} {x : Exponent} (h : x ∈ (numeral d).exponent) :
    x.value = d.exponent + ((natDigits d.digits).length - 1 : ℕ) := by
  unfold numeral at h
  dsimp only at h
  split at h
  · split at h
    · simp at h
    · split at h <;> simp at h
  · rw [← Option.mem_some_iff.mp h, value_signed]

end Scorecard.Json
