import Scorecard.Number.Text
import Scorecard.Proofs.Number.Bits
import Scorecard.Proofs.Number.Scanning

/-!
# Texts of numbers are literals

A number that is written without exponent is a literal again, behind a minus sign if it is
negative.  `Numeral.IsPlain` is such a literal, and the lemmas say that every way of writing a
number yields one: the digits of an integer (`natDigits_isPlain`), a decimal in positional notation
(`inPlaces_isPlain`), and the text of a finite score (`scoreText_isPlain`).
-/

namespace Scorecard.Number

/-- The numeral is a literal without exponent. -/
structure Numeral.IsPlain (n : Numeral) : Prop extends IsLiteral n where
  exponent_eq : n.exponent = none

theorem isDigit_of_mem_natDigits {n : Nat} {c : Char} (h : c ∈ natDigits n) :
    isDigit c = true := by
  have hd : c.isDigit = true := Nat.isDigit_of_mem_toDigits (by decide) (by decide) h
  simpa [isDigit, Char.isDigit, Char.le_def] using hd

theorem natDigits_ne_nil (n : Nat) : natDigits n ≠ [] := Nat.toDigits_ne_nil

/-- Digits, and digits behind a point if there is one, make a plain literal. -/
theorem isPlain_mk {whole : List Char} {fraction : Option (List Char)} (hne : whole ≠ [])
    (hwhole : ∀ c ∈ whole, isDigit c = true)
    (hfraction : ∀ ds ∈ fraction, ∀ c ∈ ds, isDigit c = true) :
    (Numeral.mk whole fraction none).IsPlain where
  whole := hwhole
  fraction := hfraction
  exponent := by simp
  digits_ne := by simp [Numeral.digits, hne]
  exponent_eq := rfl

/-- The digits of a number as a numeral. -/
theorem natDigits_isPlain (n : Nat) : (Numeral.mk (natDigits n) none none).IsPlain :=
  isPlain_mk (natDigits_ne_nil n) (fun _ hc => isDigit_of_mem_natDigits hc) (by simp)

theorem isDigit_of_mem_zeros {k : Nat} {c : Char} (h : c ∈ List.replicate k '0') :
    isDigit c = true := by
  rw [List.eq_of_mem_replicate h]
  decide

/-- A decimal in positional notation is a plain literal.  It has a point if whole numbers get
one. -/
theorem inPlaces_isPlain (wholeHasPoint : Bool) (d : Decimal) :
    ∃ n : Numeral, n.IsPlain ∧ inPlaces wholeHasPoint d = n.text ∧
      (wholeHasPoint = true → n.fraction.isSome = true) := by
  have hdigits : ∀ c ∈ natDigits d.digits, isDigit c = true := fun _ hc =>
    isDigit_of_mem_natDigits hc
  by_cases he : 0 ≤ d.exponent
  · refine ⟨⟨natDigits d.digits ++ List.replicate d.exponent.toNat '0',
      if wholeHasPoint then some ['0'] else none, none⟩, isPlain_mk ?_ ?_ ?_, ?_, ?_⟩
    · simp [natDigits_ne_nil]
    · intro c hc
      rcases List.mem_append.mp hc with h | h
      · exact hdigits c h
      · exact isDigit_of_mem_zeros h
    · cases wholeHasPoint with
      | false => simp
      | true =>
        simp only [if_true, Option.mem_some_iff, forall_eq', List.mem_singleton, forall_eq]
        decide
    · cases wholeHasPoint <;> simp [inPlaces, he, Numeral.text]
    · rintro rfl
      rfl
  · by_cases hplaces : (-d.exponent).toNat < (natDigits d.digits).length
    · let cut := (natDigits d.digits).length - (-d.exponent).toNat
      refine ⟨⟨(natDigits d.digits).take cut, some ((natDigits d.digits).drop cut), none⟩,
        isPlain_mk ?_ ?_ ?_, ?_, fun _ => rfl⟩
      · rw [Ne, List.take_eq_nil_iff, not_or]
        exact ⟨by omega, natDigits_ne_nil _⟩
      · exact fun c hc => hdigits c (List.mem_of_mem_take hc)
      · rintro ds hds c hc
        obtain rfl : _ = ds := by simpa using hds
        exact hdigits c (List.mem_of_mem_drop hc)
      · simp [inPlaces, he, hplaces, Numeral.text, cut]
    · refine ⟨⟨['0'],
        some (List.replicate ((-d.exponent).toNat - (natDigits d.digits).length) '0' ++
          natDigits d.digits), none⟩, isPlain_mk (by simp) (by simp; decide) ?_, ?_, fun _ => rfl⟩
      · rintro ds hds c hc
        obtain rfl : _ = ds := by simpa using hds
        rcases List.mem_append.mp hc with h | h
        · exact isDigit_of_mem_zeros h
        · exact hdigits c h
      · simp [inPlaces, he, hplaces, Numeral.text]

/-- The text of a finite score is a plain literal behind its sign. -/
theorem scoreText_isPlain {x : Float} (h : x.isFinite = true) : ∃ n : Numeral, n.IsPlain ∧
    Style.score.text x = (if isNegative x then ['-'] else []) ++ n.text := by
  obtain ⟨n, hn, htext, _⟩ := inPlaces_isPlain false ((magnitude x).shortest .up)
  refine ⟨n, hn, ?_⟩
  unfold Style.text
  rw [isNaN_of_isFinite h, if_neg (by decide), if_pos h, ← htext]
  rfl

/-- The value of a numeral is a double with the sign that it is given. -/
theorem toFloat_eq_withSign (negative : Bool) (n : Numeral) :
    ∃ bits ≤ infinityBits, n.toFloat negative = withSign negative bits := by
  unfold Numeral.toFloat Numeral.valueOf
  split
  · exact ⟨0, Nat.zero_le _, rfl⟩
  · split
    · exact ⟨infinityBits, Nat.le_refl _, rfl⟩
    · exact nearest_eq_withSign negative _

end Scorecard.Number
