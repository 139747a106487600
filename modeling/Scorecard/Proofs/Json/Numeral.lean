import Scorecard.Proofs.Number.Digits

/-!
# Numerals in JSON

The text of a number in JSON is a numeral behind its sign, and the digits of this numeral are all
there and none of them is needless: `isNumber_natDigits` for integers and `isNumber_shortest` for
doubles, whose numeral is `Json.numeral` of the shortest decimal.
-/

namespace Scorecard.Json

open Number

/-- The numeral of a decimal in JSON, in positional notation or with an exponent. -/
def numeral (d : Decimal) : Numeral :=
  let digits := natDigits d.digits
  let e := d.exponent + (digits.length - 1 : Nat)
  let places := (-d.exponent).toNat
  if Style.json.positional e then
    if 0 ≤ d.exponent then ⟨digits ++ List.replicate d.exponent.toNat '0', some ['0'], none⟩
    else if places < digits.length then
      ⟨digits.take (digits.length - places), some (digits.drop (digits.length - places)), none⟩
    else ⟨['0'], some (List.replicate (places - digits.length) '0' ++ digits), none⟩
  else
    ⟨digits.take 1, if digits.length = 1 then none else some (digits.drop 1),
      some ⟨'e', some (if 0 ≤ e then '+' else '-'), natDigits e.natAbs⟩⟩

theorem intText_of_neg {e : Int} (h : e < 0) : intText e = '-' :: natDigits e.natAbs := by
  rw [intText, if_pos h]
  rfl

theorem intText_of_nonneg {e : Int} (h : 0 ≤ e) : intText e = natDigits e.natAbs := by
  rw [intText, if_neg (by omega)]
  rfl

/-- A decimal is laid out as the text of its numeral. -/
theorem layout_eq (d : Decimal) : Style.json.layout d = (numeral d).text := by
  unfold Style.layout numeral
  dsimp only
  split
  · unfold inPlaces
    dsimp only
    split
    · simp [Numeral.text, Style.json]
    · split <;> simp [Numeral.text]
  · have hplus : Style.json.plus = true := rfl
    unfold scientific
    by_cases he : 0 ≤ d.exponent + ((natDigits d.digits).length - 1 : Nat)
    · rw [intText_of_nonneg he]
      split <;> simp [Numeral.text, Exponent.text, hplus, he]
    · rw [intText_of_neg (by omega)]
      split <;> simp [Numeral.text, Exponent.text, he]

/-- What the numbers of a text look like: their parts hold digits, and they are well written. -/
structure IsNumber (n : Numeral) : Prop extends n.HasParts where
  wellWritten : wellWritten n = true

/-- Parts that hold digits make a number if the first one has no needless zero and no part is
empty. -/
theorem isNumber_mk {whole : List Char} {fraction : Option (List Char)} {exponent : Option Exponent}
    (hwhole : ∀ c ∈ whole, isDigit c = true) (hne : whole ≠ [])
    (hzero : whole.head? ≠ some '0' ∨ whole.length = 1)
    (hfraction : ∀ ds ∈ fraction, ds ≠ [] ∧ ∀ c ∈ ds, isDigit c = true)
    (hexponent : ∀ x ∈ exponent, x.IsWritten) : IsNumber ⟨whole, fraction, exponent⟩ where
  whole := hwhole
  fraction := fun ds hds => (hfraction ds hds).2
  exponent := hexponent
  wellWritten := by
    have hnone : fraction ≠ some [] := fun h => (hfraction [] (by simp [h])).1 rfl
    simpa [Json.wellWritten, hne, hnone] using hzero

theorem zero_head?_natDigits (n : Nat) :
    (natDigits n).head? ≠ some '0' ∨ (natDigits n).length = 1 := by
  by_cases h : n = 0
  · exact .inr (by rw [h, natDigits_zero]; rfl)
  · exact .inl (head?_natDigits h)

theorem isNumber_natDigits (n : Nat) : IsNumber ⟨natDigits n, none, none⟩ :=
  isNumber_mk (fun _ hc => isDigit_of_mem_natDigits hc) (natDigits_ne_nil n)
    (zero_head?_natDigits n) (by simp) (by simp)

theorem isWritten_scientific (e : Int) :
    (Exponent.mk 'e' (some (if 0 ≤ e then '+' else '-')) (natDigits e.natAbs)).IsWritten where
  mark := .inl rfl
  sign := by
    intro s hs
    obtain rfl : _ = s := by simpa using hs
    split <;> simp
  digits_ne := natDigits_ne_nil _
  digits := fun _ hc => isDigit_of_mem_natDigits hc

/-- The numeral of a decimal is a number, provided that zero has the exponent 0. -/
theorem isNumber_numeral {d : Decimal} (h : d.digits = 0 → d.exponent = 0) :
    IsNumber (numeral d) := by
  have hdigits : ∀ c ∈ natDigits d.digits, isDigit c = true := fun _ hc =>
    isDigit_of_mem_natDigits hc
  have hne := natDigits_ne_nil d.digits
  have hpos := List.length_pos_iff.mpr hne
  unfold numeral
  dsimp only
  split
  · split
    · refine isNumber_mk ?_ (by simp [hne]) ?_ (by simp; decide) (by simp)
      · intro c hc
        exact (List.mem_append.mp hc).elim (hdigits c) isDigit_of_mem_zeros
      · by_cases hd : d.digits = 0
        · exact .inr (by rw [h hd, hd, natDigits_zero]; rfl)
        · exact .inl (by rw [List.head?_append_of_ne_nil _ hne]; exact head?_natDigits hd)
    · next hneg =>
      have hd : d.digits ≠ 0 := fun hd => hneg (by omega)
      split
      · refine isNumber_mk (fun c hc => hdigits c (List.mem_of_mem_take hc)) ?_ (.inl ?_) ?_
          (by simp)
        · rw [Ne, List.take_eq_nil_iff, not_or]
          exact ⟨by omega, hne⟩
        · rw [List.head?_take, if_neg (by omega)]
          exact head?_natDigits hd
        · rintro ds hds
          obtain rfl : _ = ds := by simpa using hds
          refine ⟨?_, fun c hc => hdigits c (List.mem_of_mem_drop hc)⟩
          rw [Ne, List.drop_eq_nil_iff]
          omega
      · refine isNumber_mk (by simp; decide) (by simp) (.inr rfl) ?_ (by simp)
        rintro ds hds
        obtain rfl : _ = ds := by simpa using hds
        refine ⟨by simp [hne], fun c hc => ?_⟩
        exact (List.mem_append.mp hc).elim isDigit_of_mem_zeros (hdigits c)
  · refine isNumber_mk (fun c hc => hdigits c (List.mem_of_mem_take hc)) ?_ (.inr ?_) ?_ ?_
    · rw [Ne, List.take_eq_nil_iff, not_or]
      exact ⟨by decide, hne⟩
    · rw [List.length_take]
      omega
    · intro ds hds
      split at hds
      · simp at hds
      · obtain rfl := Option.mem_some.mp hds
        refine ⟨?_, fun c hc => hdigits c (List.mem_of_mem_drop hc)⟩
        rw [Ne, List.drop_eq_nil_iff]
        omega
    · intro x hx
      obtain rfl : _ = x := by simpa using hx
      exact isWritten_scientific _

/-! ## Shortest decimals -/

theorem exponent_normalized (d : Decimal) (h : d.normalized.digits = 0) :
    d.normalized.exponent = 0 := by
  fun_induction Decimal.normalized d with
  | case1 => rfl
  | case2 d hne hten ih => exact ih h
  | case3 d hne hten => exact absurd h hne

/-- The shortest decimal of a double has a number for its numeral. -/
theorem isNumber_shortest (tie : Tie) (m : Magnitude) : IsNumber (numeral (m.shortest tie)) := by
  refine isNumber_numeral fun h => ?_
  unfold Magnitude.shortest at h ⊢
  split at h
  · next hm => rw [if_pos hm]
  · next hm =>
    rw [if_neg hm]
    exact exponent_normalized _ h

end Scorecard.Json
