import Mathlib.Tactic.ByContra
import Scorecard.Number.Numeral

/-!
# The scanner takes a literal whole

`Numeral.IsLiteral` says which numerals the scanner can find: their parts hold digits, an exponent
has at least one, and so has the part before the exponent.  `Numeral.StopsBefore` says what may
follow such a numeral without becoming part of it.

There are two groups.

* A literal in front of a text that it stops before is scanned as itself (`scan_text_append`).
* What the scanner finds has the parts of a literal, and it stops before the rest
  (`scan_hasParts`, `scan_rest`).
-/

namespace Scorecard.Number

/-- A run of digits ends where the next character is no digit. -/
theorem span_digits {ds after : List Char} (hds : ∀ c ∈ ds, isDigit c = true)
    (hafter : ∀ c ∈ after.head?, isDigit c = false) :
    (ds ++ after).takeWhile isDigit = ds ∧ (ds ++ after).dropWhile isDigit = after := by
  rw [List.takeWhile_append_of_pos hds, List.dropWhile_append_of_pos hds]
  cases after with
  | nil => simp
  | cons c cs =>
    have hc : isDigit c = false := hafter c (by simp)
    simp [hc]

theorem mem_takeWhile_digits {c : Char} {cs : List Char} (h : c ∈ cs.takeWhile isDigit) :
    isDigit c = true :=
  List.all_eq_true.mp List.all_takeWhile c h

theorem head?_dropWhile_digits (cs : List Char) :
    ∀ c ∈ (cs.dropWhile isDigit).head?, isDigit c = false := by
  intro c hc
  have h := List.head?_dropWhile_not isDigit cs
  rw [hc] at h
  simpa using h

/-- The mark, the sign and the digits of an exponent are what they should be. -/
structure Exponent.IsWritten (x : Exponent) : Prop where
  mark : x.mark = 'e' ∨ x.mark = 'E'
  sign : ∀ s ∈ x.sign, s = '+' ∨ s = '-'
  digits_ne : x.digits ≠ []
  digits : ∀ c ∈ x.digits, isDigit c = true

namespace Numeral

/-- The parts of the numeral hold digits, and its exponent has one. -/
structure HasParts (n : Numeral) : Prop where
  whole : ∀ c ∈ n.whole, isDigit c = true
  fraction : ∀ ds ∈ n.fraction, ∀ c ∈ ds, isDigit c = true
  exponent : ∀ x ∈ n.exponent, x.IsWritten

/-- The numeral is a literal: it has a digit before the exponent. -/
structure IsLiteral (n : Numeral) : Prop extends HasParts n where
  digits_ne : n.digits ≠ []

/-- The text that follows does not carry the numeral on. -/
def StopsBefore (n : Numeral) (after : List Char) : Prop :=
  ∀ c ∈ after.head?, isDigit c = false ∧ (c = 'e' ∨ c = 'E' → n.exponent.isSome) ∧
    (c = '.' → n.fraction.isSome ∨ n.exponent.isSome)

theorem stopsBefore_nil (n : Numeral) : n.StopsBefore [] := by
  intro c hc
  simp at hc

theorem not_isDigit_of_mark {x : Exponent} (hx : x.IsWritten) : isDigit x.mark = false := by
  rcases hx.mark with h | h <;> rw [h] <;> decide

/-! ## A literal is scanned as itself -/

theorem scanSign_append {sign : Option Char} {after : List Char}
    (hsign : ∀ s ∈ sign, s = '+' ∨ s = '-') (hafter : ∀ c ∈ after.head?, isDigit c = true) :
    scanSign (sign.toList ++ after) = (sign, after) := by
  cases sign with
  | some s => rcases hsign s rfl with rfl | rfl <;> rfl
  | none =>
    cases after with
    | nil => rfl
    | cons c cs =>
      have hc : isDigit c = true := hafter c (by simp)
      unfold scanSign
      split
      · next heq => injection heq with h; subst h; exact absurd hc (by decide)
      · next heq => injection heq with h; subst h; exact absurd hc (by decide)
      · rfl

theorem scanExponent_append {x : Exponent} (hx : x.IsWritten) {after : List Char}
    (hafter : ∀ c ∈ after.head?, isDigit c = false) :
    scanExponent (x.text ++ after) = (some x, after) := by
  obtain ⟨d, ds, hd⟩ := List.exists_cons_of_ne_nil hx.digits_ne
  have hsign : scanSign (x.sign.toList ++ (x.digits ++ after)) = (x.sign, x.digits ++ after) := by
    refine scanSign_append hx.sign ?_
    intro c hc
    rw [hd] at hc
    simp only [List.cons_append, List.head?_cons, Option.mem_def, Option.some.injEq] at hc
    subst hc
    exact hx.digits d (by simp [hd])
  obtain ⟨htake, hdrop⟩ := span_digits hx.digits hafter
  simp only [Exponent.text, List.cons_append, List.append_assoc, scanExponent, hsign, htake, hdrop]
  rw [if_pos ⟨hx.mark, hx.digits_ne⟩]

theorem scanExponent_eq_none {after : List Char}
    (hafter : ∀ c ∈ after.head?, ¬(c = 'e' ∨ c = 'E')) : scanExponent after = (none, after) := by
  cases after with
  | nil => rfl
  | cons c cs =>
    have hc : ¬(c = 'e' ∨ c = 'E') := hafter c (by simp)
    simp [scanExponent, hc]

theorem scanFraction_eq_none {after : List Char} (hafter : ∀ c ∈ after.head?, c ≠ '.') :
    scanFraction after = (none, after) := by
  cases after with
  | nil => rfl
  | cons c cs =>
    have hc : c ≠ '.' := hafter c (by simp)
    unfold scanFraction
    split
    · next heq => injection heq with h; exact absurd h hc
    · rfl

/-- The exponent and what follows it, scanned behind the digits of a numeral. -/
theorem scanExponent_elim {n : Numeral} (hn : n.HasParts) {after : List Char}
    (hafter : n.StopsBefore after) :
    scanExponent (n.exponent.elim [] Exponent.text ++ after) = (n.exponent, after) := by
  cases hx : n.exponent with
  | some x =>
    exact scanExponent_append (hn.exponent x hx) fun c hc => (hafter c hc).1
  | none =>
    refine scanExponent_eq_none fun c hc he => ?_
    simpa [hx] using (hafter c hc).2.1 he

/-- No digit stands behind the digits of a numeral. -/
theorem head?_exponent_append {n : Numeral} (hn : n.HasParts) {after : List Char}
    (hafter : n.StopsBefore after) :
    ∀ c ∈ (n.exponent.elim [] Exponent.text ++ after).head?, isDigit c = false := by
  intro c hc
  cases hx : n.exponent with
  | some x =>
    simp only [hx, Option.elim_some, Exponent.text, List.cons_append, List.head?_cons,
      Option.mem_def, Option.some.injEq] at hc
    rw [← hc]
    exact not_isDigit_of_mark (hn.exponent x hx)
  | none =>
    rw [hx] at hc
    exact (hafter c hc).1

/-- A numeral in front of a text that it stops before is scanned as itself. -/
theorem scan_text_append {n : Numeral} (hn : n.HasParts) {after : List Char}
    (hafter : n.StopsBefore after) : scan (n.text ++ after) = (n, after) := by
  have hexp := scanExponent_elim hn hafter
  have hhead := head?_exponent_append hn hafter
  obtain ⟨whole, fraction, exponent⟩ := n
  simp only at hexp hhead
  cases fraction with
  | some ds =>
    have hdot : ∀ c ∈ ('.' :: (ds ++ (exponent.elim [] Exponent.text ++ after))).head?,
        isDigit c = false := by simp; decide
    obtain ⟨htake, hdrop⟩ := span_digits hn.whole hdot
    obtain ⟨ftake, fdrop⟩ := span_digits (hn.fraction ds rfl) hhead
    simp [scan, text, htake, hdrop, scanFraction, ftake, fdrop, hexp]
  | none =>
    obtain ⟨htake, hdrop⟩ := span_digits hn.whole hhead
    have hfrac : scanFraction (exponent.elim [] Exponent.text ++ after) =
        (none, exponent.elim [] Exponent.text ++ after) := by
      refine scanFraction_eq_none fun c hc => ?_
      cases exponent with
      | some x =>
        simp only [Option.elim_some, Exponent.text, List.cons_append, List.head?_cons,
          Option.mem_def, Option.some.injEq] at hc
        rw [← hc]
        rcases (hn.exponent x rfl).mark with h | h <;> rw [h] <;> decide
      | none =>
        rintro rfl
        simpa using (hafter _ hc).2.2 rfl
    simp [scan, text, htake, hdrop, hfrac, hexp]

/-! ## What the scanner finds -/

theorem scanSign_sign (cs : List Char) : ∀ s ∈ (scanSign cs).1, s = '+' ∨ s = '-' := by
  unfold scanSign
  split <;> simp

theorem scanExponent_isWritten (cs : List Char) :
    ∀ x ∈ (scanExponent cs).1, x.IsWritten := by
  intro x hx
  cases cs with
  | nil => simp [scanExponent] at hx
  | cons mark cs =>
    simp only [scanExponent] at hx
    split at hx
    · next h =>
      obtain rfl : _ = x := by simpa using hx
      exact ⟨h.1, scanSign_sign cs, h.2, fun c hc => mem_takeWhile_digits hc⟩
    · simp at hx

theorem scanExponent_rest {cs : List Char} (hcs : ∀ c ∈ cs.head?, isDigit c = false) :
    ∀ c ∈ (scanExponent cs).2.head?, isDigit c = false := by
  cases cs with
  | nil => simp [scanExponent]
  | cons mark cs =>
    simp only [scanExponent]
    split
    · exact head?_dropWhile_digits _
    · exact hcs

/-- Where no exponent is found, the text is left as it is. -/
theorem scanExponent_eq_self {cs : List Char} (h : (scanExponent cs).1 = none) :
    (scanExponent cs).2 = cs := by
  simpa [h] using scanExponent_text cs

theorem scanFraction_digits (cs : List Char) :
    ∀ ds ∈ (scanFraction cs).1, ∀ c ∈ ds, isDigit c = true := by
  unfold scanFraction
  split
  · rintro ds hds c hc
    obtain rfl : _ = ds := by simpa using hds
    exact mem_takeWhile_digits hc
  · simp

theorem scanFraction_rest {cs : List Char} (hcs : ∀ c ∈ cs.head?, isDigit c = false) :
    ∀ c ∈ (scanFraction cs).2.head?, isDigit c = false := by
  unfold scanFraction
  split
  · exact head?_dropWhile_digits _
  · exact hcs

/-- Where no point is found, the text does not begin with one. -/
theorem head?_of_scanFraction_none {cs : List Char} (h : (scanFraction cs).1 = none) :
    ∀ c ∈ (scanFraction cs).2.head?, c ≠ '.' := by
  unfold scanFraction at h ⊢
  split at h
  · simp at h
  · next hne =>
    rintro c hc rfl
    cases cs with
    | nil => simp at hc
    | cons d ds =>
      simp only [List.head?_cons, Option.mem_def, Option.some.injEq] at hc
      exact hne ds (by rw [hc])

/-- The parts that the scanner finds hold what they should. -/
theorem scan_hasParts (cs : List Char) : (scan cs).1.HasParts where
  whole _ hc := mem_takeWhile_digits hc
  fraction := scanFraction_digits _
  exponent := scanExponent_isWritten _

/-- The scanner stops before the rest: no digit follows, and no point that it could have taken. -/
theorem scan_rest (cs : List Char) : ∀ c ∈ (scan cs).2.head?, isDigit c = false ∧
    (c = '.' → (scan cs).1.fraction.isSome ∨ (scan cs).1.exponent.isSome) := by
  intro c hc
  refine ⟨scanExponent_rest (scanFraction_rest (head?_dropWhile_digits cs)) c hc, ?_⟩
  rintro rfl
  by_contra hne
  simp only [scan, not_or, Option.not_isSome_iff_eq_none] at hne hc
  rw [scanExponent_eq_self hne.2] at hc
  exact head?_of_scanFraction_none hne.1 _ hc rfl

/-- A sign in a numeral has only digits behind it: it is the sign of the exponent. -/
theorem isDigit_of_mem_after_sign {n : Numeral} (hn : n.HasParts) {c : Char}
    {before after : List Char} (hc : c = '+' ∨ c = '-') (h : n.text = before ++ c :: after) :
    ∀ d ∈ after, isDigit d = true := by
  have hdigit : isDigit c = false := by rcases hc with rfl | rfl <;> decide
  have hfront : c ∉ n.whole ++ n.fraction.elim [] ('.' :: ·) := by
    intro hmem
    rcases List.mem_append.mp hmem with hmem | hmem
    · rw [hn.whole c hmem] at hdigit
      exact absurd hdigit (by decide)
    · cases hf : n.fraction with
      | none => simp [hf] at hmem
      | some ds =>
        rw [hf] at hmem
        rcases List.mem_cons.mp hmem with rfl | hmem
        · rcases hc with hc | hc <;> exact absurd hc (by decide)
        · rw [hn.fraction ds hf c hmem] at hdigit
          exact absurd hdigit (by decide)
  cases hx : n.exponent with
  | none =>
    simp only [text, hx, Option.elim_none, List.append_nil] at h
    exact absurd (by simp [h]) hfront
  | some x =>
    have hwritten := hn.exponent x hx
    have hmark : c ≠ x.mark := by
      rcases hc with rfl | rfl <;> rcases hwritten.mark with h | h <;> rw [h] <;> decide
    have hin : c ∉ x.digits := by
      intro hmem
      rw [hwritten.digits c hmem] at hdigit
      exact absurd hdigit (by decide)
    simp only [text, hx, Option.elim_some, Exponent.text, List.cons_append] at h
    rcases List.append_eq_append_iff.mp h with ⟨as, -, hrest⟩ | ⟨bs, hbs, hrest⟩
    · cases as with
      | nil => exact absurd (List.cons.inj hrest).1.symm hmark
      | cons a as =>
        have hdigits := (List.cons.inj hrest).2
        cases hs : x.sign with
        | none =>
          simp only [hs, Option.toList_none, List.nil_append] at hdigits
          exact absurd (by simp [hdigits]) hin
        | some s =>
          simp only [hs, Option.toList_some, List.cons_append, List.nil_append] at hdigits
          cases as with
          | nil =>
            rw [← (List.cons.inj hdigits).2]
            exact hwritten.digits
          | cons b as => exact absurd (by simp [(List.cons.inj hdigits).2]) hin
    · cases bs with
      | nil => exact absurd (List.cons.inj hrest).1 hmark
      | cons b bs =>
        obtain rfl := (List.cons.inj hrest).1
        exact absurd (by simp [hbs]) hfront

end Numeral

end Scorecard.Number
