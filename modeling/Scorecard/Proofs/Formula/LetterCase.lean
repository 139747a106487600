import Mathlib.Data.List.Forall2
import Scorecard.Formula.Token
import Scorecard.Proofs.Formula.Rewriting
import Scorecard.Proofs.Text.LowerCase

/-!
# Formulas in another letter case

The scanner does not see the case of the letters A to Z: it asks only whether a character is a word
character, a digit, a point or a sign, and takes both marks of an exponent.  So the tokens of a
lower-cased formula are the tokens of the formula, lower-cased (`tokens_asciiLowered`), and formulas
that differ in case only have the same tokens but for case (`tokens_sameButCase`).

* `Token.SameButCase` relates two such tokens.  Their lower-cased texts are the same, so they are
  equally long, and literals have the same value (`withPoint_eq`).
* `fractional_eq_of_wordless`: without words, case is gone once the literals are written with a
  point.
* `occurrences` lists the words of a formula with their places, which case does not change
  (`occurrences_sameButCase`).
-/

namespace Scorecard

open Number (Numeral Exponent isDigit)

/-! ## Characters -/

namespace Text

/-- Lower case makes no character that is no letter. -/
theorem asciiLowerChar_eq_iff {c d : Char} (hlower : ¬ (97 ≤ d.toNat ∧ d.toNat ≤ 122))
    (hupper : ¬ (65 ≤ d.toNat ∧ d.toNat ≤ 90)) : asciiLowerChar c = d ↔ c = d := by
  rw [← Char.toNat_inj, ← Char.toNat_inj, toNat_asciiLowerChar]
  split <;> omega

theorem isDigit_iff (c : Char) : isDigit c = true ↔ 48 ≤ c.toNat ∧ c.toNat ≤ 57 := by
  simp [isDigit, Char.le_def, UInt32.le_iff_toNat_le]

@[simp] theorem isDigit_asciiLowerChar (c : Char) : isDigit (asciiLowerChar c) = isDigit c := by
  rw [Bool.eq_iff_iff, isDigit_iff, isDigit_iff, toNat_asciiLowerChar]
  split <;> omega

theorem asciiLowered_of_digits {ds : List Char} (h : ∀ c ∈ ds, isDigit c = true) :
    asciiLowered ds = ds :=
  (List.map_congr_left fun c hc => Formula.asciiLowerChar_of_isDigit (h c hc)).trans (List.map_id ds)

theorem asciiLowered_cons (c : Char) (cs : List Char) :
    asciiLowered (c :: cs) = asciiLowerChar c :: asciiLowered cs := rfl

theorem asciiLowered_append (cs ds : List Char) :
    asciiLowered (cs ++ ds) = asciiLowered cs ++ asciiLowered ds := List.map_append

/-- A class of characters that contains both cases of a letter is taken from the front alike. -/
theorem takeWhile_asciiLowered {p : Char → Bool} (h : ∀ c, p (asciiLowerChar c) = p c)
    (cs : List Char) : (asciiLowered cs).takeWhile p = asciiLowered (cs.takeWhile p) := by
  rw [asciiLowered, List.takeWhile_map, show p ∘ asciiLowerChar = p from funext h, asciiLowered]

theorem dropWhile_asciiLowered {p : Char → Bool} (h : ∀ c, p (asciiLowerChar c) = p c)
    (cs : List Char) : (asciiLowered cs).dropWhile p = asciiLowered (cs.dropWhile p) := by
  rw [asciiLowered, List.dropWhile_map, show p ∘ asciiLowerChar = p from funext h, asciiLowered]

theorem takeWhile_isDigit_asciiLowered (cs : List Char) :
    (asciiLowered cs).takeWhile isDigit = cs.takeWhile isDigit :=
  (takeWhile_asciiLowered isDigit_asciiLowerChar cs).trans
    (asciiLowered_of_digits fun _ hc => Number.mem_takeWhile_digits hc)

end Text

open Text

/-! ## Numerals -/

namespace Number

/-- The exponent with its mark in lower case. -/
def Exponent.lowered (x : Exponent) : Exponent := { x with mark := asciiLowerChar x.mark }

namespace Numeral

/-- The numeral with the mark of its exponent in lower case. -/
def lowered (n : Numeral) : Numeral := { n with exponent := n.exponent.map Exponent.lowered }

theorem scanSign_asciiLowered (cs : List Char) :
    scanSign (asciiLowered cs) = ((scanSign cs).1, asciiLowered (scanSign cs).2) := by
  cases cs with
  | nil => rfl
  | cons c cs =>
    have hplus : asciiLowerChar c = '+' ↔ c = '+' :=
      asciiLowerChar_eq_iff (by decide) (by decide)
    have hminus : asciiLowerChar c = '-' ↔ c = '-' :=
      asciiLowerChar_eq_iff (by decide) (by decide)
    have hsign : ∀ (d : Char) (ds : List Char), scanSign (d :: ds) =
        if d = '+' then (some '+', ds) else if d = '-' then (some '-', ds) else (none, d :: ds) := by
      intro d ds
      unfold scanSign
      split <;> simp_all
    simp only [asciiLowered, List.map_cons, hsign, hplus, hminus]
    split
    · rfl
    · split <;> rfl

theorem asciiLowerChar_mark_iff (c : Char) :
    (asciiLowerChar c = 'e' ∨ asciiLowerChar c = 'E') ↔ (c = 'e' ∨ c = 'E') := by
  have hlower : 'e'.toNat = 101 := rfl
  have hupper : 'E'.toNat = 69 := rfl
  simp only [← Char.toNat_inj, toNat_asciiLowerChar, hlower, hupper]
  split <;> omega

theorem scanExponent_asciiLowered (cs : List Char) : scanExponent (asciiLowered cs) =
    ((scanExponent cs).1.map Exponent.lowered, asciiLowered (scanExponent cs).2) := by
  cases cs with
  | nil => rfl
  | cons mark cs =>
    rw [asciiLowered_cons]
    simp only [scanExponent, scanSign_asciiLowered, takeWhile_isDigit_asciiLowered,
      dropWhile_asciiLowered isDigit_asciiLowerChar, asciiLowerChar_mark_iff]
    split <;> rfl

theorem scanFraction_asciiLowered (cs : List Char) :
    scanFraction (asciiLowered cs) = ((scanFraction cs).1, asciiLowered (scanFraction cs).2) := by
  cases cs with
  | nil => rfl
  | cons c cs =>
    have hpoint : asciiLowerChar c = '.' ↔ c = '.' :=
      asciiLowerChar_eq_iff (by decide) (by decide)
    have hfraction : ∀ (d : Char) (ds : List Char), scanFraction (d :: ds) =
        if d = '.' then (some (ds.takeWhile isDigit), ds.dropWhile isDigit) else (none, d :: ds) := by
      intro d ds
      unfold scanFraction
      split <;> simp_all
    rw [asciiLowered_cons, hfraction, hfraction]
    simp only [hpoint, takeWhile_isDigit_asciiLowered, dropWhile_asciiLowered isDigit_asciiLowerChar]
    split <;> rfl

theorem scan_asciiLowered (cs : List Char) :
    scan (asciiLowered cs) = ((scan cs).1.lowered, asciiLowered (scan cs).2) := by
  simp only [scan, dropWhile_asciiLowered isDigit_asciiLowerChar, takeWhile_isDigit_asciiLowered,
    scanFraction_asciiLowered, scanExponent_asciiLowered]
  rfl

/-- The text of a lower-cased numeral is the lower-cased text. -/
theorem HasParts.lowered_text {n : Numeral} (hn : n.HasParts) :
    n.lowered.text = asciiLowered n.text := by
  have hfraction : asciiLowered (n.fraction.elim [] ('.' :: ·)) = n.fraction.elim [] ('.' :: ·) := by
    cases hds : n.fraction with
    | none => rfl
    | some ds => exact congrArg ('.' :: ·) (asciiLowered_of_digits (hn.fraction ds hds))
  have hexponent : n.lowered.exponent.elim [] Exponent.text =
      asciiLowered (n.exponent.elim [] Exponent.text) := by
    cases hx : n.exponent with
    | none => simp [lowered, hx, asciiLowered]
    | some x =>
      have hwritten := hn.exponent x hx
      have hsign : asciiLowered x.sign.toList = x.sign.toList := by
        cases hsign : x.sign with
        | none => rfl
        | some s => rcases hwritten.sign s hsign with rfl | rfl <;> rfl
      have hdigits := asciiLowered_of_digits hwritten.digits
      simp only [asciiLowered] at hsign hdigits
      simp [lowered, hx, Exponent.text, Exponent.lowered, asciiLowered, hsign, hdigits]
  rw [text, text, hexponent, asciiLowered_append, asciiLowered_append, hfraction,
    asciiLowered_of_digits hn.whole]
  rfl

/-- The mark of an exponent does not change the value. -/
theorem toFloat_lowered (negative : Bool) (n : Numeral) :
    n.lowered.toFloat negative = n.toFloat negative := by
  obtain ⟨whole, fraction, exponent⟩ := n
  cases exponent <;> rfl

end Numeral

end Number

/-! ## Tokens -/

namespace Formula

theorem isWordChar_asciiLowerChar (c : Char) : isWordChar (asciiLowerChar c) = isWordChar c := by
  rw [Bool.eq_iff_iff, isWordChar_iff, isWordChar_iff, toNat_asciiLowerChar]
  split <;> omega

/-- The token with the letters A to Z in lower case. -/
def Token.lowered : Token → Token
  | .number n => .number n.lowered
  | .word w => .word (asciiLowered w)
  | .other c => .other (asciiLowerChar c)

theorem next_asciiLowered (c : Char) (cs : List Char) :
    next (asciiLowerChar c) (asciiLowered cs) = ((next c cs).1.lowered, asciiLowered (next c cs).2) := by
  have hpoint : asciiLowerChar c = '.' ↔ c = '.' := asciiLowerChar_eq_iff (by decide) (by decide)
  have hscan := Numeral.scan_asciiLowered (c :: cs)
  rw [asciiLowered_cons] at hscan
  have hhead : (asciiLowered cs).head?.any isDigit = cs.head?.any isDigit := by
    cases cs <;> simp [asciiLowered]
  have hlength : ∀ ds : List Char, (asciiLowered ds).length = ds.length := fun ds =>
    List.length_map ..
  simp only [next, hscan, hpoint, hhead, isWordChar_asciiLowerChar, isDigit_asciiLowerChar,
    dropWhile_asciiLowered isWordChar_asciiLowerChar,
    takeWhile_asciiLowered isWordChar_asciiLowerChar, hlength]
  split
  · split <;> rfl
  · split
    · split <;> rfl
    · rfl

/-- The tokens of a lower-cased text are its tokens, lower-cased. -/
theorem tokens_asciiLowered (cs : List Char) :
    tokens (asciiLowered cs) = (tokens cs).map Token.lowered := by
  fun_induction tokens cs with
  | case1 => exact tokens_nil
  | case2 c cs ih =>
    have hnext := next_asciiLowered c cs
    rw [asciiLowered_cons, tokens_cons, hnext, ih, List.map_cons]

/-- Two tokens of formulas differ in case only. -/
structure Token.SameButCase (t u : Token) : Prop where
  left : t.IsCut
  right : u.IsCut
  lowered_eq : t.lowered = u.lowered

/-- Formulas that differ in case only have the same tokens but for case. -/
theorem tokens_sameButCase {cs ds : List Char} (h : asciiLowered cs = asciiLowered ds) :
    List.Forall₂ Token.SameButCase (tokens cs) (tokens ds) := by
  have hlowered : (tokens cs).map Token.lowered = (tokens ds).map Token.lowered := by
    rw [← tokens_asciiLowered, h, tokens_asciiLowered]
  rw [← List.forall₂_eq_eq_eq, List.forall₂_map_left_iff, List.forall₂_map_right_iff] at hlowered
  rw [List.forall₂_iff_get] at hlowered ⊢
  refine ⟨hlowered.1, fun k hk hk' => ?_⟩
  exact ⟨isCut_of_mem_tokens (List.get_mem ..), isCut_of_mem_tokens (List.get_mem ..),
    hlowered.2 k hk hk'⟩

namespace Token

theorem IsCut.lowered_text {t : Token} (ht : t.IsCut) : t.lowered.text = asciiLowered t.text := by
  cases t with
  | number n => exact ht.toHasParts.lowered_text
  | word w => rfl
  | other c => rfl

/-- A character that is a token of its own has no other case. -/
theorem IsCut.lowered_other {c : Char} (hc : (other c).IsCut) : asciiLowerChar c = c := by
  refine asciiLowerChar_of_not_isCapital fun hcapital => ?_
  have hword := (isWordChar_iff c).mpr (.inr (.inl hcapital))
  rw [show isWordChar c = false from hc] at hword
  exact absurd hword (by decide)

namespace SameButCase

variable {t u : Token}

theorem text_eq (h : t.SameButCase u) : asciiLowered t.text = asciiLowered u.text := by
  rw [← h.left.lowered_text, h.lowered_eq, h.right.lowered_text]

theorem length_eq (h : t.SameButCase u) : t.text.length = u.text.length := by
  simpa [asciiLowered] using congrArg List.length h.text_eq

/-- The other token is of the same kind. -/
theorem exists_word {w : List Char} (h : (word w).SameButCase u) :
    ∃ v, u = word v ∧ asciiLowered w = asciiLowered v := by
  cases u with
  | word v => exact ⟨v, rfl, word.inj h.lowered_eq⟩
  | _ => cases h.lowered_eq

theorem isWord_eq (h : t.SameButCase u) : t.isWord = u.isWord := by
  obtain ⟨-, -, heq⟩ := h
  cases t <;> cases u <;> first | rfl | cases heq

/-- Tokens that are no words are written alike for the evaluator: a literal keeps its value. -/
theorem withPoint_eq (h : t.SameButCase u) (hword : t.isWord = false) :
    withPoint t = withPoint u := by
  obtain ⟨ht, hu, heq⟩ := h
  cases t with
  | word w => exact absurd hword (by simp [isWord])
  | number n =>
    cases u with
    | number m =>
      have hvalue : n.toFloat false = m.toFloat false := by
        rw [← Numeral.toFloat_lowered, number.inj heq, Numeral.toFloat_lowered]
      rw [withPoint, withPoint, hvalue]
    | _ => cases heq
  | other c =>
    cases u with
    | other d =>
      have hlower : asciiLowerChar c = asciiLowerChar d := other.inj heq
      rw [ht.lowered_other, hu.lowered_other] at hlower
      rw [hlower]
    | _ => cases heq

end SameButCase

end Token

/-- Related lists are mapped to the same list, if related elements are mapped to the same part. -/
theorem flatMap_eq_of_forall₂ {α β γ : Type} {R : α → β → Prop} {f : α → List γ} {g : β → List γ}
    {as : List α} {bs : List β} (h : List.Forall₂ R as bs) (hfg : ∀ a b, R a b → f a = g b) :
    as.flatMap f = bs.flatMap g := by
  induction h with
  | nil => rfl
  | cons hhead _ ih => rw [List.flatMap_cons, List.flatMap_cons, hfg _ _ hhead, ih]

/-- Formulas without words that differ in case only are the same to the evaluator. -/
theorem fractional_eq_of_wordless {a b : String} (h : sameIgnoringAsciiCase a b = true)
    (ha : ∀ t ∈ tokens a.toList, t.isWord = false) : fractional a = fractional b := by
  have htokens := tokens_sameButCase (show asciiLowered a.toList = asciiLowered b.toList by
    simpa [sameIgnoringAsciiCase] using h)
  have hboth : List.Forall₂ (fun t u => t.isWord = false ∧ t.SameButCase u) (tokens a.toList)
      (tokens b.toList) := (List.forall₂_and_left _ _).mpr ⟨ha, htokens⟩
  rw [fractional, fractional, rewriteTokens, rewriteTokens,
    flatMap_eq_of_forall₂ hboth fun t u htu => htu.2.withPoint_eq htu.1]

/-! ## Places of words -/

/-- The token with its place, if it is a word. -/
def Token.occurrence (place : Nat) : Token → List (Nat × String)
  | .word w => [(place, String.ofList w)]
  | _ => []

/-- The words among tokens, each with the number of characters in front of it, where the tokens
begin at a place. -/
def occurrences (place : Nat) : List Token → List (Nat × String)
  | [] => []
  | t :: ts => t.occurrence place ++ occurrences (place + t.text.length) ts

/-- The words are the identifiers of the formula. -/
theorem map_snd_occurrences (formula : String) :
    (occurrences 0 (tokens formula.toList)).map Prod.snd = identifiers formula := by
  rw [identifiers]
  generalize tokens formula.toList = ts
  generalize 0 = place
  induction ts generalizing place with
  | nil => rfl
  | cons t ts ih => cases t <;> simp [occurrences, Token.occurrence, ih]

/-- Tokens that differ in case only have words that do so, in the same places. -/
theorem occurrences_sameButCase {ts us : List Token} (h : List.Forall₂ Token.SameButCase ts us)
    (place : Nat) :
    List.Forall₂ (fun o o' => o.1 = o'.1 ∧ sameIgnoringAsciiCase o.2 o'.2 = true)
      (occurrences place ts) (occurrences place us) := by
  induction h generalizing place with
  | nil => exact .nil
  | @cons t u ts us hhead _ ih =>
    rw [occurrences, occurrences, hhead.length_eq]
    refine List.rel_append ?_ (ih _)
    cases t with
    | word w =>
      obtain ⟨v, rfl, hwv⟩ := hhead.exists_word
      exact .cons ⟨rfl, by simpa [sameIgnoringAsciiCase] using hwv⟩ .nil
    | _ =>
      have hword := hhead.isWord_eq
      cases u with
      | word v => exact absurd hword (by simp [Token.isWord])
      | _ => exact .nil

end Formula

end Scorecard
