import Scorecard.Proofs.Formula.Opening
import Scorecard.Proofs.Formula.Rewriting

/-!
# Formulas without words

Where every word of a formula is replaced by a numeral, no word is left: what remains of the letters
are marks of exponents inside literals.  This is not plain, because numerals are put beside literals
and points and the text is then cut anew.

* `Loose` is the shape of a text behind which no word can appear, wherever a literal in front of it
  ends: it begins with a separator, a point or a digit, and its exponents stand in literals that
  begin with a point.
* `Loose.scan_append`: behind a literal, the text that the scanner leaves has this shape again.  So
  such texts have no words, and none with a literal in front of them (`Loose.wordless`,
  `wordless_text_append`).
* `wordless_rewritten` is the induction over the tokens of the formula.  Of its tokens only a literal
  that begins with a digit is not loose, and that stands at the front or behind a separator.
-/

namespace Scorecard.Formula

open Number (Numeral Exponent isDigit)
open Number.Numeral

/-- No token of the text is a word. -/
def Wordless (cs : List Char) : Prop := ∀ t ∈ tokens cs, t.isWord = false

/-- The text has no words, wherever a literal in front of it ends. -/
inductive Loose : List Char → Prop
  | nil : Loose []
  | separator {c : Char} {cs : List Char} (hc : separates c = true) (hcs : Wordless cs) :
      Loose (c :: cs)
  | point {cs : List Char} (h : Loose cs) : Loose ('.' :: cs)
  | digit {c : Char} {cs : List Char} (hc : isDigit c = true) (h : Loose cs) : Loose (c :: cs)
  /-- A literal that begins with a point and has an exponent. -/
  | scientific {d : Char} {ds : List Char} {x : Exponent} {cs : List Char}
      (hds : ∀ c ∈ d :: ds, isDigit c = true) (hx : x.IsWritten) (h : Loose cs) :
      Loose ('.' :: (d :: ds ++ (x.text ++ cs)))

/-- Texts in front of which loose texts are loose. -/
def KeepsLoose (cs : List Char) : Prop := ∀ after, Loose after → Loose (cs ++ after)

/-- Digits keep a text loose. -/
theorem keepsLoose_digits {ds : List Char} (h : ∀ c ∈ ds, isDigit c = true) : KeepsLoose ds := by
  intro after hafter
  induction ds with
  | nil => exact hafter
  | cons c cs ih => exact .digit (h c (by simp)) (ih fun d hd => h d (by simp [hd]))

/-! ## What the scanner leaves -/

section

variable {cs : List Char}

theorem Loose.dropWhile_digits (h : Loose cs) : Loose (cs.dropWhile isDigit) := by
  induction h with
  | nil => exact .nil
  | @separator c cs hc hcs =>
    rw [List.dropWhile_cons, isDigit_of_not_isWordChar (isWordChar_of_separates hc)]
    exact .separator hc hcs
  | point h _ => exact .point h
  | @digit c cs hc _ ih => rwa [List.dropWhile_cons, hc, if_pos rfl]
  | scientific hds hx h _ => exact .scientific hds hx h

/-- A loose text begins with no letter. -/
theorem Loose.isDigit_of_isWordChar (h : Loose cs) : ∀ c ∈ cs.head?, isWordChar c = true →
    isDigit c = true := by
  intro c hc hword
  cases h with
  | nil => simp at hc
  | separator hsep _ =>
    obtain rfl := Option.some.inj hc
    rw [isWordChar_of_separates hsep] at hword
    exact absurd hword (by decide)
  | digit hdigit _ => exact Option.some.inj hc ▸ hdigit
  | point _ | scientific _ _ _ =>
    obtain rfl := Option.some.inj hc
    exact absurd hword (by decide)

theorem Loose.scanExponent_eq (h : Loose cs) : scanExponent cs = (none, cs) := by
  refine scanExponent_eq_none fun c hc hmark => ?_
  have hletter : isWordChar c = true ∧ isDigit c = false := by
    rcases hmark with rfl | rfl <;> decide
  have hdigit := h.isDigit_of_isWordChar c hc hletter.1
  rw [hletter.2] at hdigit
  exact absurd hdigit (by decide)

/-- The scanner leaves a loose text of a literal and a loose text. -/
theorem Loose.scan_append (h : Loose cs) {n : Numeral} (hn : n.HasParts)
    (hmore : n.fraction.isSome ∨ n.exponent.isSome) : Loose (scan (n.text ++ cs)).2 := by
  obtain ⟨whole, fraction, exponent⟩ := n
  have hwhole : ∀ ds, (whole ++ ds).dropWhile isDigit = ds.dropWhile isDigit := fun ds =>
    List.dropWhile_append_of_pos hn.whole
  cases fraction with
  | some ds =>
    have hpoint : isDigit '.' = false := by decide
    have hfraction : ∀ es, (ds ++ es).dropWhile isDigit = es.dropWhile isDigit := fun es =>
      List.dropWhile_append_of_pos (hn.fraction ds rfl)
    cases exponent with
    | some x =>
      have hx := hn.exponent x rfl
      simpa [scan, text, hwhole, hpoint, scanFraction, hfraction,
        (dropWhile_exponent_append hx cs).1, scanExponent_text_append hx] using h.dropWhile_digits
    | none =>
      simpa [scan, text, hwhole, hpoint, scanFraction, hfraction,
        h.dropWhile_digits.scanExponent_eq] using h.dropWhile_digits
  | none =>
    cases exponent with
    | some x =>
      have hx := hn.exponent x rfl
      obtain ⟨hdrop, hpoint⟩ := dropWhile_exponent_append hx cs
      simpa [scan, text, hwhole, hdrop, hpoint, scanExponent_text_append hx] using
        h.dropWhile_digits
    | none => simp at hmore

/-- The scanner leaves a loose text of a loose text. -/
theorem Loose.scan (h : Loose cs) : Loose (scan cs).2 := by
  have hrest : (Numeral.scan cs).2 =
      (scanExponent (scanFraction (cs.dropWhile isDigit)).2).2 := rfl
  have hdropped := h.dropWhile_digits
  rw [hrest]
  generalize cs.dropWhile isDigit = ds at hdropped
  cases hdropped with
  | nil => exact .nil
  | @separator c ds hc hds =>
    have hpoint : scanFraction (c :: ds) = (none, c :: ds) :=
      scanFraction_eq_none fun d hd => Option.some.inj hd ▸ ne_point_of_separates hc
    rw [hpoint, (Loose.separator hc hds).scanExponent_eq]
    exact .separator hc hds
  | @digit c ds hc hds =>
    have hpoint : scanFraction (c :: ds) = (none, c :: ds) := by
      refine scanFraction_eq_none fun d hd => ?_
      obtain rfl := Option.some.inj hd
      rintro rfl
      exact absurd hc (by decide)
    rw [hpoint, (Loose.digit hc hds).scanExponent_eq]
    exact .digit hc hds
  | @point ds hds =>
    have hfraction : (scanFraction ('.' :: ds)).2 = ds.dropWhile isDigit := rfl
    rw [hfraction, hds.dropWhile_digits.scanExponent_eq]
    exact hds.dropWhile_digits
  | @scientific d ds x es hds hx hes =>
    have hfraction : (scanFraction ('.' :: (d :: ds ++ (x.text ++ es)))).2 = x.text ++ es := by
      calc (d :: ds ++ (x.text ++ es)).dropWhile isDigit
        _ = (x.text ++ es).dropWhile isDigit := List.dropWhile_append_of_pos hds
        _ = x.text ++ es := (dropWhile_exponent_append hx es).1
    rw [hfraction, scanExponent_text_append hx]
    exact hes.dropWhile_digits

end

/-! ## Texts without words -/

section

variable {cs : List Char}

/-- A text that begins with a literal has no words, if what the scanner leaves has none and begins
with no letter. -/
theorem wordless_of_scan {c : Char} (hc : isDigit c = true ∨ c = '.' ∧ cs.head?.any isDigit = true)
    (hloose : Loose (scan (c :: cs)).2) (hrest : Wordless (scan (c :: cs)).2) :
    Wordless (c :: cs) := by
  have hnext : next c cs = (.number (scan (c :: cs)).1, (scan (c :: cs)).2) := by
    rcases hc with hc | ⟨rfl, hc⟩
    · have hstop : ∀ d ∈ (scan (c :: cs)).2.head?, isWordChar d = false := by
        intro d hd
        by_contra hword
        have hdigit := hloose.isDigit_of_isWordChar d hd (by simpa using hword)
        rw [(scan_rest _ d hd).1] at hdigit
        exact absurd hdigit (by decide)
      have hle := length_le_dropWhile (scan (c :: cs)).1.text hstop
      rw [scan_text, List.dropWhile_cons_of_pos (isWordChar_of_isDigit hc)] at hle
      have hpoint : c ≠ '.' := by
        rintro rfl
        exact absurd hc (by decide)
      simp only [next]
      rw [if_neg hpoint, if_pos (isWordChar_of_isDigit hc), if_pos ⟨hc, hle⟩]
    · simp [next, hc]
  intro t ht
  rw [tokens_cons, hnext] at ht
  rcases List.mem_cons.mp ht with rfl | ht
  · rfl
  · exact hrest t ht

theorem wordless_cons {c : Char} (hc : tokens (c :: cs) = .other c :: tokens cs)
    (h : Wordless cs) : Wordless (c :: cs) := by
  intro t ht
  rw [hc] at ht
  rcases List.mem_cons.mp ht with rfl | ht
  · rfl
  · exact h t ht

/-- A loose text has no words. -/
theorem Loose.wordless (h : Loose cs) : Wordless cs := by
  induction hlength : cs.length using Nat.strongRecOn generalizing cs with
  | ind k ih =>
    subst hlength
    have hliteral : ∀ {c : Char} {ds : List Char}, cs = c :: ds →
        (isDigit c = true ∨ c = '.' ∧ ds.head?.any isDigit = true) → Wordless cs := by
      rintro c ds rfl hc
      have hlt := scan_length_lt hc
      exact wordless_of_scan hc h.scan (ih _ (Nat.lt_succ_of_le hlt) h.scan rfl)
    cases h with
    | nil =>
      intro t ht
      simp at ht
    | separator hc hcs => exact wordless_cons (tokens_separator hc _) hcs
    | digit hc _ => exact hliteral rfl (.inl hc)
    | @point ds hds =>
      cases hdigit : ds.head?.any isDigit with
      | true => exact hliteral rfl (.inr ⟨rfl, hdigit⟩)
      | false => exact wordless_cons (tokens_point_append hdigit) (ih _ (by simp) hds rfl)
    | @scientific d ds x es hds hx hes =>
      exact hliteral rfl (.inr ⟨rfl, by simpa using hds d (by simp)⟩)

/-- A literal in front of a loose text makes no word. -/
theorem wordless_text_append {n : Numeral} (hn : n.IsLiteral) (h : Loose cs) :
    Wordless (n.text ++ cs) := by
  by_cases hmore : n.fraction.isSome ∨ n.exponent.isSome
  · obtain ⟨c, ds, htext, hc⟩ := head_of_isLiteral hn
    have hscan := h.scan_append hn.toHasParts hmore
    rw [htext, List.cons_append] at hscan ⊢
    refine wordless_of_scan ?_ hscan hscan.wordless
    refine hc.imp_right fun ⟨hpoint, d, es, hds, hd⟩ => ⟨hpoint, ?_⟩
    simpa [hds] using hd
  · obtain ⟨whole, fraction, exponent⟩ := n
    simp only [not_or, Option.not_isSome_iff_eq_none] at hmore
    obtain ⟨rfl, rfl⟩ := hmore
    simpa [text] using (keepsLoose_digits hn.whole cs h).wordless

end

/-! ## Replaced words -/

/-- A literal that begins with a point is part of a loose text. -/
theorem keepsLoose_of_whole_eq_nil {n : Numeral} (hn : n.IsLiteral) (hwhole : n.whole = []) :
    KeepsLoose n.text := by
  obtain ⟨whole, fraction, exponent⟩ := n
  obtain rfl : whole = [] := hwhole
  intro after hafter
  cases fraction with
  | none => exact absurd rfl hn.digits_ne
  | some ds =>
    have hdigits := hn.fraction ds rfl
    cases ds with
    | nil => exact absurd rfl hn.digits_ne
    | cons d ds =>
      cases exponent with
      | none => simpa [text] using Loose.point (keepsLoose_digits hdigits after hafter)
      | some x => simpa [text] using Loose.scientific hdigits (hn.exponent x rfl) hafter

/-- Behind a word stands no word character. -/
theorem head?_of_next_word {c : Char} {cs w rest : List Char} (h : next c cs = (.word w, rest)) :
    ∀ d ∈ rest.head?, isWordChar d = false := by
  have hrest : rest = cs.dropWhile isWordChar := by
    unfold next at h
    grind
  intro d hd
  have hstop := List.head?_dropWhile_not isWordChar cs
  rw [← hrest, Option.mem_def.mp hd] at hstop
  simpa using hstop

/-- If the words of a formula are replaced by texts that keep a text loose, no word is left.  The
text is loose as well, unless it begins with a literal that begins with a digit. -/
theorem wordless_rewritten {f : Token → List Char}
    (hf : ∀ t : Token, t.isWord = false → f t = t.text) {cs : List Char}
    (hwords : ∀ w, .word w ∈ tokens cs → KeepsLoose (f (.word w))) :
    Wordless ((tokens cs).flatMap f) ∧
      ((∀ c ∈ cs.head?, isDigit c = false) → Loose ((tokens cs).flatMap f)) := by
  induction cs using tokens.induct with
  | case1 =>
    rw [tokens_nil]
    exact ⟨Loose.nil.wordless, fun _ => .nil⟩
  | case2 c cs ih =>
    rw [tokens_cons] at hwords ⊢
    rcases hnext : next c cs with ⟨t, rest⟩
    rw [hnext] at ih hwords
    rw [List.flatMap_cons]
    obtain ⟨hwordless, hloose⟩ := ih fun w hw => hwords w (by simp [hw])
    have hboth : ∀ {ds : List Char}, Loose ds →
        Wordless ds ∧ ((∀ d ∈ (c :: cs).head?, isDigit d = false) → Loose ds) :=
      fun h => ⟨h.wordless, fun _ => h⟩
    cases t with
    | word w =>
      refine hboth (hwords w (by simp) _ (hloose fun d hd => ?_))
      exact isDigit_of_not_isWordChar (head?_of_next_word hnext d hd)
    | other d =>
      obtain ⟨rfl, rfl⟩ := next_eq_other hnext
      rw [hf _ rfl, Token.text, List.singleton_append]
      by_cases hpoint : d = '.'
      · subst hpoint
        have hdigit := head?_of_next_point (by rw [hnext])
        refine hboth (.point (hloose fun e he => ?_))
        simpa [Option.mem_def.mp he] using hdigit
      · have hcut : (Token.other d).IsCut := by
          have hcut := next_isCut d rest
          rwa [hnext] at hcut
        have hsep : separates d = true := by simp [separates, show isWordChar d = false from hcut,
          hpoint]
        exact hboth (.separator hsep hwordless)
    | number n =>
      have hscan := scan_of_next hnext
      have hliteral : n.IsLiteral := by
        have hcut := next_isCut c cs
        rwa [hnext] at hcut
      have hrest : Loose ((tokens rest).flatMap f) := by
        refine hloose fun d hd => ?_
        have hstop := scan_rest (c :: cs)
        rw [hscan] at hstop
        exact (hstop d hd).1
      rw [hf _ rfl, Token.text]
      refine ⟨wordless_text_append hliteral hrest, fun hhead => ?_⟩
      have hwhole : n.whole = [] := by
        have hdigits : (scan (c :: cs)).1.whole = (c :: cs).takeWhile isDigit := rfl
        rw [hscan, List.takeWhile_cons_of_neg (by simp [hhead c (by simp)])] at hdigits
        exact hdigits
      exact keepsLoose_of_whole_eq_nil hliteral hwhole _ hrest

end Scorecard.Formula
