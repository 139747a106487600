import Scorecard.Proofs.Formula.Cutting

/-!
# Tokens without a scanner

`Token.Opens` and `Cut` say what the tokens of a formula are without a scanner: each is decided by
the literals and the run of word characters at the front of what is left of the formula.

* `Numeral.length_le_scan`: the scanner takes the longest literal there is.
* `next_opens` and `Token.Opens.unique`: the token that the scanner finds is the only one at the
  front.
* `cut_iff`: the tokens of a text are its only cut.
-/

namespace Scorecard

/-! ## The longest literal -/

namespace Number.Numeral

theorem scanExponent_length_le (cs : List Char) : (scanExponent cs).2.length ≤ cs.length := by
  have h := congrArg List.length (scanExponent_text cs)
  rw [List.length_append] at h
  omega

theorem scanFraction_length_le (cs : List Char) : (scanFraction cs).2.length ≤ cs.length := by
  have h := congrArg List.length (scanFraction_text cs)
  rw [List.length_append] at h
  omega

theorem length_dropWhile_le (cs : List Char) : (cs.dropWhile isDigit).length ≤ cs.length :=
  (List.dropWhile_sublist _).length_le

/-- A written exponent is taken whole, with any further digits. -/
theorem scanExponent_text_append {x : Exponent} (hx : x.IsWritten) (after : List Char) :
    (scanExponent (x.text ++ after)).2 = after.dropWhile isDigit := by
  obtain ⟨d, ds, hd⟩ := List.exists_cons_of_ne_nil hx.digits_ne
  have hdigit : isDigit d = true := hx.digits d (by simp [hd])
  have hsign : scanSign (x.sign.toList ++ (x.digits ++ after)) = (x.sign, x.digits ++ after) := by
    refine scanSign_append hx.sign fun c hc => ?_
    obtain rfl : d = c := by simpa [hd] using hc
    exact hdigit
  have htake : (x.digits ++ after).takeWhile isDigit ≠ [] := by simp [hd, hdigit]
  have hdrop : (x.digits ++ after).dropWhile isDigit = after.dropWhile isDigit :=
    List.dropWhile_append_of_pos hx.digits
  simp only [Exponent.text, List.cons_append, List.append_assoc, scanExponent, hsign]
  rw [if_pos ⟨hx.mark, htake⟩, hdrop]

/-- Of a written exponent nothing is left. -/
theorem scanExponent_text_append_length_le {x : Exponent} (hx : x.IsWritten) (after : List Char) :
    (scanExponent (x.text ++ after)).2.length ≤ after.length := by
  rw [scanExponent_text_append hx]
  exact length_dropWhile_le after

/-- The text of an exponent, if there is one, does not begin with a digit or a point. -/
theorem dropWhile_exponent_append {x : Exponent} (hx : x.IsWritten) (after : List Char) :
    (x.text ++ after).dropWhile isDigit = x.text ++ after ∧
      scanFraction (x.text ++ after) = (none, x.text ++ after) := by
  constructor
  · simp [Exponent.text, not_isDigit_of_mark hx]
  · refine scanFraction_eq_none fun c hc => ?_
    obtain rfl : x.mark = c := by simpa [Exponent.text] using hc
    rcases hx.mark with h | h <;> rw [h] <;> decide

/-- No literal at the front of a text goes further than the scanner. -/
theorem scan_text_append_length_le {n : Numeral} (hn : n.HasParts) (after : List Char) :
    (scan (n.text ++ after)).2.length ≤ after.length := by
  obtain ⟨whole, fraction, exponent⟩ := n
  have hwhole : ∀ cs, (whole ++ cs).dropWhile isDigit = cs.dropWhile isDigit := fun cs =>
    List.dropWhile_append_of_pos hn.whole
  have hscan : ∀ cs, (scan (whole ++ cs)).2 =
      (scanExponent (scanFraction (cs.dropWhile isDigit)).2).2 := by
    intro cs
    simp only [scan, hwhole]
  simp only [text, List.append_assoc, hscan]
  cases fraction with
  | some ds =>
    have hfraction : ∀ cs, (scanFraction (('.' :: (ds ++ cs)).dropWhile isDigit)).2 =
        cs.dropWhile isDigit := by
      intro cs
      have hpoint : isDigit '.' = false := by decide
      simp [hpoint, scanFraction, List.dropWhile_append_of_pos (hn.fraction ds rfl)]
    simp only [Option.elim_some, List.cons_append, hfraction]
    cases exponent with
    | some x =>
      have hx := hn.exponent x rfl
      rw [Option.elim_some, (dropWhile_exponent_append hx after).1]
      exact scanExponent_text_append_length_le hx after
    | none =>
      exact Nat.le_trans (scanExponent_length_le _) (length_dropWhile_le after)
  | none =>
    cases exponent with
    | some x =>
      have hx := hn.exponent x rfl
      obtain ⟨hdrop, hpoint⟩ := dropWhile_exponent_append hx after
      simp only [Option.elim_none, Option.elim_some, List.nil_append, hdrop, hpoint]
      exact scanExponent_text_append_length_le hx after
    | none =>
      calc (scanExponent (scanFraction (after.dropWhile isDigit)).2).2.length
          ≤ (scanFraction (after.dropWhile isDigit)).2.length := scanExponent_length_le _
        _ ≤ (after.dropWhile isDigit).length := scanFraction_length_le _
        _ ≤ after.length := length_dropWhile_le after

/-- The scanner takes the longest literal. -/
theorem length_le_scan {n : Numeral} (hn : n.HasParts) {cs : List Char} (h : n.text <+: cs) :
    n.text.length ≤ (scan cs).1.text.length := by
  obtain ⟨after, rfl⟩ := h
  have hle := scan_text_append_length_le hn after
  have htext := congrArg List.length (scan_text (n.text ++ after))
  simp only [List.length_append] at htext
  omega

/-- Literals that are written alike are the same. -/
theorem eq_of_text_eq {n m : Numeral} (hn : n.HasParts) (hm : m.HasParts) (h : n.text = m.text) :
    n = m := by
  have hscan := scan_text_append hn (stopsBefore_nil n)
  rw [h, scan_text_append hm (stopsBefore_nil m)] at hscan
  exact (Prod.mk.inj hscan).1.symm

end Number.Numeral

/-! ## Tokens without a scanner -/

namespace Formula

open Number (Numeral isDigit)

/-- The token is the one at the front of its text with `after` behind it.  A number is the longest
literal there, if it covers the run of word characters; a word is this run, if no literal covers it;
and any other character is a token where there is neither. -/
def Token.Opens : Token → List Char → Prop
  | .number n, after => n.IsLiteral ∧
      (∀ m : Numeral, m.IsLiteral → m.text <+: n.text ++ after → m.text.length ≤ n.text.length) ∧
      ((n.text ++ after).takeWhile isWordChar).length ≤ n.text.length
  | .word w, after => w ≠ [] ∧ (w ++ after).takeWhile isWordChar = w ∧
      ∀ m : Numeral, m.IsLiteral → m.text <+: w ++ after → m.text.length < w.length
  | .other c, after => isWordChar c = false ∧
      ∀ m : Numeral, m.IsLiteral → ¬ m.text <+: c :: after

/-- The text is cut into these tokens, from left to right. -/
inductive Cut : List Char → List Token → Prop where
  | nil : Cut [] []
  | cons {t : Token} {after : List Char} {ts : List Token} (ht : t.Opens after)
      (hrest : Cut after ts) : Cut (t.text ++ after) (t :: ts)

/-- A literal needs a digit, or a point and a digit, at the front. -/
theorem isDigit_of_isLiteral_prefix {m : Numeral} (hm : m.IsLiteral) {c : Char} {cs : List Char}
    (h : m.text <+: c :: cs) : isDigit c = true ∨ c = '.' ∧ cs.head?.any isDigit = true := by
  obtain ⟨d, ds, htext, hd⟩ := head_of_isLiteral hm
  rw [htext] at h
  obtain ⟨rfl, hrest⟩ := List.cons_prefix_cons.mp h
  rcases hd with hd | ⟨rfl, e, es, rfl, he⟩
  · exact .inl hd
  · obtain ⟨after, rfl⟩ := hrest
    exact .inr ⟨rfl, by simpa using he⟩

theorem length_takeWhile_add_length_dropWhile (cs : List Char) :
    (cs.takeWhile isWordChar).length + (cs.dropWhile isWordChar).length = cs.length := by
  rw [← List.length_append, List.takeWhile_append_dropWhile]

/-- The token that the scanner finds is the one at the front. -/
theorem next_opens (c : Char) (cs : List Char) : (next c cs).1.Opens (next c cs).2 := by
  have hscan := Numeral.scan_text (c :: cs)
  have hlength := congrArg List.length hscan
  rw [List.length_append] at hlength
  have hlongest : ∀ m : Numeral, m.IsLiteral → m.text <+: c :: cs →
      m.text.length ≤ (Numeral.scan (c :: cs)).1.text.length := fun m hm hprefix =>
    Numeral.length_le_scan hm.toHasParts hprefix
  have hcut := next_isCut c cs
  simp only [next] at hcut ⊢
  split
  · next hpoint =>
    subst hpoint
    have hrun : ('.' :: cs).takeWhile isWordChar = [] := rfl
    split
    · next hd =>
      rw [if_pos rfl, if_pos hd] at hcut
      refine ⟨hcut, ?_, ?_⟩
      · rw [hscan]
        exact hlongest
      · rw [hscan, hrun]
        exact Nat.zero_le _
    · next hd =>
      refine ⟨by decide, fun m hm hprefix => ?_⟩
      rcases isDigit_of_isLiteral_prefix hm hprefix with h | ⟨-, h⟩
      · exact absurd h (by decide)
      · exact hd h
  · next hpoint =>
    split
    · next hw =>
      have hrun := length_takeWhile_add_length_dropWhile (c :: cs)
      rw [List.dropWhile_cons_of_pos hw] at hrun
      split
      · next hd =>
        rw [if_neg hpoint, if_pos hw, if_pos hd] at hcut
        refine ⟨hcut, ?_, ?_⟩
        · rw [hscan]
          exact hlongest
        · rw [hscan]
          omega
      · next hd =>
        have htake : (c :: cs).takeWhile isWordChar = c :: cs.takeWhile isWordChar :=
          List.takeWhile_cons_of_pos hw
        have htext : c :: cs.takeWhile isWordChar ++ cs.dropWhile isWordChar = c :: cs := by
          rw [List.cons_append, List.takeWhile_append_dropWhile]
        rw [htake] at hrun
        refine ⟨by simp, ?_, fun m hm hprefix => ?_⟩
        · rw [htext, htake]
        · rw [htext] at hprefix
          have hle := hlongest m hm hprefix
          have hc : isDigit c = true := by
            rcases isDigit_of_isLiteral_prefix hm hprefix with h | ⟨h, -⟩
            · exact h
            · exact absurd h hpoint
          have hlt : ¬ (Numeral.scan (c :: cs)).2.length ≤ (cs.dropWhile isWordChar).length :=
            fun h => hd ⟨hc, h⟩
          omega
    · next hw =>
      refine ⟨by simpa using hw, fun m hm hprefix => ?_⟩
      rcases isDigit_of_isLiteral_prefix hm hprefix with h | ⟨h, -⟩
      · exact hw (isWordChar_of_isDigit h)
      · exact hpoint h

section

variable {n : Numeral} {w after rest : List Char} {c : Char}

theorem Token.Opens.number_ne_word (hn : (Token.number n).Opens after)
    (hw : (Token.word w).Opens rest) : n.text ++ after ≠ w ++ rest := by
  intro h
  have hlt := hw.2.2 n hn.1 ⟨after, h⟩
  have hle := hn.2.2
  rw [h, hw.2.1] at hle
  omega

theorem Token.Opens.number_ne_other (hn : (Token.number n).Opens after)
    (hc : (Token.other c).Opens rest) : n.text ++ after ≠ c :: rest :=
  fun h => hc.2 n hn.1 ⟨after, h⟩

theorem Token.Opens.word_ne_other (hw : (Token.word w).Opens after)
    (hc : (Token.other c).Opens rest) : w ++ after ≠ c :: rest := by
  intro h
  have hrun := hw.2.1
  have hstop : ¬ isWordChar c = true := by simp [hc.1]
  rw [h, List.takeWhile_cons_of_neg hstop] at hrun
  exact hw.1 hrun.symm

end

/-- Only one token is at the front of a text. -/
theorem Token.Opens.unique {t u : Token} {after rest : List Char} (ht : t.Opens after)
    (hu : u.Opens rest) (h : t.text ++ after = u.text ++ rest) : t = u ∧ after = rest := by
  cases t with
  | number n =>
    cases u with
    | number m =>
      have hle := hu.2.1 n ht.1 ⟨after, h⟩
      have hge := ht.2.1 m hu.1 ⟨rest, h.symm⟩
      obtain ⟨htext, hafter⟩ := List.append_inj h (Nat.le_antisymm hle hge)
      have heq : n = m := Numeral.eq_of_text_eq ht.1.toHasParts hu.1.toHasParts htext
      exact ⟨congrArg Token.number heq, hafter⟩
    | word w => exact absurd h (ht.number_ne_word hu)
    | other c => exact absurd h (ht.number_ne_other hu)
  | word w =>
    cases u with
    | number m => exact absurd h.symm (hu.number_ne_word ht)
    | word v =>
      have heq : w = v := by
        have hrun := ht.2.1
        change w ++ after = v ++ rest at h
        rw [h, hu.2.1] at hrun
        exact hrun.symm
      subst heq
      exact ⟨rfl, List.append_cancel_left h⟩
    | other c => exact absurd h (ht.word_ne_other hu)
  | other c =>
    cases u with
    | number m => exact absurd h.symm (hu.number_ne_other ht)
    | word v => exact absurd h.symm (hu.word_ne_other ht)
    | other d =>
      obtain ⟨rfl, hafter⟩ := List.cons.inj h
      exact ⟨rfl, hafter⟩

/-- No token is empty. -/
theorem Token.Opens.text_ne_nil {t : Token} {after : List Char} (ht : t.Opens after) :
    t.text ≠ [] := by
  cases t with
  | number n =>
    obtain ⟨c, cs, htext, -⟩ := head_of_isLiteral ht.1
    rw [Token.text, htext]
    exact List.cons_ne_nil c cs
  | word w => exact ht.1
  | other c => exact List.cons_ne_nil c []

/-- The tokens of a text are its only cut. -/
theorem cut_iff {cs : List Char} {ts : List Token} : Cut cs ts ↔ ts = tokens cs := by
  constructor
  · intro h
    induction h with
    | nil => exact tokens_nil.symm
    | @cons t after ts ht _ ih =>
      obtain ⟨c, cs, hcs⟩ := List.exists_cons_of_ne_nil
        (List.append_ne_nil_of_left_ne_nil ht.text_ne_nil after)
      obtain ⟨rfl, rfl⟩ := ht.unique (next_opens c cs) (by rw [hcs, next_text])
      rw [hcs, tokens_cons, ih]
  · rintro rfl
    fun_induction tokens cs with
    | case1 => exact .nil
    | case2 c cs ih =>
      have hcut := Cut.cons (next_opens c cs) ih
      rw [next_text] at hcut
      exact hcut

/-- Every token of a text stands at the front of what is left of it. -/
theorem exists_opens_of_mem_tokens {t : Token} {cs : List Char} (h : t ∈ tokens cs) :
    ∃ after, t.Opens after := by
  fun_induction tokens cs with
  | case1 => simp at h
  | case2 c cs ih =>
    rcases List.mem_cons.mp h with rfl | h
    · exact ⟨_, next_opens c cs⟩
    · exact ih h

end Formula

end Scorecard
