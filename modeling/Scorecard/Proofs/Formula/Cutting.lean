import Scorecard.Formula.Token
import Scorecard.Proofs.Number.Scanning

/-!
# How a formula is cut into tokens

A token is found by looking ahead, so where it ends depends on what follows it.  This module says
which neighbours leave a token alone, and what every token looks like.

* A separator, that is a character that is neither a word character nor a point, is a token of its
  own and ends the token before it (`tokens_separator`, `tokens_number_append`).
* `Token.IsCut` is the shape of the tokens of a text (`isCut_of_mem_tokens`): a number is a
  literal, a word is a run of word characters that are not all digits, any other character is no
  word character.
-/

namespace Scorecard.Formula

open Number (Numeral isDigit)

/-- Whether a character ends every token before it and begins none after it. -/
def separates (c : Char) : Bool := !isWordChar c && c != '.'

/-- The text is empty or begins with a separator. -/
def BeginsApart (after : List Char) : Prop := ∀ c ∈ after.head?, separates c = true

@[simp] theorem beginsApart_nil : BeginsApart [] := by simp [BeginsApart]

@[simp] theorem beginsApart_cons (c : Char) (cs : List Char) :
    BeginsApart (c :: cs) ↔ separates c = true := by
  simp [BeginsApart]

/-- The code points of word characters. -/
theorem isWordChar_iff (c : Char) : isWordChar c = true ↔
    (48 ≤ c.toNat ∧ c.toNat ≤ 57) ∨ (65 ≤ c.toNat ∧ c.toNat ≤ 90) ∨
      (97 ≤ c.toNat ∧ c.toNat ≤ 122) ∨ c.toNat = 95 := by
  have hlast : c = '_' ↔ c.toNat = 95 := by
    constructor
    · rintro rfl
      rfl
    · intro h
      exact Char.toNat_inj.mp h
  have hranges : isWordChar c = (decide ('A'.val ≤ c.val ∧ c.val ≤ 'Z'.val) ||
      ('a'.val ≤ c.val && c.val ≤ 'z'.val) || ('0'.val ≤ c.val && c.val ≤ '9'.val) ||
      c == '_') := rfl
  simp only [hranges, Bool.or_eq_true, Bool.and_eq_true, decide_eq_true_eq, beq_iff_eq, hlast,
    UInt32.le_iff_toNat_le, Char.toNat]
  have hends : '0'.val.toNat = 48 ∧ '9'.val.toNat = 57 ∧ 'A'.val.toNat = 65 ∧
      'Z'.val.toNat = 90 ∧ 'a'.val.toNat = 97 ∧ 'z'.val.toNat = 122 := by decide
  omega

theorem isWordChar_of_isDigit {c : Char} (h : isDigit c = true) : isWordChar c = true := by
  simp only [isDigit, Bool.and_eq_true, decide_eq_true_eq, Char.le_def] at h
  have hd : c.isDigit = true := by simpa [Char.isDigit] using h
  simp [isWordChar, Char.isAlphanum, hd]

theorem isDigit_of_not_isWordChar {c : Char} (h : isWordChar c = false) : isDigit c = false := by
  cases hd : isDigit c with
  | false => rfl
  | true => rw [isWordChar_of_isDigit hd] at h; exact absurd h (by decide)

theorem asciiLowerChar_of_isDigit {c : Char} (h : isDigit c = true) :
    Text.asciiLowerChar c = c := by
  simp only [isDigit, Bool.and_eq_true, decide_eq_true_eq] at h
  refine if_neg fun hletter => ?_
  exact absurd (Char.le_trans hletter.1 h.2) (by decide)

theorem isWordChar_of_separates {c : Char} (h : separates c = true) : isWordChar c = false := by
  simp only [separates, Bool.and_eq_true, Bool.not_eq_true'] at h
  exact h.1

theorem ne_point_of_separates {c : Char} (h : separates c = true) : c ≠ '.' := by
  rintro rfl
  exact absurd h (by decide)

@[simp] theorem tokens_nil : tokens [] = [] := by rw [tokens]

/-- The first token, and the tokens of the rest. -/
theorem tokens_cons (c : Char) (cs : List Char) :
    tokens (c :: cs) = (next c cs).1 :: tokens (next c cs).2 := by rw [tokens]

/-! ## Neighbours that leave a token alone -/

theorem next_separator {c : Char} (h : separates c = true) (cs : List Char) :
    next c cs = (.other c, cs) := by
  simp [next, ne_point_of_separates h, isWordChar_of_separates h]

/-- A separator is a token of its own. -/
theorem tokens_separator {c : Char} (h : separates c = true) (cs : List Char) :
    tokens (c :: cs) = .other c :: tokens cs := by
  rw [tokens_cons, next_separator h]

theorem tokens_separators_append {blanks : List Char} (h : ∀ c ∈ blanks, separates c = true)
    (cs : List Char) : tokens (blanks ++ cs) = blanks.map .other ++ tokens cs := by
  induction blanks with
  | nil => rfl
  | cons c blanks ih =>
    rw [List.cons_append, tokens_separator (h c (by simp)), ih fun d hd => h d (by simp [hd])]
    rfl

/-- The text that follows does not carry the literal on: it begins with no word character, and with
a point only if the literal has a point or an exponent already. -/
def EndsLiteral (n : Numeral) (after : List Char) : Prop :=
  ∀ c ∈ after.head?, isWordChar c = false ∧
    (c = '.' → n.fraction.isSome ∨ n.exponent.isSome)

theorem endsLiteral_of_beginsApart (n : Numeral) {after : List Char} (h : BeginsApart after) :
    EndsLiteral n after := fun c hc =>
  ⟨isWordChar_of_separates (h c hc), fun hp => absurd hp (ne_point_of_separates (h c hc))⟩

theorem EndsLiteral.stopsBefore {n : Numeral} {after : List Char} (h : EndsLiteral n after) :
    n.StopsBefore after := by
  intro c hc
  refine ⟨isDigit_of_not_isWordChar (h c hc).1, ?_, (h c hc).2⟩
  rintro (rfl | rfl) <;> exact absurd (h _ hc).1 (by decide)

/-- A literal begins with a digit, or with a point and a digit. -/
theorem head_of_isLiteral {n : Numeral} (hn : n.IsLiteral) : ∃ c cs, n.text = c :: cs ∧
    (isDigit c = true ∨ c = '.' ∧ ∃ d ds, cs = d :: ds ∧ isDigit d = true) := by
  obtain ⟨whole, fraction, exponent⟩ := n
  cases whole with
  | cons c cs => exact ⟨c, _, rfl, .inl (hn.whole c (by simp))⟩
  | nil =>
    cases fraction with
    | none => exact absurd hn.digits_ne (by simp [Numeral.digits])
    | some ds =>
      cases ds with
      | nil => exact absurd hn.digits_ne (by simp [Numeral.digits])
      | cons d ds =>
        exact ⟨'.', _, rfl, .inr ⟨rfl, d, _, rfl, hn.fraction _ rfl d (by simp)⟩⟩

/-- The word run at the front of a literal is no longer than the literal. -/
theorem length_le_dropWhile (cs : List Char) {after : List Char}
    (h : ∀ c ∈ after.head?, isWordChar c = false) :
    after.length ≤ ((cs ++ after).dropWhile isWordChar).length := by
  rw [List.dropWhile_append]
  split
  · cases after with
    | nil => simp
    | cons c rest => simp [h c (by simp)]
  · simp

/-- A literal that the text behind it does not carry on is cut off as a number. -/
theorem tokens_number_append {n : Numeral} (hn : n.IsLiteral) {after : List Char}
    (hafter : EndsLiteral n after) : tokens (n.text ++ after) = .number n :: tokens after := by
  obtain ⟨c, cs, htext, hc⟩ := head_of_isLiteral hn
  have hscan : Numeral.scan (c :: (cs ++ after)) = (n, after) := by
    rw [← List.cons_append, ← htext]
    exact Numeral.scan_text_append hn.toHasParts hafter.stopsBefore
  have hnext : next c (cs ++ after) = (.number n, after) := by
    simp only [next, hscan]
    rcases hc with hd | ⟨rfl, d, ds, rfl, hd⟩
    · have hne : c ≠ '.' := by rintro rfl; exact absurd hd (by decide)
      have hle := length_le_dropWhile cs fun d hd => (hafter d hd).1
      rw [if_neg hne, if_pos (isWordChar_of_isDigit hd), if_pos ⟨hd, hle⟩]
    · simp [hd]
  rw [htext, List.cons_append, tokens_cons, hnext]

/-! ## The shape of tokens -/

/-- The shape of a token that has been cut off a text. -/
def Token.IsCut : Token → Prop
  | .number n => n.IsLiteral
  | .word w => w ≠ [] ∧ (∀ c ∈ w, isWordChar c = true) ∧ ∃ c ∈ w, isDigit c = false
  | .other c => isWordChar c = false

theorem mem_takeWhile_isWordChar {c : Char} {cs : List Char} (h : c ∈ cs.takeWhile isWordChar) :
    isWordChar c = true :=
  List.all_eq_true.mp List.all_takeWhile c h

/-- The scanner takes at least the digits at the front. -/
theorem scan_length_le (cs : List Char) :
    (Numeral.scan cs).2.length ≤ (cs.dropWhile isDigit).length := by
  have hf := congrArg List.length (Numeral.scanFraction_text (cs.dropWhile isDigit))
  have he := congrArg List.length
    (Numeral.scanExponent_text (Numeral.scanFraction (cs.dropWhile isDigit)).2)
  simp only [List.length_append] at hf he
  simp only [Numeral.scan]
  omega

/-- A word run of digits only is no longer than the digits at the front. -/
theorem dropWhile_isDigit_length_le {cs : List Char}
    (h : ∀ c ∈ cs.takeWhile isWordChar, isDigit c = true) :
    (cs.dropWhile isDigit).length ≤ (cs.dropWhile isWordChar).length := by
  induction cs with
  | nil => simp
  | cons c cs ih =>
    cases hw : isWordChar c with
    | false => simp [hw, isDigit_of_not_isWordChar hw]
    | true =>
      simp only [List.takeWhile_cons, hw, if_true, List.mem_cons, forall_eq_or_imp] at h
      simpa [hw, h.1] using ih h.2

/-- A token at the front of a text has its shape. -/
theorem next_isCut (c : Char) (cs : List Char) : (next c cs).1.IsCut := by
  simp only [next]
  split
  · next hc =>
    split
    · next hd =>
      refine ⟨Numeral.scan_hasParts _, ?_⟩
      subst hc
      cases cs with
      | nil => simp at hd
      | cons d ds =>
        have hd : isDigit d = true := by simpa using hd
        have hp : isDigit '.' = false := by decide
        simp [Numeral.scan, Numeral.digits, hp, Numeral.scanFraction, hd]
    · rw [Token.IsCut, hc]
      decide
  · split
    · next hw =>
      split
      · next hd =>
        refine ⟨Numeral.scan_hasParts _, ?_⟩
        simp [Numeral.scan, Numeral.digits, hd.1]
      · next hd =>
        have hall : ∀ d ∈ c :: cs.takeWhile isWordChar, isWordChar d = true := by
          rintro d (_ | ⟨_, hmem⟩)
          · exact hw
          · exact mem_takeWhile_isWordChar hmem
        refine ⟨by simp, hall, ?_⟩
        by_contra hnone
        push Not at hnone
        have hdigit : ∀ d ∈ c :: cs.takeWhile isWordChar, isDigit d = true := by
          intro d hmem
          simpa using hnone d hmem
        have hc := hdigit c (by simp)
        refine hd ⟨hc, ?_⟩
        have hle := scan_length_le (c :: cs)
        have hdrop := dropWhile_isDigit_length_le fun d hmem =>
          hdigit d (List.mem_cons_of_mem _ hmem)
        simp only [List.dropWhile_cons, hc, if_true] at hle
        omega
    · next hw => simpa [Token.IsCut] using hw

/-- Every token of a text has its shape. -/
theorem isCut_of_mem_tokens {t : Token} {cs : List Char} (h : t ∈ tokens cs) : t.IsCut := by
  fun_induction tokens cs with
  | case1 => simp at h
  | case2 c cs ih =>
    rcases List.mem_cons.mp h with rfl | h
    · exact next_isCut c cs
    · exact ih h

theorem mem_identifiers {formula : String} {w : List Char} (h : .word w ∈ tokens formula.toList) :
    String.ofList w ∈ identifiers formula :=
  List.mem_filterMap.mpr ⟨_, h, rfl⟩

/-- A single character that is a token occurs in the text. -/
theorem mem_of_other_mem_tokens {c : Char} {cs : List Char} (h : Token.other c ∈ tokens cs) :
    c ∈ cs := by
  rw [← tokens_text cs]
  exact List.mem_flatMap.mpr ⟨_, h, by simp [Token.text]⟩

end Scorecard.Formula
