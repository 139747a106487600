import Scorecard.Formula.Tree
import Scorecard.Proofs.Formula.Visible

/-!
# Lexemes of arithmetic formulas

In an arithmetic formula that has been written with points, each glyph other than a blank is one
lexeme (`lexemes_of_isArithmetic`).  A run of text is a constant or an identifier, whatever stands
beside it: the evaluator would also read a run, a sign and a run behind it as one number with an
exponent, but then the second run would be digits only (`signedExponent?_eq_none`).
-/

namespace Scorecard.Formula

open Number (Numeral isDigit readFloat)

/-- The lexeme of a run of text that stands for itself. -/
def Lexeme.ofText (cs : List Char) : Lexeme :=
  match Value.ofText? cs with
  | some v => .constant v
  | none => .identifier (String.ofList cs)

/-- The lexeme of a glyph that stands for itself. -/
def Glyph.lexeme? : Glyph → Option Lexeme
  | .text cs => some (.ofText cs)
  | .string cs => some (.constant (.string (String.ofList cs)))
  | .blank => none
  | .mark c => Lexeme.ofMark? c

theorem ne_sign_of_isTextChar {c : Char} (h : isTextChar c = true) : c ≠ '+' ∧ c ≠ '-' :=
  ⟨ne_of_isTextChar h (by decide), ne_of_isTextChar h (by decide)⟩

/-- A run of text has no sign in front. -/
theorem takeSign_of_isTextChar {d : Char} (h : isTextChar d = true) (ds : List Char) :
    Number.takeSign (d :: ds) = (false, d :: ds) := by
  obtain ⟨hplus, hminus⟩ := ne_sign_of_isTextChar h
  unfold Number.takeSign Numeral.scanSign
  split
  · next heq =>
    split at heq
    · next hcons => exact absurd (List.cons.inj hcons).1 hplus
    · next hcons => exact absurd (List.cons.inj hcons).1 hminus
    · obtain ⟨rfl, rfl⟩ := Prod.mk.inj heq
      rfl

/-- A character that is no letter stays when letters are put in lower case. -/
theorem asciiLowered_ne {cs w : List Char} {c : Char} (hlower : Text.asciiLowerChar c = c)
    (hmem : c ∈ cs) (hw : c ∉ w) : Text.asciiLowered cs ≠ w := by
  rintro rfl
  refine hw ?_
  rw [Text.asciiLowered, ← hlower]
  exact List.mem_map_of_mem hmem

/-- A run of text, a sign and something that is not all digits are no number together. -/
theorem readFloat_eq_none_of_sign {cs ds : List Char} {c : Char}
    (hcs : ∀ d ∈ cs, isTextChar d = true) (hne : cs ≠ []) (hc : c = '+' ∨ c = '-')
    (hds : ∃ d ∈ ds, isDigit d = false) : readFloat (cs ++ c :: ds) = none := by
  obtain ⟨a, as, rfl⟩ := List.exists_cons_of_ne_nil hne
  have hmem : c ∈ a :: as ++ c :: ds := by simp
  have hwords : Text.asciiLowerChar c = c ∧ c ∉ "inf".toList ∧ c ∉ "infinity".toList ∧
      c ∉ "nan".toList := by
    rcases hc with rfl | rfl <;> decide
  obtain ⟨hlower, hinf, hinfinity, hnan⟩ := hwords
  have hscan : ¬ ((Numeral.scan (a :: as ++ c :: ds)).2 = [] ∧
      (Numeral.scan (a :: as ++ c :: ds)).1.digits ≠ []) := by
    rintro ⟨hrest, -⟩
    have htext := Numeral.scan_text (a :: as ++ c :: ds)
    rw [hrest, List.append_nil] at htext
    obtain ⟨d, hd, hdigit⟩ := hds
    have hall := Numeral.isDigit_of_mem_after_sign (Numeral.scan_hasParts _) hc htext d hd
    rw [hall] at hdigit
    exact absurd hdigit (by decide)
  unfold readFloat
  rw [List.cons_append, takeSign_of_isTextChar (hcs a (by simp))]
  simp only [← List.cons_append]
  rw [if_neg (not_or.mpr ⟨asciiLowered_ne hlower hmem hinf, asciiLowered_ne hlower hmem hinfinity⟩),
    if_neg (asciiLowered_ne hlower hmem hnan), if_neg hscan]

theorem signedExponent?_eq_none {cs : List Char} {c : Char} {g : Glyph}
    (hcs : ∀ d ∈ cs, isTextChar d = true) (hne : cs ≠ []) (hg : g.IsArithmetic) :
    signedExponent? cs c g = none := by
  unfold signedExponent?
  split
  · next hc => exact readFloat_eq_none_of_sign hcs hne hc hg.exists_not_isDigit
  · rfl

/-- A run of text is one lexeme. -/
theorem textLexeme_of_isArithmetic {cs : List Char} {gs : List Glyph}
    (hcs : ∀ d ∈ cs, isTextChar d = true) (hne : cs ≠ []) (hgs : ∀ g ∈ gs, g.IsArithmetic) :
    textLexeme cs gs = (.ofText cs, 0) := by
  unfold textLexeme Lexeme.ofText
  split
  · next h => rw [h]
  · next c g rest h =>
    rw [h, signedExponent?_eq_none hcs hne (hgs g (by simp))]
  · next h _ => rw [h]

/-- A glyph of an arithmetic formula is one lexeme, or none if it is a blank. -/
theorem takeLexeme_of_isArithmetic {g : Glyph} {gs : List Glyph} (hg : g.IsArithmetic)
    (hgs : ∀ g ∈ gs, g.IsArithmetic) : takeLexeme g gs = .ok (g.lexeme?, 0) := by
  cases hg with
  | @text cs hcs h =>
    obtain ⟨d, hd, _⟩ := h
    rw [takeLexeme, textLexeme_of_isArithmetic hcs (List.ne_nil_of_mem hd) hgs]
    rfl
  | blank => rfl
  | @mark c hc =>
    have hequals : gs.head? ≠ some (.mark '=') := by
      intro hhead
      obtain ⟨rest, rfl⟩ := List.head?_eq_some_iff.mp hhead
      have hmark := hgs (.mark '=') (by simp)
      cases hmark with
      | mark h => exact absurd h (by decide)
    have hlogical : ∀ d ∈ "+-*/()".toList, logical? d = none := forall_mem_of_all (by decide)
    simp [takeLexeme, hlogical c hc, hequals, Glyph.lexeme?]

/-- The lexemes of an arithmetic formula are those of its glyphs. -/
theorem lexemes_of_isArithmetic {gs : List Glyph} (h : ∀ g ∈ gs, g.IsArithmetic) :
    lexemes gs = .ok (gs.filterMap Glyph.lexeme?) := by
  induction gs with
  | nil => rw [lexemes]; rfl
  | cons g gs ih =>
    have hgs : ∀ a ∈ gs, a.IsArithmetic := fun a ha => h a (by simp [ha])
    rw [lexemes, takeLexeme_of_isArithmetic (h g (by simp)) hgs]
    simp only [List.drop_zero, ih hgs]
    cases hl : g.lexeme? <;> simp [hl, Except.map]

/-! ## Arithmetic lexemes -/

/-- The operations of arithmetic formulas. -/
def Binary.IsArithmetic (operation : Binary) : Prop :=
  operation = .add ∨ operation = .sub ∨ operation = .mul ∨ operation = .div

/-- The lexemes of arithmetic formulas. -/
inductive Lexeme.IsArithmetic : Lexeme → Prop
  | opening : IsArithmetic .opening
  | closing : IsArithmetic .closing
  | operation {operation : Binary} (h : operation.IsArithmetic) :
      IsArithmetic (.operation operation)
  | constant (v : Value) : IsArithmetic (.constant v)
  | identifier (name : String) : IsArithmetic (.identifier name)

theorem Glyph.IsArithmetic.lexeme? {g : Glyph} {l : Lexeme} (hg : g.IsArithmetic)
    (h : g.lexeme? = some l) : l.IsArithmetic := by
  cases hg with
  | @text cs _ _ =>
    obtain rfl := Option.some.inj h
    unfold Lexeme.ofText
    split
    · exact .constant _
    · exact .identifier _
  | blank => simp [Glyph.lexeme?] at h
  | @mark c hc =>
    have hcases : c = '+' ∨ c = '-' ∨ c = '*' ∨ c = '/' ∨ c = '(' ∨ c = ')' := by simpa using hc
    rcases hcases with rfl | rfl | rfl | rfl | rfl | rfl <;> obtain rfl := Option.some.inj h
    · exact .operation (.inl rfl)
    · exact .operation (.inr (.inl rfl))
    · exact .operation (.inr (.inr (.inl rfl)))
    · exact .operation (.inr (.inr (.inr rfl)))
    · exact .opening
    · exact .closing

theorem isArithmetic_of_mem_filterMap {gs : List Glyph} (h : ∀ g ∈ gs, g.IsArithmetic) :
    ∀ l ∈ gs.filterMap Glyph.lexeme?, l.IsArithmetic := by
  intro l hl
  obtain ⟨g, hg, hlexeme⟩ := List.mem_filterMap.mp hl
  exact (h g hg).lexeme? hlexeme

end Scorecard.Formula
