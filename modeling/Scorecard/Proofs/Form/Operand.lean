import Scorecard.Equation
import Scorecard.Proofs.Number.Layout

/-!
# What an identifier is replaced by

Whatever an answer says, the text that replaces an identifier is a numeral without exponent, or
such a numeral behind a minus sign in parentheses.  `IsOperand` is that shape.  Every reading yields
it (`Reading.operand?_isOperand`), and so does the `0` that stands for an answer that is not numeric
(`Binding.resolve_isOperand`).  A word that is not bound stays (`substituteToken_of_not_binds`).
-/

namespace Scorecard

open Number (Numeral)

/-- The text is a numeral, or a negative numeral in parentheses. -/
inductive IsOperand : List Char → Prop
  | numeral {n : Numeral} (hn : n.IsPlain) : IsOperand n.text
  | negative {n : Numeral} (hn : n.IsPlain) : IsOperand ('(' :: '-' :: (n.text ++ [')']))

/-- A literal does not begin with a minus sign. -/
theorem head?_text_ne_minus {n : Numeral} (hn : n.IsPlain) : n.text.head? ≠ some '-' := by
  obtain ⟨whole, fraction, exponent⟩ := n
  cases whole with
  | cons c cs =>
    intro h
    have hc : c = '-' := by simpa [Numeral.text] using h
    exact absurd (hc ▸ hn.whole c (by simp)) (by decide)
  | nil =>
    cases fraction with
    | none => exact absurd hn.digits_ne (by simp [Numeral.digits])
    | some ds => simp [Numeral.text]

/-- Parentheses are put exactly around a negative numeral. -/
theorem operand_isOperand {n : Numeral} (hn : n.IsPlain) (negative : Bool) :
    IsOperand (operand ((if negative then ['-'] else []) ++ n.text)).toList := by
  cases negative with
  | true => simpa [operand] using IsOperand.negative hn
  | false => simpa [operand, head?_text_ne_minus hn] using IsOperand.numeral hn

theorem natDigits_isOperand (n : Nat) : IsOperand (Number.natDigits n) := by
  simpa [Numeral.text] using IsOperand.numeral (Number.natDigits_isPlain n)

theorem flag_isOperand (on : Bool) : IsOperand (flag on).toList := by
  cases on with
  | true => exact natDigits_isOperand 1
  | false => exact natDigits_isOperand 0

/-- Every reading of an answer yields an operand. -/
theorem Reading.operand?_isOperand {reading : Reading} {raw text : String}
    (h : reading.operand? raw = some text) : IsOperand text.toList := by
  cases reading with
  | decimal =>
    simp only [Reading.operand?, Option.map_eq_some_iff, Option.filter_eq_some_iff] at h
    obtain ⟨x, ⟨_, hfinite⟩, rfl⟩ := h
    obtain ⟨n, hn, htext⟩ := Number.scoreText_isPlain hfinite
    rw [htext]
    exact operand_isOperand hn _
  | integer =>
    simp only [Reading.operand?, Option.map_eq_some_iff] at h
    obtain ⟨k, _, rfl⟩ := h
    simpa [Number.intText, Numeral.text] using
      operand_isOperand (Number.natDigits_isPlain k.natAbs) (decide (k < 0))
  | yes | no | selected _ =>
    simp only [Reading.operand?, Option.some.injEq] at h
    subst h
    exact flag_isOperand _
  | position segments =>
    simp only [Reading.operand?, Option.some.injEq] at h
    subst h
    simpa using natDigits_isOperand _

/-- An identifier is replaced by an operand, for every team. -/
theorem Binding.resolve_isOperand (b : Binding) (team : Team) :
    IsOperand (b.resolve team).1.toList := by
  unfold Binding.resolve
  split
  · next h => exact Reading.operand?_isOperand h
  · exact flag_isOperand false

/-! ## Words -/

variable {schema : Schema} {w : List Char}

theorem substituteToken_isOperand (h : schema.binds (String.ofList w) = true) (team : Team) :
    IsOperand (Equation.substituteToken schema team (.word w)) := by
  obtain ⟨b, hb⟩ := Option.isSome_iff_exists.mp h
  simp only [Equation.substituteToken, hb]
  exact b.resolve_isOperand team

theorem substituteToken_of_not_binds (h : schema.binds (String.ofList w) = false) (team : Team) :
    Equation.substituteToken schema team (.word w) = w := by
  have hnone : schema.wordBinding? (String.ofList w) = none := by simpa [Schema.binds] using h
  simp only [Equation.substituteToken, hnone]

end Scorecard
