import Scorecard.Proofs.Formula.Answering
import Scorecard.Proofs.Problems
import Scorecard.Proofs.Substitution

/-!
# What the evaluator sees of a substituted formula

Substitution replaces the bound words of a formula by operands, and the evaluator cuts the text that
comes out anew.  This module brings the two together.

* `tokens_operand` and `staysWhole_operand`: an operand is cut into a literal, or a negated literal
  in parentheses, whatever separator follows it.
* `visible_substitute` gives the tokens of a substituted formula outside comments, and
  `answered_substitute` says that they are those of the formula with an answer for each word.
* `isRefused_evaluate`: a formula is refused exactly if the evaluator finds no number in the
  substituted text.
-/

namespace Scorecard

open Formula
open Number (Numeral)

/-- The problem is that no number can be computed from a formula. -/
def Problem.isRefusal : Problem → Bool
  | .formula (.invalid _ _) => true
  | _ => false

/-- The formula was refused: no number could be computed from it. -/
def Evaluation.isRefused (v : Evaluation) : Bool := v.problems.any Problem.isRefusal

/-! ## Operands -/

/-- An operand is cut in the same way in front of any separator. -/
theorem tokens_operand_append {cs : List Char} (h : IsOperand cs) : ∃ ts, IsAnswer ts ∧
    ∀ after, BeginsApart after → tokens (cs ++ after) = ts ++ tokens after := by
  cases h with
  | @numeral n hn =>
    refine ⟨_, .number hn.toIsLiteral, fun after hafter => ?_⟩
    exact tokens_number_append hn.toIsLiteral (endsLiteral_of_beginsApart n hafter)
  | @negative n hn =>
    refine ⟨_, .negated hn.toIsLiteral, fun after _ => ?_⟩
    have hclosing : BeginsApart (')' :: after) := (beginsApart_cons _ _).mpr (by decide)
    have htext : '(' :: '-' :: (n.text ++ [')']) ++ after =
        '(' :: '-' :: (n.text ++ ')' :: after) := by simp
    rw [htext, tokens_separator (by decide), tokens_separator (by decide),
      tokens_number_append hn.toIsLiteral (endsLiteral_of_beginsApart n hclosing),
      tokens_separator (by decide)]
    rfl

/-- An operand is an answer. -/
theorem tokens_operand {cs : List Char} (h : IsOperand cs) : IsAnswer (tokens cs) := by
  obtain ⟨ts, hts, happend⟩ := tokens_operand_append h
  have hself := happend [] beginsApart_nil
  rw [List.append_nil, tokens_nil, List.append_nil] at hself
  rwa [hself]

/-- The characters of an operand. -/
theorem mem_operand_cases {cs : List Char} (h : IsOperand cs) {c : Char} (hc : c ∈ cs) :
    isTextChar c = true ∨ c ∈ "()+-".toList := by
  have hnumeral : ∀ {n : Numeral}, n.IsPlain → c ∈ n.text →
      isTextChar c = true ∨ c ∈ "()+-".toList := by
    intro n hn hc
    have hmarks : ∀ d ∈ ".eE+-".toList, isTextChar d = true ∨ d ∈ "()+-".toList :=
      forall_mem_of_all (by decide)
    rcases mem_text_cases hn.toHasParts hc with hdigit | hmark
    · exact .inl (isTextChar_of_isDigit hdigit)
    · exact hmarks c hmark
  cases h with
  | numeral hn => exact hnumeral hn hc
  | negative hn =>
    simp only [List.mem_cons, List.mem_append] at hc
    rcases hc with rfl | rfl | hc | rfl | hc
    · exact .inr (by decide)
    · exact .inr (by decide)
    · exact hnumeral hn hc
    · exact .inr (by decide)
    · simp at hc

/-- An operand takes the place of a word as a whole. -/
theorem staysWhole_operand {cs : List Char} (h : IsOperand cs) : StaysWhole cs where
  ne_nil := by
    rintro rfl
    have htokens := tokens_operand h
    rw [tokens_nil] at htokens
    cases htokens
  no_comment c hc := by
    rcases mem_operand_cases h hc with htext | hmark
    · exact ⟨ne_of_isTextChar htext (by decide), ne_of_isTextChar htext (by decide)⟩
    · have hmarks : ∀ d ∈ "()+-".toList, d ≠ '/' ∧ d ≠ '*' := forall_mem_of_all (by decide)
      exact hmarks c hmark
  tokens_append after hafter := by
    obtain ⟨ts, -, happend⟩ := tokens_operand_append h
    have hself := happend [] beginsApart_nil
    rw [List.append_nil, tokens_nil, List.append_nil] at hself
    rw [happend after hafter, hself]

/-! ## Substituted formulas -/

section

variable {schema : Schema} {team : Team}

theorem substituteToken_of_not_isWord {t : Token} (h : t.isWord = false) :
    Equation.substituteToken schema team t = t.text := by
  cases t with
  | word w => exact absurd h (by simp [Token.isWord])
  | _ => rfl

/-- A token that is no word is cut off its own text. -/
theorem tokens_text_of_isCut {t : Token} (ht : t.IsCut) (hword : t.isWord = false) :
    tokens t.text = [t] := by
  cases t with
  | number n =>
    have h := tokens_number_append ht (endsLiteral_of_beginsApart n beginsApart_nil)
    simpa [Token.text] using h
  | word w => exact absurd hword (by simp [Token.isWord])
  | other c =>
    by_cases hpoint : c = '.'
    · rw [hpoint, Token.text, tokens_point_append rfl, tokens_nil]
    · have hno : isWordChar c = false := ht
      rw [Token.text, tokens_separator (by simp [separates, hno, hpoint]), tokens_nil]

/-- A bound word becomes its operand, any other token stays as written. -/
theorem mem_substituteToken_cases {t : Token} {c : Char}
    (hc : c ∈ Equation.substituteToken schema team t) :
    c ∈ t.text ∨ ∃ cs, IsOperand cs ∧ c ∈ cs := by
  cases t with
  | word w =>
    cases hb : schema.binds (String.ofList w) with
    | true => exact .inr ⟨_, substituteToken_isOperand hb team, hc⟩
    | false =>
      rw [substituteToken_of_not_binds hb] at hc
      exact .inl hc
  | _ => exact .inl hc

/-- A substituted formula is arithmetic if the formula is. -/
theorem isArithmeticChar_substitute {e : Equation}
    (h : ∀ c ∈ e.formula.toList, isArithmeticChar c = true) :
    ∀ c ∈ (e.substitute schema team).expression.toList, isArithmeticChar c = true := by
  intro c hc
  rw [substitute_toList, spliced] at hc
  obtain ⟨t, ht, hc⟩ := List.mem_flatMap.mp hc
  rcases mem_substituteToken_cases hc with hc | ⟨cs, hcs, hc⟩
  · refine h c ?_
    rw [← tokens_text e.formula.toList]
    exact List.mem_flatMap.mpr ⟨t, ht, hc⟩
  · have hmarks : ∀ d ∈ "()+-".toList, isArithmeticChar d = true := forall_mem_of_all (by decide)
    rcases mem_operand_cases hcs hc with htext | hmark
    · exact isArithmeticChar_of_isTextChar htext
    · exact hmarks c hmark

/-- The tokens of a substituted formula outside comments: those of its parts, if words stand
apart. -/
theorem visible_substitute {e : Equation}
    (hwhole : ∀ w, .word w ∈ tokens e.formula.toList →
      StaysWhole (Equation.substituteToken schema team (.word w)))
    (hapart : ∀ vs, visible false (tokens e.formula.toList) = some vs → vs.IsChain Token.Apart) :
    visible false (tokens (e.substitute schema team).expression.toList) =
      (visible false (tokens e.formula.toList)).map
        (·.flatMap fun t => tokens (Equation.substituteToken schema team t)) := by
  rw [substitute_toList]
  exact visible_rewritten (fun _ => substituteToken_of_not_isWord) hwhole hapart

/-- A formula whose words are all bound is answered by substitution. -/
theorem answered_substitute {vs : List Token} (hcut : ∀ t ∈ vs, t.IsCut)
    (hbinds : ∀ w, .word w ∈ vs → schema.binds (String.ofList w) = true) :
    Answered vs (vs.flatMap fun t => tokens (Equation.substituteToken schema team t)) := by
  induction vs with
  | nil => exact .nil
  | cons t vs ih =>
    have hrest := ih (fun u hu => hcut u (by simp [hu])) fun w hw => hbinds w (by simp [hw])
    rw [List.flatMap_cons]
    by_cases hword : t.isWord = true
    · cases t with
      | word w =>
        have htokens := tokens_operand (substituteToken_isOperand (hbinds w (by simp)) team)
        exact .word w htokens hrest
      | number n => exact absurd hword (by simp [Token.isWord])
      | other c => exact absurd hword (by simp [Token.isWord])
    · have hno : t.isWord = false := by simpa using hword
      rw [substituteToken_of_not_isWord hno, tokens_text_of_isCut (hcut t (by simp)) hno]
      exact .kept hno hrest

/-- A formula for which the evaluator finds no number scores zero, and the last problem says why. -/
theorem evaluate_of_error {e : Equation} {cause : EvalError}
    (h : evaluateNumber (fractional (e.substitute schema team).expression) = .error cause) :
    (e.evaluate schema team).score = 0 ∧ (e.evaluate schema team).problems.getLast? =
      some (.formula (.invalid (e.substitute schema team).expression cause)) := by
  have heval : Formula.evaluate (e.substitute schema team).expression =
      .error (.invalid (e.substitute schema team).expression cause) := by
    rw [Formula.evaluate, h]
  rw [Equation.evaluate_of_failure heval]
  exact ⟨rfl, List.getLast?_concat⟩

/-- A formula is refused exactly if the evaluator finds no number for it. -/
theorem isRefused_evaluate {e : Equation} : (e.evaluate schema team).isRefused =
    !(evaluateNumber (fractional (e.substitute schema team).expression)).isOk := by
  have hbad : ((e.substitute schema team).badAnswers.map Problem.notNumeric).any
      Problem.isRefusal = false := by
    simp [Problem.isRefusal]
  simp only [Evaluation.isRefused, Equation.evaluate, Formula.evaluate]
  cases evaluateNumber (fractional (e.substitute schema team).expression) with
  | error cause => simp [hbad, Problem.isRefusal, Except.isOk, Except.toBool]
  | ok x =>
    by_cases hfinite : x.isFinite = true <;>
      simp [hfinite, hbad, Problem.isRefusal, Except.isOk, Except.toBool]

end

end Scorecard
