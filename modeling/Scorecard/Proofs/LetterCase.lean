import Scorecard.Proofs.Form.Operand
import Scorecard.Proofs.Formula.LetterCase
import Scorecard.Proofs.Formula.Wordless
import Scorecard.Proofs.Problems
import Scorecard.Proofs.Replacement

/-!
# Scores of formulas in another letter case

Two formulas that differ in the case of the letters A to Z only have the same score, for every team
and under every form that binds their words (`Equation.score_evaluate_eq_of_sameIgnoringAsciiCase`).

The words are looked up in lower case, so both formulas ask for the same answers
(`wordBinding?_eq`), and the substituted formulas again differ in case only.  They have no words
left, since an answer becomes digits, points and separators (`IsOperand.keepsLoose`), so all that
case still changes is the mark of an exponent, which leaves no trace when the literals are written
with a point.
-/

namespace Scorecard

open Formula Text
open Number (Numeral isDigit)

/-! ## Operands -/

/-- A literal without exponent keeps a text loose. -/
theorem keepsLoose_text {n : Numeral} (hn : n.IsPlain) : KeepsLoose n.text := by
  have hexponent := hn.exponent_eq
  obtain ⟨whole, fraction, exponent⟩ := n
  obtain rfl : exponent = none := hexponent
  intro after hafter
  cases fraction with
  | none => simpa [Numeral.text] using keepsLoose_digits hn.whole after hafter
  | some ds =>
    have hpoint := Loose.point (keepsLoose_digits (hn.fraction ds rfl) after hafter)
    simpa [Numeral.text] using keepsLoose_digits hn.whole _ hpoint

/-- What an answer becomes keeps a text loose. -/
theorem IsOperand.keepsLoose {cs : List Char} (h : IsOperand cs) : KeepsLoose cs := by
  intro after hafter
  cases h with
  | numeral hn => exact keepsLoose_text hn after hafter
  | @negative n hn =>
    have hclose : Loose (')' :: after) := .separator (by decide) hafter.wordless
    have hnumeral : Loose (n.text ++ ')' :: after) := keepsLoose_text hn _ hclose
    have hminus : Loose ('-' :: (n.text ++ ')' :: after)) :=
      .separator (by decide) hnumeral.wordless
    simpa using Loose.separator (show separates '(' = true by decide) hminus.wordless

/-! ## Substitution -/

section

variable {schema : Schema} {team : Team}

/-- The case of a word does not change what it stands for. -/
theorem wordBinding?_eq {w v : List Char} (hw : ∀ c ∈ w, isWordChar c = true)
    (hv : ∀ c ∈ v, isWordChar c = true) (h : asciiLowered w = asciiLowered v) :
    schema.wordBinding? (String.ofList w) = schema.wordBinding? (String.ofList v) := by
  have hascii : ∀ {cs : List Char}, (∀ c ∈ cs, isWordChar c = true) →
      lowered cs = asciiLowered cs := by
    intro cs hcs
    refine lowered_of_ascii fun c hc => ?_
    have hcode := (isWordChar_iff c).mp (hcs c hc)
    omega
  rw [Schema.wordBinding?, Schema.wordBinding?, lower, lower, String.toList_ofList,
    String.toList_ofList, hascii hw, hascii hv, h]

theorem Formula.Token.SameButCase.wordBinding?_eq {w v : List Char}
    (h : (Token.word w).SameButCase (.word v)) :
    schema.wordBinding? (String.ofList w) = schema.wordBinding? (String.ofList v) :=
  Scorecard.wordBinding?_eq h.left.2.1 h.right.2.1 (Token.word.inj h.lowered_eq)

/-- Tokens that differ in case only are replaced by texts that do so. -/
theorem asciiLowered_substituteToken {t u : Token} (h : t.SameButCase u) :
    asciiLowered (Equation.substituteToken schema team t) =
      asciiLowered (Equation.substituteToken schema team u) := by
  cases hword : t.isWord with
  | false =>
    rw [substituteToken_of_not_isWord hword, substituteToken_of_not_isWord (h.isWord_eq ▸ hword),
      h.text_eq]
  | true =>
    cases t with
    | word w =>
      obtain ⟨v, rfl, hwv⟩ := h.exists_word
      simp only [Equation.substituteToken, h.wordBinding?_eq]
      split
      · rfl
      · exact hwv
    | _ => exact absurd hword (by simp [Token.isWord])

/-- Where all words are bound, none is left. -/
theorem wordless_substitute {e : Equation} (hbinds : ∀ name ∈ e.identifiers, schema.binds name = true) :
    Wordless (e.substitute schema team).expression.toList := by
  have hwords : ∀ w, .word w ∈ tokens e.formula.toList →
      KeepsLoose (Equation.substituteToken schema team (.word w)) := fun w hw =>
    (substituteToken_isOperand (hbinds _ (mem_identifiers hw)) team).keepsLoose
  simpa [Equation.substitute, rewriteTokens] using
    (wordless_rewritten (fun _ => substituteToken_of_not_isWord) hwords).1

section

variable {e d : Equation}

theorem tokens_sameButCase_formula (h : sameIgnoringAsciiCase e.formula d.formula = true) :
    List.Forall₂ Token.SameButCase (tokens e.formula.toList) (tokens d.formula.toList) :=
  tokens_sameButCase (by simpa [sameIgnoringAsciiCase] using h)

/-- Formulas that differ in case only do so with the answers of a team in place. -/
theorem sameIgnoringAsciiCase_substitute
    (h : sameIgnoringAsciiCase e.formula d.formula = true) :
    sameIgnoringAsciiCase (e.substitute schema team).expression
      (d.substitute schema team).expression = true := by
  simp only [sameIgnoringAsciiCase, Equation.substitute, rewriteTokens, String.toList_ofList,
    beq_iff_eq]
  rw [asciiLowered, asciiLowered, List.map_flatMap, List.map_flatMap]
  exact flatMap_eq_of_forall₂ (tokens_sameButCase_formula h) fun _ _ => asciiLowered_substituteToken

/-- Formulas that differ in case only ask for the same answers. -/
theorem map_wordBinding?_identifiers (h : sameIgnoringAsciiCase e.formula d.formula = true) :
    e.identifiers.map schema.wordBinding? = d.identifiers.map schema.wordBinding? := by
  have htokens := tokens_sameButCase_formula h
  rw [Equation.identifiers, Equation.identifiers, identifiers, identifiers]
  generalize tokens e.formula.toList = ts at htokens
  generalize tokens d.formula.toList = us at htokens
  induction htokens with
  | nil => rfl
  | @cons t u _ _ hhead _ ih =>
    cases t with
    | word w =>
      obtain ⟨v, rfl, -⟩ := hhead.exists_word
      simpa [hhead.wordBinding?_eq] using ih
    | _ =>
      have hword := hhead.isWord_eq
      cases u with
      | word v => exact absurd hword (by simp [Token.isWord])
      | _ => simpa using ih

theorem badAnswers_substitute_eq (h : sameIgnoringAsciiCase e.formula d.formula = true) :
    (e.substitute schema team).badAnswers = (d.substitute schema team).badAnswers := by
  have hasked : ∀ names : List String, names.filterMap (Equation.badAnswer? schema team) =
      (names.map schema.wordBinding?).filterMap fun b? => b?.bind fun b => (b.resolve team).2 := by
    intro names
    rw [List.filterMap_map]
    rfl
  simp only [Equation.substitute, hasked, map_wordBinding?_identifiers h]

/-- Where the words of a formula are bound, those of a formula that differs in case only are. -/
theorem binds_identifiers_of_sameIgnoringAsciiCase
    (h : sameIgnoringAsciiCase e.formula d.formula = true)
    (hbinds : ∀ name ∈ e.identifiers, schema.binds name = true) :
    ∀ name ∈ d.identifiers, schema.binds name = true := by
  intro name hname
  have hasked : schema.wordBinding? name ∈ e.identifiers.map schema.wordBinding? := by
    rw [map_wordBinding?_identifiers h]
    exact List.mem_map_of_mem hname
  obtain ⟨other, hother, heq⟩ := List.mem_map.mp hasked
  rw [Schema.binds, ← heq]
  exact hbinds other hother

end

end

/-! ## Evaluation -/

/-- Two failures for the same cause. -/
inductive Formula.Failure.SameCause : Failure → Failure → Prop
  | invalid (a b : String) (cause : EvalError) : SameCause (.invalid a cause) (.invalid b cause)
  | notFinite (a b : String) : SameCause (.notFinite a) (.notFinite b)

/-- Formulas that are the same to the evaluator have the same value, or they fail for the same
cause. -/
theorem Formula.evaluate_cases_of_fractional_eq {a b : String} (h : fractional a = fractional b) :
    (∃ x, Formula.evaluate a = .ok x ∧ Formula.evaluate b = .ok x) ∨
      ∃ f g, Formula.evaluate a = .error f ∧ Formula.evaluate b = .error g ∧ f.SameCause g := by
  unfold Formula.evaluate
  rw [h]
  cases evaluateNumber (fractional b) with
  | error cause => exact .inr ⟨_, _, rfl, rfl, .invalid a b cause⟩
  | ok x =>
    dsimp only
    split
    · exact .inl ⟨x, rfl, rfl⟩
    · exact .inr ⟨_, _, rfl, rfl, .notFinite a b⟩

/-- Two problems are the same, up to the expression that a failure quotes. -/
inductive Problem.SameCause : Problem → Problem → Prop
  | same (problem : Problem) : SameCause problem problem
  | formula {f g : Failure} (h : f.SameCause g) : SameCause (.formula f) (.formula g)

/-- The problem is that a formula has no value. -/
def Problem.isFailure : Problem → Bool
  | .formula _ => true
  | _ => false

theorem Problem.SameCause.isFailure_eq {p q : Problem} (h : p.SameCause q) :
    p.isFailure = q.isFailure := by
  cases h <;> rfl

/-- The formula has no value. -/
def Evaluation.fails (v : Evaluation) : Bool := v.problems.any Problem.isFailure

/-- Two evaluations have the same score, for expressions that differ in case only, and the same
problems. -/
structure Evaluation.SameButCase (v w : Evaluation) : Prop where
  score_eq : v.score = w.score
  expression : sameIgnoringAsciiCase v.expression w.expression = true
  problems : List.Forall₂ Problem.SameCause v.problems w.problems

theorem Evaluation.SameButCase.fails_eq {v w : Evaluation} (h : v.SameButCase w) :
    v.fails = w.fails := by
  have hproblems := h.problems
  rw [fails, fails]
  generalize v.problems = ps at hproblems
  generalize w.problems = qs at hproblems
  induction hproblems with
  | nil => rfl
  | cons hhead _ ih => rw [List.any_cons, List.any_cons, hhead.isFailure_eq, ih]

/-- Evaluations of formulas that differ in case only differ in the case of their expressions only. -/
theorem Equation.evaluate_sameButCase {e d : Equation} {schema : Schema}
    (h : sameIgnoringAsciiCase e.formula d.formula = true)
    (hbinds : ∀ name ∈ e.identifiers, schema.binds name = true) (team : Team) :
    (e.evaluate schema team).SameButCase (d.evaluate schema team) := by
  have hexpression := @sameIgnoringAsciiCase_substitute schema team e d h
  have hbad := @badAnswers_substitute_eq schema team e d h
  have hsame : ∀ problems : List Problem, List.Forall₂ Problem.SameCause problems problems :=
    fun problems => List.forall₂_same.mpr fun problem _ => .same problem
  have hfractional := fractional_eq_of_wordless hexpression (wordless_substitute hbinds)
  rcases Formula.evaluate_cases_of_fractional_eq hfractional with
    ⟨x, hx, hx'⟩ | ⟨f, g, hf, hg, hcause⟩
  · rw [evaluate_of_ok hx, evaluate_of_ok hx', hbad]
    exact ⟨rfl, hexpression, hsame _⟩
  · rw [evaluate_of_failure hf, evaluate_of_failure hg, hbad]
    exact ⟨rfl, hexpression, List.rel_append (hsame _) (.cons (.formula hcause) .nil)⟩

/-- Two formulas that differ in the case of the letters A to Z only have their words in the same
places.  If the words of one are bound, so are those of the other, and then both formulas have the
same score, and both fail or neither. -/
theorem Equation.score_evaluate_eq_of_sameIgnoringAsciiCase (e d : Equation)
    (h : sameIgnoringAsciiCase e.formula d.formula = true) (schema : Schema)
    (hbinds : ∀ name ∈ e.identifiers, schema.binds name = true) (team : Team) :
    List.Forall₂ (fun o o' => o.1 = o'.1 ∧ sameIgnoringAsciiCase o.2 o'.2 = true)
        (occurrences 0 (tokens e.formula.toList)) (occurrences 0 (tokens d.formula.toList)) ∧
      (∀ name ∈ d.identifiers, schema.binds name = true) ∧
      (e.evaluate schema team).score = (d.evaluate schema team).score ∧
      (e.evaluate schema team).fails = (d.evaluate schema team).fails := by
  have hevaluation := e.evaluate_sameButCase h hbinds team
  exact ⟨occurrences_sameButCase (tokens_sameButCase_formula h) 0,
    binds_identifiers_of_sameIgnoringAsciiCase h hbinds, hevaluation.score_eq,
    hevaluation.fails_eq⟩

/-- A formula with marks of exponents, one of them behind a word. -/
def recased : Equation := ⟨"Total", "1.5E-2 * Gears + x.5e3"⟩

/-- In the other case, that formula has a score as well, and the same one. -/
theorem score_evaluate_eq_recased :
    let form : Schema := .ofFields [.stepper ⟨[], [], ["gears", "x"]⟩]
    let other : Equation := ⟨"Total", "1.5e-2 * gEARS + X.5E3"⟩
    let team : Team := ⟨"254", [("gears", "4"), ("x", "3")]⟩
    sameIgnoringAsciiCase recased.formula other.formula = true ∧
      (∀ name ∈ recased.identifiers, form.binds name = true) ∧
      (recased.evaluate form team).fails = false ∧
      (recased.evaluate form team).score = (other.evaluate form team).score := by
  intro form other team
  have hcase : sameIgnoringAsciiCase recased.formula other.formula = true := by decide +kernel
  have hbinds : ∀ name ∈ recased.identifiers, form.binds name = true := by decide +kernel
  exact ⟨hcase, hbinds, by decide +kernel,
    (recased.score_evaluate_eq_of_sameIgnoringAsciiCase other hcase form hbinds team).2.2.1⟩

end Scorecard
