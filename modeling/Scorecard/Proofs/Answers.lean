import Scorecard.Proofs.Replacement

/-!
# Whether a formula is refused does not depend on the answers

Whether the evaluator finds a number for a formula depends on the formula and not on the team, as
long as the words of the formula stand apart (`Equation.isRefused_evaluate_eq`).  Substitution works
on text, so a word beside a point or a literal does depend on the answer: `x.5` is a number if `3`
was answered and none if `-3` was (`not_isRefused_evaluate_eq`).

Two runs are compared through a third one, in which every word stands for zero.
-/

namespace Scorecard

open Formula

/-- The words of the formula stand apart: outside comments, none is beside a literal, a point or
another word, and none is in front of an empty pair of parentheses. -/
def Equation.StandsApart (e : Equation) : Prop :=
  ∀ vs, visible false (tokens e.formula.toList) = some vs → vs.IsChain Token.Apart ∧ NoEmptyCall vs

instance decidableNoEmptyCall : ∀ ts : List Token, Decidable (NoEmptyCall ts)
  | [] => .isTrue trivial
  | _ :: ts =>
      have := decidableNoEmptyCall ts
      inferInstanceAs (Decidable (_ ∧ _))

instance (e : Equation) : Decidable e.StandsApart :=
  decidable_of_iff
    (∀ vs ∈ visible false (tokens e.formula.toList),
      vs.IsChain Token.Apart ∧ NoEmptyCall vs) Iff.rfl

theorem isOk_eq_of_agree {ε α : Type} {R : α → α → Prop} {x y : Except ε α} (h : Agree R x y) :
    x.isOk = y.isOk := by
  cases h <;> rfl

/-- A formula whose words are all bound and stand apart yields a number for a team exactly if it
does with zeros. -/
theorem isOk_evaluateNumber_substitute {e : Equation} {schema : Schema}
    (hchars : ∀ c ∈ e.formula.toList, isArithmeticChar c = true)
    (hbinds : ∀ name ∈ e.identifiers, schema.binds name = true) (hapart : e.StandsApart)
    (team : Team) :
    (evaluateNumber (fractional (e.substitute schema team).expression)).isOk =
      (visible false (tokens e.formula.toList)).any fun vs =>
        (numberOf (rowOf (vs.map Token.zeroed))).isOk := by
  have hbound : ∀ w, .word w ∈ tokens e.formula.toList → schema.binds (String.ofList w) = true :=
    fun w hw => hbinds _ (mem_identifiers hw)
  have hwhole : ∀ w, .word w ∈ tokens e.formula.toList →
      StaysWhole (Equation.substituteToken schema team (.word w)) := fun w hw =>
    staysWhole_operand (substituteToken_isOperand (hbound w hw) team)
  rw [evaluateNumber_fractional (isArithmeticChar_substitute hchars),
    visible_substitute hwhole fun vs hvs => (hapart vs hvs).1]
  cases hvs : visible false (tokens e.formula.toList) with
  | none => rfl
  | some vs =>
    have hmem : ∀ t ∈ vs, t ∈ tokens e.formula.toList := fun t => mem_of_mem_visible hvs
    have harith : ∀ t ∈ vs, t.IsArithmetic := fun t ht =>
      isArithmetic_of_mem_tokens hchars t (hmem t ht)
    have hanswered := @answered_substitute schema team vs (fun t ht => (harith t ht).1)
      fun w hw => hbound w (hmem _ hw)
    obtain ⟨hchain, hcalls⟩ := hapart vs hvs
    exact (isOk_eq_of_agree (agree_of_answered hanswered harith hchain hcalls)).symm

/-- Whether an arithmetic formula is refused is the same for all teams, if its words are bound and
stand apart. -/
theorem Equation.isRefused_evaluate_eq (e : Equation) (schema : Schema)
    (hchars : ∀ c ∈ e.formula.toList, isArithmeticChar c = true)
    (hbinds : ∀ name ∈ e.identifiers, schema.binds name = true) (hapart : e.StandsApart)
    (team team' : Team) :
    (e.evaluate schema team).isRefused = (e.evaluate schema team').isRefused := by
  rw [isRefused_evaluate, isRefused_evaluate,
    isOk_evaluateNumber_substitute hchars hbinds hapart team,
    isOk_evaluateNumber_substitute hchars hbinds hapart team']

/-! ## A counter with a sign -/

/-- A form with one counter. -/
def counter : Schema := .ofFields [.stepper ⟨[], [], ["x"]⟩]

/-- A team that counted `count`. -/
def counted (count : String) : Team := ⟨"1", [("x", count)]⟩

/-- A formula with the counter in a comment, too, where a point follows it. -/
def spaced : Equation := ⟨"Total", "2*x - (x/4 + .5) /* x.5 */"⟩

/-- The spaced formula is refused for both of two counts or for neither. -/
theorem isRefused_evaluate_eq_spaced :
    (∀ c ∈ spaced.formula.toList, isArithmeticChar c = true) ∧
      (∀ name ∈ spaced.identifiers, counter.binds name = true) ∧ spaced.StandsApart ∧
      (spaced.evaluate counter (counted "3")).isRefused =
        (spaced.evaluate counter (counted "-3")).isRefused := by
  have hchars : ∀ c ∈ spaced.formula.toList, isArithmeticChar c = true :=
    forall_mem_of_all (by decide +kernel)
  have hbinds : ∀ name ∈ spaced.identifiers, counter.binds name = true := by decide +kernel
  have hapart : spaced.StandsApart := by decide +kernel
  exact ⟨hchars, hbinds, hapart, spaced.isRefused_evaluate_eq counter hchars hbinds hapart _ _⟩

/-- A word in front of a point depends on its answer: with `3` the formula `x.5` becomes `3.5`, with
`-3` it becomes `(-3).5`. -/
theorem not_isRefused_evaluate_eq :
    ¬ ∀ (e : Equation) (schema : Schema), (∀ c ∈ e.formula.toList, isArithmeticChar c = true) →
      (∀ name ∈ e.identifiers, schema.binds name = true) → ∀ team team' : Team,
        (e.evaluate schema team).isRefused = (e.evaluate schema team').isRefused := by
  intro h
  have hpoint := h ⟨"Total", "x.5"⟩ counter (forall_mem_of_all (by decide +kernel))
    (by decide +kernel) (counted "3") (counted "-3")
  exact absurd hpoint (by decide +kernel)

end Scorecard
