import Scorecard.Form.Validation
import Scorecard.Proofs.Form.Keys
import Scorecard.Proofs.Form.Operand
import Scorecard.Proofs.Formula.Cutting

/-!
# Warnings about identifiers

The validator warns of an identifier exactly where scoring leaves it in the formula.
`Schema.occurrenceWarnings` is what it says about one token, and `Form.warnings_identifiers` puts
these together: the warnings of a form that are about identifiers are those of its equations' tokens
in order, one for each word that is left for every team and none for a word that is replaced for
every team.

A word that is bound is replaced by an operand, and no operand is spelled like a word
(`operand_ne_word`); a word that is not bound is left.  The validator asks first whether the word is
known, which every bound word is (`Schema.knows_of_binds`).
-/

namespace Scorecard

open Formula

/-- Whether a warning is about an identifier of a formula. -/
def Warning.isAboutIdentifier : Warning → Bool
  | unknownIdentifier _ _ | unboundIdentifier _ _ => true
  | _ => false

/-- The warnings about one token of an equation with the given title. -/
def Schema.occurrenceWarnings (schema : Schema) (title : String) : Token → List Warning
  | .word w => (identifierWarning? schema title (String.ofList w)).toList
  | _ => []

/-! ## The warnings of a form -/

theorem Field.warnings_filter (f : Field) :
    f.warnings.filter Warning.isAboutIdentifier = [] := by
  unfold Field.warnings
  split
  · rfl
  · rw [List.filter_append]
    split <;> split <;> (try split) <;> rfl

theorem sharedKeyWarnings_filter (fields : List Field) :
    (sharedKeyWarnings fields).filter Warning.isAboutIdentifier = [] := by
  rw [List.filter_eq_nil_iff]
  intro warning h
  obtain ⟨key, _, hkey⟩ := List.mem_filterMap.mp h
  split at hkey
  · obtain rfl := Option.some.inj hkey
    simp [Warning.isAboutIdentifier]
  · simp at hkey

theorem nameWarnings_filter (seen : List String) (e : Equation) :
    (nameWarnings seen e).filter Warning.isAboutIdentifier = [] := by
  unfold nameWarnings
  split
  · rfl
  · split <;> rfl

theorem isAboutIdentifier_of_identifierWarning? {schema : Schema} {title identifier : String}
    {warning : Warning} (h : identifierWarning? schema title identifier = some warning) :
    warning.isAboutIdentifier = true := by
  unfold identifierWarning? at h
  split at h
  · obtain rfl := Option.some.inj h
    rfl
  · split at h
    · obtain rfl := Option.some.inj h
      rfl
    · simp at h

/-- The warnings about the identifiers of an equation are those about its tokens. -/
theorem identifierWarnings_eq (schema : Schema) (title : String) (e : Equation) :
    (e.identifiers.filterMap (identifierWarning? schema title)).filter Warning.isAboutIdentifier =
      (tokens e.formula.toList).flatMap (schema.occurrenceWarnings title) := by
  have hall : (e.identifiers.filterMap (identifierWarning? schema title)).filter
      Warning.isAboutIdentifier = e.identifiers.filterMap (identifierWarning? schema title) := by
    rw [List.filter_eq_self]
    intro warning h
    obtain ⟨identifier, _, hwarning⟩ := List.mem_filterMap.mp h
    exact isAboutIdentifier_of_identifierWarning? hwarning
  rw [hall, Equation.identifiers, identifiers, List.filterMap_filterMap]
  induction tokens e.formula.toList with
  | nil => rfl
  | cons t ts ih =>
    rw [List.flatMap_cons, ← ih]
    cases t with
    | word w =>
      cases hw : identifierWarning? schema title (String.ofList w) <;>
        simp [Schema.occurrenceWarnings, hw]
    | number n => simp [Schema.occurrenceWarnings]
    | other c => simp [Schema.occurrenceWarnings]

theorem equationWarnings_filter (schema : Schema) (seen : List String) (es : List Equation) :
    (equationWarnings schema seen es).filter Warning.isAboutIdentifier =
      es.flatMap fun e =>
        (tokens e.formula.toList).flatMap (schema.occurrenceWarnings e.title) := by
  induction es generalizing seen with
  | nil => rfl
  | cons e es ih =>
    rw [equationWarnings, List.filter_append, List.filter_append, nameWarnings_filter,
      identifierWarnings_eq, ih, List.flatMap_cons]
    rfl

/-- The warnings of a form about identifiers are those about the tokens of its equations. -/
theorem Form.warnings_filter (form : Form) :
    form.warnings.filter Warning.isAboutIdentifier = form.equations.flatMap fun e =>
      (tokens e.formula.toList).flatMap (form.schema.occurrenceWarnings e.title) := by
  have hfields : (form.schema.fields.flatMap Field.warnings).filter Warning.isAboutIdentifier =
      [] := by
    rw [List.filter_flatMap, List.flatMap_eq_nil_iff]
    exact fun f _ => f.warnings_filter
  have hcolumns : ((repeats [] form.schema.columns).map Warning.repeatedColumn).filter
      Warning.isAboutIdentifier = [] := by
    rw [List.filter_eq_nil_iff]
    intro warning h
    obtain ⟨column, _, rfl⟩ := List.mem_map.mp h
    simp [Warning.isAboutIdentifier]
  simp only [Form.warnings, List.filter_append, hfields, sharedKeyWarnings_filter, hcolumns,
    equationWarnings_filter, List.nil_append]

/-! ## What scoring does with a word -/

/-- An operand is not spelled like a word: it begins with a parenthesis, or it has a point or digits
only. -/
theorem operand_ne_word {cs w : List Char} (h : IsOperand cs) (hw : (Token.word w).IsCut) :
    cs ≠ w := by
  rintro rfl
  obtain ⟨_, hall, d, hd, hdigit⟩ := hw
  cases h with
  | negative _ => exact absurd (hall '(' (by simp)) (by decide)
  | @numeral n hn =>
    obtain ⟨whole, fraction, exponent⟩ := n
    obtain rfl : exponent = none := hn.exponent_eq
    cases fraction with
    | some ds =>
      have hpoint : isWordChar '.' = true := hall '.' (by simp [Number.Numeral.text])
      exact absurd hpoint (by decide)
    | none =>
      rw [hn.whole d (by simpa [Number.Numeral.text] using hd)] at hdigit
      exact absurd hdigit (by decide)

section

variable {schema : Schema} {w : List Char}

theorem substituteToken_ne_of_binds (hw : (Token.word w).IsCut)
    (h : schema.binds (String.ofList w) = true) (team : Team) :
    Equation.substituteToken schema team (.word w) ≠ w :=
  operand_ne_word (substituteToken_isOperand h team) hw

/-- A word that is not bound has one warning. -/
theorem occurrenceWarnings_of_not_binds (h : schema.binds (String.ofList w) = false)
    (title : String) :
    schema.occurrenceWarnings title (.word w) = [.unknownIdentifier title (String.ofList w)] ∨
      schema.occurrenceWarnings title (.word w) = [.unboundIdentifier title (String.ofList w)] := by
  simp only [Schema.occurrenceWarnings, identifierWarning?, h]
  cases schema.knows (String.ofList w) with
  | false => exact .inl rfl
  | true => exact .inr rfl

/-- A word that is bound has none. -/
theorem occurrenceWarnings_of_binds (h : schema.binds (String.ofList w) = true) (title : String) :
    schema.occurrenceWarnings title (.word w) = [] := by
  simp [Schema.occurrenceWarnings, identifierWarning?, h, Schema.knows_of_binds h]

end

/-- A team without answers. -/
def silentTeam : Team := ⟨"", []⟩

/-- The warnings of a form about identifiers are, in order, those about the words of its equations.
A word has exactly one warning if every team's formula keeps it, and none if every team's formula
has another text in its place; one of the two is the case.  What is bound is known to the validator,
whatever the text. -/
theorem Form.warnings_identifiers (form : Form) :
    (form.warnings.filter Warning.isAboutIdentifier = form.equations.flatMap fun e =>
        (tokens e.formula.toList).flatMap (form.schema.occurrenceWarnings e.title)) ∧
      (∀ e ∈ form.equations,
        (∀ team, (e.substitute form.schema team).expression.toList =
          (tokens e.formula.toList).flatMap (Equation.substituteToken form.schema team)) ∧
        ∀ w, .word w ∈ tokens e.formula.toList →
          ((form.schema.occurrenceWarnings e.title (.word w) =
                [.unknownIdentifier e.title (String.ofList w)] ∨
              form.schema.occurrenceWarnings e.title (.word w) =
                [.unboundIdentifier e.title (String.ofList w)]) ↔
            ∀ team, Equation.substituteToken form.schema team (.word w) = w) ∧
          (form.schema.occurrenceWarnings e.title (.word w) = [] ↔
            ∀ team, Equation.substituteToken form.schema team (.word w) ≠ w)) ∧
      ∀ s, form.schema.binds s = true → form.schema.knows s = true := by
  refine ⟨form.warnings_filter, fun e _ => ⟨fun team => ?_, fun w hw => ?_⟩,
    fun s => Schema.knows_of_binds⟩
  · simp [Equation.substitute, rewriteTokens]
  · cases hb : form.schema.binds (String.ofList w) with
    | false =>
      have hwarning := occurrenceWarnings_of_not_binds hb e.title
      have hkept := substituteToken_of_not_binds hb
      refine ⟨iff_of_true hwarning hkept, iff_of_false ?_ fun h => h silentTeam (hkept silentTeam)⟩
      rcases hwarning with h | h <;> simp [h]
    | true =>
      have hnone := occurrenceWarnings_of_binds hb e.title
      have hchanged := substituteToken_ne_of_binds (isCut_of_mem_tokens hw) hb
      refine ⟨iff_of_false ?_ fun h => hchanged silentTeam (h silentTeam),
        iff_of_true hnone hchanged⟩
      simp [hnone]

/-- A form with a counter, a slider and an equation that names both and something else. -/
def gearForm : Form :=
  ⟨.ofFields [.stepper ⟨[], ["Gears"], ["gears"]⟩, .slider ⟨[], ["Speed"], ["speed"]⟩],
    [⟨"total", "Gears + speed*gear"⟩], []⟩

/-- The slider and the unknown name have one warning each and are left; the counter has none and is
replaced. -/
theorem warnings_identifiers_gearForm :
    gearForm.warnings.filter Warning.isAboutIdentifier =
        [.unboundIdentifier "Total" "speed", .unknownIdentifier "Total" "gear"] ∧
      (∀ team, Equation.substituteToken gearForm.schema team (.word "speed".toList) =
        "speed".toList) ∧
      (∀ team, Equation.substituteToken gearForm.schema team (.word "gear".toList) =
        "gear".toList) ∧
      (∀ team, Equation.substituteToken gearForm.schema team (.word "Gears".toList) ≠
        "Gears".toList) ∧
      gearForm.schema.knows "Gears" = true := by
  obtain ⟨hfilter, hequations, hknows⟩ := gearForm.warnings_identifiers
  have hwords := (hequations ⟨"total", "Gears + speed*gear"⟩ (by simp [gearForm])).2
  refine ⟨hfilter.trans (by decide +kernel), ?_, ?_, ?_, hknows "Gears" (by decide +kernel)⟩
  · exact (hwords "speed".toList (by decide +kernel)).1.mp (.inr (by decide +kernel))
  · exact (hwords "gear".toList (by decide +kernel)).1.mp (.inl (by decide +kernel))
  · exact (hwords "Gears".toList (by decide +kernel)).2.mp (by decide +kernel)

end Scorecard
