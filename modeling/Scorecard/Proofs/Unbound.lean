import Scorecard.Proofs.Answers
import Scorecard.Proofs.Formula.Names

/-!
# Names that are not bound

A name that is not bound stays in the formula, and the evaluation is meant to end refused because of
it.  Whether it does depends on what the evaluator makes of the name: a name such as `0x10` or `inf`
is a number to it, and a name beside other text is only part of what it reads.

* `Evaluation.EndsRefused` is the outcome that is meant: no score, and a last problem that says so.
* `Equation.endsRefused_evaluate` says when an arithmetic formula has this outcome.
* `endsRefused_of_name`: a name does bring it about if it stands apart, is cut as a word wherever it
  is put, and is neither a constant nor a function to the evaluator.
* `endsRefused_name_iff`: where the formula is the name alone, it does exactly if the evaluator does
  not read the name as a constant.
* `not_endsRefused_evaluate` is a formula with an unbound name that has a score.
-/

namespace Scorecard

open Formula
open Number (Numeral isDigit)

/-- The evaluation scores zero, and its last problem is that no number can be computed. -/
def Evaluation.EndsRefused (v : Evaluation) : Prop :=
  v.score = 0 ∧ ∃ cause, v.problems.getLast? = some (.formula (.invalid v.expression cause))

/-! ## Runs of text -/

/-- A word that no text touches is a run of its own. -/
theorem text_mem_gather {as bs : List Token} {w : List Char}
    (harith : ∀ t ∈ as ++ .word w :: bs, t.IsArithmetic)
    (hbefore : ∀ t ∈ as.getLast?, t.isText = false)
    (hafter : ∀ t ∈ bs.head?, t.isText = false) :
    .text w ∈ gather (as ++ .word w :: bs) := by
  have hbs : ∀ t ∈ bs, t.IsArithmetic := fun t ht => harith t (by simp [ht])
  rw [gather_append (fun t ht => harith t (by simp [ht])) (fun t ht => harith t (by simp [ht]))
    fun t ht u _ htext => by rw [hbefore t ht] at htext; exact absurd htext (by decide)]
  rw [gather, joinFront_gather_token (harith _ (by simp)) hbs fun t ht _ => hafter t ht]
  simp [Token.glyph, withPoint, Token.text]

/-- A run that is not read leaves no number. -/
theorem numberOf_of_not_isRead {vs : List Token} (hvs : ∀ t ∈ vs, t.IsArithmetic) {cs : List Char}
    (hmem : .text cs ∈ gather vs) (hread : ¬ IsRead cs) :
    (numberOf (rowOf vs)).isOk = false := by
  simp only [IsRead, not_or, Bool.not_eq_true, Option.isSome_eq_false_iff,
    Option.isNone_iff_eq_none] at hread
  obtain ⟨hconstant, hfunction⟩ := hread
  have hname : .identifier (String.ofList cs) ∈ rowOf vs :=
    List.mem_filterMap.mpr ⟨.text cs, hmem, by simp [Glyph.lexeme?, Lexeme.ofText, hconstant]⟩
  obtain ⟨cause, hcause⟩ := numberOf_of_name (isArithmetic_of_mem_rowOf hvs) hname hfunction
  rw [hcause]
  rfl

/-! ## Formulas -/

section

variable {e : Equation} {schema : Schema} {team : Team}

theorem expression_evaluate :
    (e.evaluate schema team).expression = (e.substitute schema team).expression := by
  simp only [Equation.evaluate]
  split <;> rfl

theorem isRefused_of_endsRefused {v : Evaluation} (h : v.EndsRefused) : v.isRefused = true := by
  obtain ⟨-, cause, hlast⟩ := h
  exact List.any_eq_true.mpr ⟨_, List.mem_of_getLast? hlast, rfl⟩

/-- An evaluation ends refused exactly if the evaluator finds no number. -/
theorem endsRefused_iff : (e.evaluate schema team).EndsRefused ↔
    (evaluateNumber (fractional (e.substitute schema team).expression)).isOk = false := by
  constructor
  · intro h
    simpa [isRefused_evaluate] using isRefused_of_endsRefused h
  · intro h
    cases hnumber : evaluateNumber (fractional (e.substitute schema team).expression) with
    | error cause =>
      obtain ⟨hscore, hlast⟩ := evaluate_of_error hnumber
      exact ⟨hscore, cause, by rw [hlast, expression_evaluate]⟩
    | ok x =>
      rw [hnumber] at h
      cases h

/-- A token that is no text stays as it is. -/
theorem tokens_substituteToken_of_not_isText {t : Token} (ht : t.IsCut) (htext : t.isText = false) :
    tokens (Equation.substituteToken schema team t) = [t] := by
  have hword : t.isWord = false := by
    cases t with
    | word w => exact absurd htext (by simp [Token.isText])
    | _ => rfl
  rw [substituteToken_of_not_isWord hword, tokens_text_of_isCut ht hword]

/-- A word that is not bound and stands apart is a run of its own in the substituted formula. -/
theorem text_mem_gather_substitute {vs : List Token} (hcut : ∀ t ∈ vs, t.IsCut)
    (hapart : vs.IsChain Token.Apart) {w : List Char} (hw : .word w ∈ vs)
    (hunbound : schema.binds (String.ofList w) = false) (hstays : StaysWord w)
    (harith : ∀ t ∈ vs.flatMap fun t => tokens (Equation.substituteToken schema team t),
      t.IsArithmetic) :
    .text w ∈ gather (vs.flatMap fun t => tokens (Equation.substituteToken schema team t)) := by
  obtain ⟨as, bs, rfl⟩ := List.append_of_mem hw
  have hself : tokens (Equation.substituteToken schema team (.word w)) = [.word w] := by
    rw [substituteToken_of_not_binds hunbound]
    simpa using hstays [] beginsApart_nil
  rw [List.flatMap_append, List.flatMap_cons, hself, List.singleton_append] at harith ⊢
  obtain ⟨-, hchain, hfront⟩ := List.isChain_append.mp hapart
  refine text_mem_gather harith (fun t ht => ?_) fun t ht => ?_
  · rcases List.eq_nil_or_concat as with rfl | ⟨as', u, rfl⟩
    · simp at ht
    · have htext : u.isText = false := (hfront u (by simp) (.word w) rfl).2 rfl
      have hu := @tokens_substituteToken_of_not_isText schema team u (hcut u (by simp)) htext
      obtain rfl : u = t := by simpa [hu] using ht
      exact htext
  · cases bs with
    | nil => simp at ht
    | cons u bs' =>
      have htext : u.isText = false := (hchain.rel_head? rfl).1 rfl
      have hu := @tokens_substituteToken_of_not_isText schema team u (hcut u (by simp)) htext
      obtain rfl : u = t := by simpa [hu] using ht
      exact htext

/-- An evaluation ends refused where a comment is left open, a run is not read, or runs that are
all read make no expression. -/
theorem endsRefused_iff_unread (hchars : ∀ c ∈ e.formula.toList, isArithmeticChar c = true) :
    (e.evaluate schema team).EndsRefused ↔
      ∀ vs, visible false (tokens (e.substitute schema team).expression.toList) = some vs →
        (∃ cs, .text cs ∈ gather vs ∧ ¬ IsRead cs) ∨
          (∀ cs, .text cs ∈ gather vs → IsRead cs) ∧ (numberOf (rowOf vs)).isOk = false := by
  have hsubstituted := @isArithmeticChar_substitute schema team e hchars
  rw [endsRefused_iff, evaluateNumber_fractional hsubstituted]
  cases hvs : visible false (tokens (e.substitute schema team).expression.toList) with
  | none => simp [Except.isOk, Except.toBool]
  | some vs =>
    have harith : ∀ t ∈ vs, t.IsArithmetic := fun t ht =>
      isArithmetic_of_mem_tokens hsubstituted t (mem_of_mem_visible hvs ht)
    constructor
    · rintro hnumber us hus
      obtain rfl := Option.some.inj hus
      by_cases hread : ∀ cs, .text cs ∈ gather vs → IsRead cs
      · exact .inr ⟨hread, hnumber⟩
      · push Not at hread
        exact .inl hread
    · intro h
      rcases h vs rfl with ⟨cs, hmem, hread⟩ | ⟨-, hnumber⟩
      · exact numberOf_of_not_isRead harith hmem hread
      · exact hnumber

/-- A name that stands apart and is neither bound nor read makes the evaluation end refused. -/
theorem endsRefused_of_name (hchars : ∀ c ∈ e.formula.toList, isArithmeticChar c = true)
    {vs : List Token} (hvs : visible false (tokens e.formula.toList) = some vs)
    (hapart : vs.IsChain Token.Apart)
    (hstays : ∀ w, .word w ∈ tokens e.formula.toList → schema.binds (String.ofList w) = false →
      StaysWord w) {w : List Char} (hw : .word w ∈ vs)
    (hunbound : schema.binds (String.ofList w) = false) (hread : ¬ IsRead w) :
    (e.evaluate schema team).EndsRefused := by
  have hwhole : ∀ w, .word w ∈ tokens e.formula.toList →
      StaysWhole (Equation.substituteToken schema team (.word w)) := by
    intro w hw
    cases hb : schema.binds (String.ofList w) with
    | true => exact staysWhole_operand (substituteToken_isOperand hb team)
    | false =>
      rw [substituteToken_of_not_binds hb]
      exact staysWhole_of_staysWord (hstays w hw hb) (isCut_of_mem_tokens hw)
  have hchain : ∀ us, visible false (tokens e.formula.toList) = some us →
      us.IsChain Token.Apart := by
    intro us hus
    obtain rfl : vs = us := Option.some.inj (hvs.symm.trans hus)
    exact hapart
  have hsubstituted := @isArithmeticChar_substitute schema team e hchars
  have hvisible := @visible_substitute schema team e hwhole hchain
  rw [hvs, Option.map_some] at hvisible
  have harith : ∀ t ∈ vs.flatMap fun t => tokens (Equation.substituteToken schema team t),
      t.IsArithmetic := fun t ht =>
    isArithmetic_of_mem_tokens hsubstituted t (mem_of_mem_visible hvisible ht)
  have hmem : ∀ t ∈ vs, t ∈ tokens e.formula.toList := fun t => mem_of_mem_visible hvs
  refine (endsRefused_iff_unread hchars).mpr fun us hus => .inl ⟨w, ?_, hread⟩
  obtain rfl := Option.some.inj (hvisible.symm.trans hus)
  exact text_mem_gather_substitute (fun t ht => isCut_of_mem_tokens (hmem t ht)) hapart hw hunbound
    (hstays w (hmem _ hw) hunbound) harith

/-- A formula of one name that is not bound ends refused exactly if the name is no constant. -/
theorem endsRefused_name_iff (hchars : ∀ c ∈ e.formula.toList, isArithmeticChar c = true)
    {w : List Char} (htokens : tokens e.formula.toList = [.word w])
    (hunbound : schema.binds (String.ofList w) = false)
    (hname : function? (String.ofList w) = none ∧ String.ofList w ≠ "true" ∧
      String.ofList w ≠ "false") :
    (e.evaluate schema team).EndsRefused ↔ isNumberWord w = false := by
  have hformula : e.formula.toList = w := by
    rw [← tokens_text e.formula.toList, htokens]
    simp [Token.text]
  have htext : (e.substitute schema team).expression.toList = w := by
    rw [substitute_toList, spliced, htokens]
    simp [substituteToken_of_not_binds hunbound]
  rw [hformula] at htokens
  have hrow : evaluateNumber (fractional (e.substitute schema team).expression) =
      numberOf [.ofText w] := by
    rw [evaluateNumber_fractional (isArithmeticChar_substitute hchars), htext, htokens]
    rfl
  obtain ⟨hfunction, htruth⟩ := hname
  rw [endsRefused_iff, hrow, ← isSome_ofText?_word htokens htruth]
  cases hconstant : Value.ofText? w with
  | none =>
    have hlexeme : ∀ l ∈ [Lexeme.identifier (String.ofList w)], l.IsArithmetic := by
      intro l hl
      obtain rfl := List.mem_singleton.mp hl
      exact .identifier _
    obtain ⟨cause, hcause⟩ := numberOf_of_name hlexeme List.mem_cons_self hfunction
    simp [Lexeme.ofText, hconstant, hcause, Except.isOk, Except.toBool]
  | some v =>
    simp [Lexeme.ofText, hconstant, isOk_numberOf_constant hconstant htruth]

end

/-- When the evaluation of an arithmetic formula ends refused, if its names are no functions and no
truth values: exactly if a comment is left open, or some run of text is neither a constant nor a
function to the evaluator, or what it reads makes no expression.  An unbound name is such a run if
it stands apart, and if it stands alone it decides the outcome. -/
theorem Equation.endsRefused_evaluate (e : Equation) (schema : Schema) (team : Team)
    (hchars : ∀ c ∈ e.formula.toList, isArithmeticChar c = true)
    (hnames : ∀ name ∈ e.identifiers,
      function? name = none ∧ name ≠ "true" ∧ name ≠ "false") :
    ((e.evaluate schema team).EndsRefused ↔
      ∀ vs, visible false (tokens (e.substitute schema team).expression.toList) = some vs →
        (∃ cs, .text cs ∈ gather vs ∧ ¬ IsRead cs) ∨
          (∀ cs, .text cs ∈ gather vs → IsRead cs) ∧ (numberOf (rowOf vs)).isOk = false) ∧
    (∀ vs, visible false (tokens e.formula.toList) = some vs → vs.IsChain Token.Apart →
      (∀ w, .word w ∈ tokens e.formula.toList → schema.binds (String.ofList w) = false →
        StaysWord w) →
      ∀ w, .word w ∈ vs → schema.binds (String.ofList w) = false → isNumberWord w = false →
        (e.evaluate schema team).EndsRefused) ∧
    ∀ w, tokens e.formula.toList = [.word w] → schema.binds (String.ofList w) = false →
      ((e.evaluate schema team).EndsRefused ↔ isNumberWord w = false) := by
  have hname : ∀ w, .word w ∈ tokens e.formula.toList → function? (String.ofList w) = none ∧
      String.ofList w ≠ "true" ∧ String.ofList w ≠ "false" := fun w hw =>
    hnames _ (mem_identifiers hw)
  refine ⟨endsRefused_iff_unread hchars, ?_, ?_⟩
  · intro vs hvs hapart hstays w hw hunbound hnumber
    have hmem := mem_of_mem_visible hvs hw
    obtain ⟨hfunction, htruth⟩ := hname w hmem
    have hconstant : Value.ofText? w = none := by
      simpa [hnumber] using isSome_ofText?_word (hstays w hmem hunbound).tokens_eq htruth
    have hread : ¬ IsRead w := by simp [IsRead, hconstant, hfunction]
    exact endsRefused_of_name hchars hvs hapart hstays hw hunbound hread
  · intro w htokens hunbound
    exact endsRefused_name_iff hchars htokens hunbound (hname w (by simp [htokens]))

/-! ## A name that is left over -/

/-- A formula of a name that is not bound and one that is. -/
def leftOver : Equation := ⟨"Total", "points + x"⟩

/-- The name `points` makes the formula end refused. -/
theorem endsRefused_evaluate_leftOver :
    (∀ c ∈ leftOver.formula.toList, isArithmeticChar c = true) ∧
      (∀ name ∈ leftOver.identifiers, function? name = none ∧ name ≠ "true" ∧ name ≠ "false") ∧
      (leftOver.evaluate counter (counted "3")).EndsRefused := by
  have hchars : ∀ c ∈ leftOver.formula.toList, isArithmeticChar c = true :=
    forall_mem_of_all (by decide +kernel)
  have hnames : ∀ name ∈ leftOver.identifiers,
      function? name = none ∧ name ≠ "true" ∧ name ≠ "false" := by
    decide +kernel
  have htokens : tokens leftOver.formula.toList =
      [.word "points".toList, .other ' ', .other '+', .other ' ', .word "x".toList] := by
    decide +kernel
  have hvisible : visible false (tokens leftOver.formula.toList) =
      some [.word "points".toList, .other ' ', .other '+', .other ' ', .word "x".toList] := by
    rw [htokens]
    rfl
  have hstays : ∀ w, .word w ∈ tokens leftOver.formula.toList →
      counter.binds (String.ofList w) = false → StaysWord w := by
    intro w hw hunbound
    have hcases : w = "points".toList ∨ w = "x".toList := by simpa [htokens] using hw
    rcases hcases with rfl | rfl
    · exact staysWord_of_letter (by decide) (forall_mem_of_all (by decide))
    · exact absurd hunbound (by decide +kernel)
  refine ⟨hchars, hnames, ?_⟩
  exact (leftOver.endsRefused_evaluate counter (counted "3") hchars hnames).2.1 _ hvisible
    (by decide) hstays "points".toList (by decide) (by decide +kernel) (by decide +kernel)

/-- The evaluator reads hexadecimal numbers, so a name that looks like one does not make a formula
fail: `0x10 + 1` scores `17`. -/
theorem not_endsRefused_evaluate :
    ¬ ∀ (e : Equation) (schema : Schema) (team : Team),
      (∀ c ∈ e.formula.toList, isArithmeticChar c = true) →
      (∃ name ∈ e.identifiers, schema.binds name = false) →
      (∀ name ∈ e.identifiers, function? name = none ∧ name ≠ "true" ∧ name ≠ "false") →
        (e.evaluate schema team).EndsRefused := by
  intro h
  let sum : Equation := ⟨"Total", "0x10 + 1"⟩
  have hends : (sum.evaluate (.ofFields []) ⟨"1", []⟩).EndsRefused :=
    h sum (.ofFields []) ⟨"1", []⟩ (forall_mem_of_all (by decide +kernel)) (by decide +kernel)
      (by decide +kernel)
  have hrefused : (sum.evaluate (.ofFields []) ⟨"1", []⟩).isRefused = true :=
    isRefused_of_endsRefused hends
  exact absurd hrefused (by decide +kernel)

end Scorecard
