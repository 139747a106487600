import Scorecard.Proofs.Form.Operand
import Scorecard.Proofs.Formula.Arithmetic

/-!
# Substitution keeps the structure of a formula

Substitution works on text: a bound word is replaced by the text of its operand.  For a formula that
is an arithmetic expression, the text that comes out is still one, and it is the same tree with a
value at each leaf where a name was (`Equation.substitute_isText_iff`).

An operand is a literal, or a negated literal in parentheses (`Expression.ofOperand`), and it
ends where the word ended.  So the theorem is an induction on how the formula is written
(`Written.spliced`), in which the text behind a part is the substituted text behind it.
-/

namespace Scorecard

open Formula
open Number (Numeral)

/-- The expression of an operand: a literal, or a negated literal in parentheses. -/
def Formula.Expression.ofOperand : List Char → Expression
  | '(' :: '-' :: cs => .group (.negate (.literal (Numeral.scan cs).1))
  | cs => .literal (Numeral.scan cs).1

/-- The expression that a word stands for: the value of its answer, if the word is bound. -/
def Schema.leaf (schema : Schema) (team : Team) (word : List Char) : Expression :=
  (schema.wordBinding? (String.ofList word)).elim (.name word) fun b =>
    .ofOperand (b.resolve team).1.toList

/-! ## Operands as expressions -/

theorem ofOperand_text {n : Numeral} (hn : n.IsPlain) :
    Expression.ofOperand n.text = .literal n := by
  have hscan : Numeral.scan n.text = (n, []) := by
    simpa using Numeral.scan_text_append hn.toHasParts (Numeral.stopsBefore_nil n)
  obtain ⟨c, cs, htext, hhead⟩ := head_of_isLiteral hn.toIsLiteral
  unfold Expression.ofOperand
  split
  · next heq =>
    obtain rfl : c = '(' := by rw [htext] at heq; injection heq
    rcases hhead with h | ⟨h, _⟩ <;> exact absurd h (by decide)
  · rw [hscan]

theorem ofOperand_negative {n : Numeral} (hn : n.IsPlain) :
    Expression.ofOperand ('(' :: '-' :: (n.text ++ [')'])) = .group (.negate (.literal n)) := by
  have hstops : n.StopsBefore [')'] := by
    intro c hc
    obtain rfl : ')' = c := by simpa using hc
    exact ⟨by decide, fun he => absurd he (by decide), fun hp => absurd hp (by decide)⟩
  rw [Expression.ofOperand, Numeral.scan_text_append hn.toHasParts hstops]

/-- An operand is a literal or a negated literal in parentheses. -/
theorem ofOperand_shape (cs : List Char) : ∃ n : Numeral,
    Expression.ofOperand cs = .literal n ∨
      Expression.ofOperand cs = .group (.negate (.literal n)) := by
  unfold Expression.ofOperand
  split
  · exact ⟨_, .inr rfl⟩
  · exact ⟨_, .inl rfl⟩

/-- An operand is a way of writing its expression, in front of any text. -/
theorem written_ofOperand {cs : List Char} (h : IsOperand cs) (after : List Char) :
    Written .operand (.ofOperand cs) cs after := by
  cases h with
  | numeral hn =>
    rw [ofOperand_text hn]
    exact .literal hn.toIsLiteral
  | @negative n hn =>
    have hnone : IsSpaces [] := by simp [IsSpaces]
    have hminus :
        Written .sum (.negate (.literal n)) ('-' :: ([] ++ n.text)) ([] ++ ')' :: after) :=
      .ofProduct (.ofOperand (.negate hnone (.literal hn.toIsLiteral)))
    rw [ofOperand_negative hn]
    exact .group hnone hnone hminus

theorem isText_of_written {x : Expression} {cs : List Char} (h : Written .operand x cs []) :
    x.IsText cs :=
  ⟨[], cs, [], by simp [IsSpaces], by simp [IsSpaces], .ofProduct (.ofOperand h), by simp⟩

/-! ## The text that comes out -/

section

variable (schema : Schema) (team : Team)

/-- The text with every bound word replaced. -/
def spliced (cs : List Char) : List Char :=
  (tokens cs).flatMap (Equation.substituteToken schema team)

theorem substitute_toList (e : Equation) :
    (e.substitute schema team).expression.toList = spliced schema team e.formula.toList := by
  simp [Equation.substitute, rewriteTokens, spliced]

variable {schema team}

theorem spliced_separator {c : Char} (h : separates c = true) (cs : List Char) :
    spliced schema team (c :: cs) = c :: spliced schema team cs := by
  rw [spliced, tokens_separator h]
  rfl

theorem spliced_spaces {s : List Char} (hs : IsSpaces s) (cs : List Char) :
    spliced schema team (s ++ cs) = s ++ spliced schema team cs := by
  induction s with
  | nil => rfl
  | cons c s ih =>
    rw [List.cons_append, spliced_separator (hs.separates c (by simp)),
      ih fun d hd => hs d (by simp [hd])]
    rfl

theorem spliced_number {n : Numeral} (hn : n.IsLiteral) {after : List Char}
    (h : BeginsApart after) :
    spliced schema team (n.text ++ after) = n.text ++ spliced schema team after := by
  rw [spliced, tokens_number_append hn (endsLiteral_of_beginsApart n h)]
  rfl

/-- A bound word that is cut out as a word is replaced. -/
theorem spliced_word {c : Char} {cs after : List Char} {b : Binding}
    (h : next c (cs ++ after) = (.word (c :: cs), after))
    (hb : schema.wordBinding? (String.ofList (c :: cs)) = some b) :
    spliced schema team (c :: cs ++ after) =
      (b.resolve team).1.toList ++ spliced schema team after := by
  rw [spliced, List.cons_append, tokens_cons, h, List.flatMap_cons]
  simp only [Equation.substituteToken, hb]
  rfl

/-- Substitution replaces a part of the formula by a text of the same part, filled in. -/
theorem Formula.Written.spliced {level : Level} {x : Expression} {cs after : List Char}
    (h : Written level x cs after) (hafter : BeginsApart after)
    (hnames : ∀ w ∈ x.names, schema.binds (String.ofList w) = true) :
    ∃ ds, spliced schema team (cs ++ after) = ds ++ spliced schema team after ∧
      Written level (x.fill (schema.leaf team)) ds (spliced schema team after) := by
  induction h with
  | literal hn => exact ⟨_, spliced_number hn hafter, .literal hn⟩
  | @name c cs after hcut =>
    obtain ⟨b, hb⟩ := Option.isSome_iff_exists.mp (hnames (c :: cs) (by simp [Expression.names]))
    refine ⟨_, spliced_word hcut hb, ?_⟩
    simp only [Expression.fill, Schema.leaf, hb, Option.elim_some]
    exact written_ofOperand (b.resolve_isOperand team) _
  | @negate x s cs after hs _ ih =>
    obtain ⟨ds, htext, hx⟩ := ih hafter hnames
    refine ⟨'-' :: (s ++ ds), ?_, .negate hs hx⟩
    rw [List.cons_append, spliced_separator (by decide), List.append_assoc, spliced_spaces hs,
      htext]
    simp
  | @group x s t cs after hs ht _ ih =>
    obtain ⟨ds, htext, hx⟩ := ih (ht.beginsApart ((beginsApart_cons _ _).mpr (by decide))) hnames
    rw [spliced_spaces ht, spliced_separator (by decide)] at htext hx
    refine ⟨'(' :: (s ++ (ds ++ (t ++ [')']))), ?_, .group hs ht hx⟩
    have hassoc : '(' :: (s ++ (cs ++ (t ++ [')']))) ++ after =
        '(' :: (s ++ (cs ++ (t ++ ')' :: after))) := by simp
    rw [hassoc, spliced_separator (by decide), spliced_spaces hs, htext]
    simp
  | ofOperand _ ih =>
    obtain ⟨ds, htext, hx⟩ := ih hafter hnames
    exact ⟨ds, htext, .ofOperand hx⟩
  | @product x y mark operation s t cs ds after hs ht hmark _ _ ihx ihy =>
    have hsep := (separates_productMark hmark).1
    obtain ⟨cs', hcs, hx⟩ := ihx (hs.beginsApart ((beginsApart_cons _ _).mpr hsep))
      fun w hw => hnames w (by simp [Expression.names, hw])
    obtain ⟨ds', hds, hy⟩ := ihy hafter fun w hw => hnames w (by simp [Expression.names, hw])
    rw [spliced_spaces hs, spliced_separator hsep, spliced_spaces ht, hds] at hcs hx
    refine ⟨cs' ++ (s ++ mark :: (t ++ ds')), ?_, .product hs ht hmark hx hy⟩
    have hassoc : cs ++ (s ++ mark :: (t ++ ds)) ++ after =
        cs ++ (s ++ mark :: (t ++ (ds ++ after))) := by simp
    rw [hassoc, hcs]
    simp
  | ofProduct _ ih =>
    obtain ⟨ds, htext, hx⟩ := ih hafter hnames
    exact ⟨ds, htext, .ofProduct hx⟩
  | @sum x y mark operation s t cs ds after hs ht hmark _ _ ihx ihy =>
    have hsep := (separates_sumMark hmark).1
    obtain ⟨cs', hcs, hx⟩ := ihx (hs.beginsApart ((beginsApart_cons _ _).mpr hsep))
      fun w hw => hnames w (by simp [Expression.names, hw])
    obtain ⟨ds', hds, hy⟩ := ihy hafter fun w hw => hnames w (by simp [Expression.names, hw])
    rw [spliced_spaces hs, spliced_separator hsep, spliced_spaces ht, hds] at hcs hx
    refine ⟨cs' ++ (s ++ mark :: (t ++ ds')), ?_, .sum hs ht hmark hx hy⟩
    have hassoc : cs ++ (s ++ mark :: (t ++ ds)) ++ after =
        cs ++ (s ++ mark :: (t ++ (ds ++ after))) := by simp
    rw [hassoc, hcs]
    simp

end

/-- The leaf of a bound word is the expression of the word's operand. -/
theorem leaf_isText {schema : Schema} {word : List Char} {b : Binding}
    (hb : schema.wordBinding? (String.ofList word) = some b) (team : Team) :
    (schema.leaf team word).IsText (b.resolve team).1.toList := by
  simp only [Schema.leaf, hb, Option.elim_some]
  exact isText_of_written (written_ofOperand (b.resolve_isOperand team) [])

/-- A formula that is an arithmetic expression becomes a text of the same tree with a value in place
of each name, and of no other tree.  The value is the literal, or the negated literal in
parentheses, that the name's binding resolves to. -/
theorem Equation.substitute_isText_iff (e : Equation) (schema : Schema) (x : Expression)
    (hx : x.IsText e.formula.toList)
    (hnames : ∀ w ∈ x.names, schema.binds (String.ofList w) = true) (team : Team) :
    (∀ y : Expression, y.IsText (e.substitute schema team).expression.toList ↔
        y = x.fill (schema.leaf team)) ∧
      ∀ w ∈ x.names, ∃ b, schema.wordBinding? (String.ofList w) = some b ∧
        (schema.leaf team w).IsText (b.resolve team).1.toList ∧
        ∃ n : Numeral, schema.leaf team w = .literal n ∨
          schema.leaf team w = .group (.negate (.literal n)) := by
  constructor
  · intro y
    have hfill : (x.fill (schema.leaf team)).IsText
        (e.substitute schema team).expression.toList := by
      obtain ⟨s, cs, t, hs, ht, hwritten, htext⟩ := hx
      obtain ⟨ds, hds, hfilled⟩ :=
        hwritten.spliced (by simpa using ht.beginsApart beginsApart_nil) hnames
      have hend : spliced schema team t = t := by simpa [spliced] using spliced_spaces ht []
      rw [hend] at hds hfilled
      refine ⟨s, ds, t, hs, ht, hfilled, ?_⟩
      rw [substitute_toList, htext, spliced_spaces hs, hds]
    constructor
    · exact fun hy => Expression.unique_of_isText hy hfill
    · rintro rfl
      exact hfill
  · intro w hw
    obtain ⟨b, hb⟩ := Option.isSome_iff_exists.mp (hnames w hw)
    obtain ⟨n, hn⟩ := ofOperand_shape (b.resolve team).1.toList
    exact ⟨b, hb, leaf_isText hb team, n, by simpa [Schema.leaf, hb] using hn⟩

/-! ## A word like the front of a literal -/

/-- A form with two counters, the first of them named like the front of a literal. -/
def counters : Schema := .ofFields [.stepper ⟨[], [], ["2e", "x"]⟩]

/-- The first counter less the second. -/
def difference : Expression := .binary .sub (.name ['2', 'e']) (.name ['x'])

theorem difference_isText : difference.IsText "2e-x".toList := by
  have hnone : IsSpaces [] := by simp [IsSpaces]
  have hleft :
      Written .product (.name ['2', 'e']) ['2', 'e'] ([] ++ '-' :: ([] ++ (['x'] ++ []))) :=
    .ofOperand (.name (by decide))
  have hright : Written .product (.name ['x']) ['x'] [] := .ofOperand (.name (by decide))
  have hwritten : Written .sum difference (['2', 'e'] ++ ([] ++ '-' :: ([] ++ ['x']))) [] :=
    .sum hnone hnone (by decide) (.ofProduct hleft) hright
  exact ⟨[], _, [], hnone, hnone, hwritten, by decide⟩

/-- With `4` and `-3` counted, `2e-x` becomes `4-(-3)`, the difference of these values. -/
theorem substitute_isText_iff_difference :
    difference.IsText "2e-x".toList ∧
      (∀ w ∈ difference.names, counters.binds (String.ofList w) = true) ∧
      ∀ y : Expression, y.IsText "4-(-3)".toList ↔
        y = .binary .sub (.literal ⟨['4'], none, none⟩)
          (.group (.negate (.literal ⟨['3'], none, none⟩))) := by
  have hbinds : ∀ w ∈ difference.names, counters.binds (String.ofList w) = true := by
    decide +kernel
  let team : Team := ⟨"1", [("2e", "4"), ("x", "-3")]⟩
  have htext : ((Equation.mk "T" "2e-x").substitute counters team).expression = "4-(-3)" := by
    decide +kernel
  have hfill : difference.fill (counters.leaf team) = .binary .sub (.literal ⟨['4'], none, none⟩)
      (.group (.negate (.literal ⟨['3'], none, none⟩))) := by
    decide +kernel
  have h := ((Equation.mk "T" "2e-x").substitute_isText_iff counters difference difference_isText
    hbinds team).1
  rw [htext, hfill] at h
  exact ⟨difference_isText, hbinds, h⟩

end Scorecard
