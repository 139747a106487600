import Scorecard.Proofs.Form.Grammar

/-!
# Printed equations are read back

`Equation.text` prints an equation as the line `name = formula`.  A form made of printed equations
has these equations, in their order, and neither a field nor a rejected line, exactly if each of
them can be written on a line (`Equation.IsWritable`).  The equations of a form can.

* `EquationParts` says what may stand before and behind the first equals sign of a line that is
  taken for an equation (`LineKind.ofLine_eq_equation_iff`).  Blanks at the ends of both do not
  matter (`equationParts_iff_of_padded`), so neither trimming nor the blanks around the printed
  equals sign change it.
* `SpellsLabel` is what is not obvious there: a line such as `STEP<a = b>PER` is taken for a field,
  since its equals sign stands in the group of its label.
* `Entry.ofLine?_eq_equation_iff_parts` is what a line yields an equation for, and
  `Form.parse_printed` puts the lines together.
-/

namespace Scorecard

namespace Text

variable {cs ds : List Char}

/-- A text without a `;;` is its only segment. -/
theorem unmarked_iff_length_segments : Unmarked cs ↔ (segments cs).length = 1 := by
  constructor
  · intro h
    rw [segments_of_unmarked h, List.length_singleton]
  · intro h
    have hsegmented := segmented_segments cs
    generalize segments cs = parts at h hsegmented
    cases hsegmented with
    | last hcs => exact hcs
    | cut _ hrest => cases hrest <;> simp at h

/-- Blanks at the ends of a text make no `;;`. -/
theorem Padded.unmarked_iff (h : Padded cs ds) : Unmarked ds ↔ Unmarked cs := by
  rw [unmarked_iff_length_segments, unmarked_iff_length_segments, h.segments.length_eq]

/-- Of two different characters in a text one stands in front of the other. -/
theorem append_cons_eq_append_cons_iff {c d : Char} (hcd : c ≠ d) {cs' ds' : List Char} :
    cs ++ c :: ds = cs' ++ d :: ds' ↔
      (∃ between, cs' = cs ++ c :: between ∧ ds = between ++ d :: ds') ∨
        ∃ between, cs = cs' ++ d :: between ∧ ds' = between ++ c :: ds := by
  constructor
  · intro h
    rcases List.append_eq_append_iff.mp h with ⟨more, rfl, hrest⟩ | ⟨more, rfl, hrest⟩
    · cases more with
      | nil => exact absurd (List.cons.inj hrest).1 hcd
      | cons e more =>
        obtain ⟨rfl, rfl⟩ := List.cons.inj hrest
        exact .inl ⟨more, rfl, rfl⟩
    · cases more with
      | nil => exact absurd (List.cons.inj hrest).1.symm hcd
      | cons e more =>
        obtain ⟨rfl, rfl⟩ := List.cons.inj hrest
        exact .inr ⟨more, rfl, rfl⟩
  · rintro (⟨between, rfl, rfl⟩ | ⟨between, rfl, rfl⟩) <;> simp

/-- Both sides of a character other than a semicolon are without a `;;` if the whole is. -/
theorem unmarked_append_cons_iff {c : Char} (hc : c ≠ ';') :
    Unmarked (cs ++ c :: ds) ↔ Unmarked cs ∧ Unmarked ds := by
  constructor
  · intro h
    refine ⟨fun hcs => h (hcs.trans ?_), fun hds => h (hds.trans ?_)⟩
    · exact (List.prefix_append cs (c :: ds)).isInfix
    · exact ((List.suffix_cons c ds).trans (List.suffix_append cs (c :: ds))).isInfix
  · rintro ⟨hcs, hds⟩
    exact unmarked_append_cons hc hcs hds

end Text

open Text

/-! ## Lines that are taken for equations -/

/-- The text before an equals sign ends in a group that the text behind it closes, and what is left
around the group is the label of a field. -/
def SpellsLabel (name formula : List Char) : Prop :=
  ∃ before inside rest after, cut ['<'] name = some (before, inside) ∧ '>' ∉ inside ∧
    cut ['>'] formula = some (rest, after) ∧ ∃ type : FieldType, type.Names (before ++ after)

/-- The texts before and behind the first equals sign of a line that is taken for an equation. -/
structure EquationParts (name formula : List Char) : Prop where
  no_comment : (trimmed name).head? ≠ some '#'
  unmarked_name : Unmarked name
  unmarked_formula : Unmarked formula
  no_label : ¬ SpellsLabel name formula

section

variable {name formula name' formula' : List Char}

theorem spellsLabel_iff_of_padded (hname : Padded name name') (hformula : Padded formula formula') :
    SpellsLabel name' formula' ↔ SpellsLabel name formula := by
  have hopen : isBlank '<' = false := by decide
  have hclose : isBlank '>' = false := by decide
  obtain ⟨front, back, hfront, hback, hopening⟩ := hname.cut hopen
  obtain ⟨front', back', hfront', hback', hclosing⟩ := hformula.cut hclose
  have hnot : '>' ∉ back := fun hmem => absurd (hback _ hmem) (by decide)
  have hnames : ∀ (type : FieldType) (before after : List Char),
      type.Names (front ++ before ++ (after ++ back')) ↔ type.Names (before ++ after) := by
    intro type before after
    have hpadded : Padded (before ++ after) (front ++ before ++ (after ++ back')) :=
      ⟨front, back', hfront, hback', by simp⟩
    rw [FieldType.Names, hpadded.trimmed_eq, FieldType.Names]
  unfold SpellsLabel
  rw [hopening, hclosing]
  constructor
  · rintro ⟨before, inside, rest, after, hopen, hinside, hclose, type, htype⟩
    obtain ⟨⟨b, i⟩, hb, heq⟩ := Option.map_eq_some_iff.mp hopen
    obtain ⟨⟨r, a⟩, hr, heq'⟩ := Option.map_eq_some_iff.mp hclose
    obtain ⟨rfl, rfl⟩ := Prod.mk.inj heq
    obtain ⟨rfl, rfl⟩ := Prod.mk.inj heq'
    refine ⟨b, i, r, a, hb, fun hmem => hinside ?_, hr, type, (hnames type b a).mp htype⟩
    exact List.mem_append_left back hmem
  · rintro ⟨before, inside, rest, after, hopen, hinside, hclose, type, htype⟩
    refine ⟨front ++ before, inside ++ back, front' ++ rest, after ++ back', ?_, ?_, ?_, type,
      (hnames type before after).mpr htype⟩
    · rw [hopen, Option.map_some]
    · simp [hinside, hnot]
    · rw [hclose, Option.map_some]

theorem equationParts_iff_of_padded (hname : Padded name name')
    (hformula : Padded formula formula') :
    EquationParts name' formula' ↔ EquationParts name formula := by
  have hlabel := spellsLabel_iff_of_padded hname hformula
  constructor
  · rintro ⟨hcomment, hunmarked, hunmarked', hno⟩
    rw [hname.trimmed_eq] at hcomment
    exact ⟨hcomment, hname.unmarked_iff.mp hunmarked, hformula.unmarked_iff.mp hunmarked',
      mt hlabel.mpr hno⟩
  · rintro ⟨hcomment, hunmarked, hunmarked', hno⟩
    rw [← hname.trimmed_eq] at hcomment
    exact ⟨hcomment, hname.unmarked_iff.mpr hunmarked, hformula.unmarked_iff.mpr hunmarked',
      mt hlabel.mp hno⟩

/-- What is left of a line with an equals sign around its first group is the label of a field only
if the equals sign stands in the group. -/
theorem spellsLabel_of_labelled {label inside : List Char} {type : FieldType}
    (h : Labelled (name ++ '=' :: formula) label inside) (hnames : type.Names label) :
    SpellsLabel name formula := by
  have hequals : '=' ∉ label := hnames.no_equals
  generalize hline : name ++ '=' :: formula = line at h
  cases h with
  | plain => simp [← hline] at hequals
  | @group before inside after hbefore hinside =>
    rcases (append_cons_eq_append_cons_iff (by decide)).mp hline with
      ⟨more, rfl, -⟩ | ⟨start, rfl, hgroup⟩
    · simp at hequals
    rcases (append_cons_eq_append_cons_iff (by decide)).mp hgroup with
      ⟨more, -, rfl⟩ | ⟨rest, rfl, rfl⟩
    · simp at hequals
    · have hstart : '>' ∉ start := fun hmem => hinside (List.mem_append_left _ hmem)
      have hrest : '>' ∉ rest := fun hmem => hinside (by simp [hmem])
      exact ⟨before, start, rest, after, cut_append_cons hbefore start, hstart,
        cut_append_cons hrest after, type, hnames⟩

theorem ofLabel?_splitArguments_eq_none_iff :
    FieldType.ofLabel? (splitArguments (name ++ '=' :: formula)).1 = none ↔
      ¬ SpellsLabel name formula := by
  constructor
  · rintro hnone ⟨before, start, rest, after, hopen, hstart, hclose, hlabel⟩
    obtain ⟨hbefore, rfl⟩ := cut_eq_some_iff.mp hopen
    obtain ⟨hrest, rfl⟩ := cut_eq_some_iff.mp hclose
    have hinside : '>' ∉ start ++ '=' :: rest := by simp [hstart, hrest]
    have hlabelled : Labelled (before ++ '<' :: (start ++ '=' :: rest ++ '>' :: after))
        (before ++ after) (start ++ '=' :: rest) := .group hbefore hinside
    have hline : before ++ '<' :: start ++ '=' :: (rest ++ '>' :: after) =
        before ++ '<' :: (start ++ '=' :: rest ++ '>' :: after) := by simp
    rw [hline, splitArguments_of_labelled hlabelled] at hnone
    exact (FieldType.ofLabel?_eq_none_iff _).mp hnone hlabel
  · intro hno
    obtain ⟨label, inside, hlabelled⟩ := exists_labelled (name ++ '=' :: formula)
    rw [splitArguments_of_labelled hlabelled, FieldType.ofLabel?_eq_none_iff]
    rintro ⟨type, hnames⟩
    exact hno (spellsLabel_of_labelled hlabelled hnames)

theorem LineKind.ofLine_eq_equation_iff :
    LineKind.ofLine (name ++ '=' :: formula) = .equation ↔ EquationParts name formula := by
  have hhead : (trimmed (name ++ '=' :: formula)).head? =
      some ((trimmed name).head?.getD '=') :=
    head?_trimmed_append_cons (by decide) name formula
  have hcomment : (trimmed (name ++ '=' :: formula)).head? = some '#' ↔
      (trimmed name).head? = some '#' := by
    rw [hhead]
    cases (trimmed name).head? <;> simp
  have hne : trimmed (name ++ '=' :: formula) ≠ [] := by
    intro hempty
    simp [hempty] at hhead
  have hmark : cut [';', ';'] (trimmed (name ++ '=' :: formula)) = none ↔
      Unmarked name ∧ Unmarked formula := by
    rw [cut_mark_eq_none_iff, ← (padded_trimmed _).unmarked_iff,
      unmarked_append_cons_iff (by decide)]
  have hlabel : FieldType.ofLabel? (splitArguments (trimmed (name ++ '=' :: formula))).1 = none ↔
      ¬ SpellsLabel name formula := by
    rw [← splitArguments_eq_of_padded (padded_trimmed _), ofLabel?_splitArguments_eq_none_iff]
  rw [← Option.not_isSome_iff_eq_none] at hmark hlabel
  unfold LineKind.ofLine
  simp only [hne, hcomment, false_or]
  constructor
  · intro h
    split at h
    · cases h
    split at h
    · cases h
    split at h
    · cases h
    next hnot hcut hnone =>
    obtain ⟨hname, hformula⟩ := hmark.mp hcut
    exact ⟨hnot, hname, hformula, hlabel.mp hnone⟩
  · rintro ⟨hnot, hname, hformula, hno⟩
    rw [if_neg hnot, if_neg (hmark.mpr ⟨hname, hformula⟩), if_neg (hlabel.mpr hno)]

end

/-- A line yields the equation that it has the parts of. -/
theorem Entry.ofLine?_eq_equation_iff_parts {line : List Char} {e : Equation} :
    ofLine? line = some (equation e) ↔ ∃ name formula, line = name ++ '=' :: formula ∧
      '=' ∉ name ∧ EquationParts name formula ∧
        trimmed name = e.name.toList ∧ trimmed formula = e.formula.toList := by
  rw [ofLine?_eq_equation_iff]
  constructor
  · rintro ⟨hkind, hparse⟩
    unfold Equation.parse at hparse
    split at hparse
    · cases hparse
    next name formula hcut =>
    obtain rfl := Except.ok.inj hparse
    obtain ⟨hname, rfl⟩ := cut_eq_some_iff.mp hcut
    exact ⟨name, formula, rfl, hname, LineKind.ofLine_eq_equation_iff.mp hkind, by simp, by simp⟩
  · rintro ⟨name, formula, rfl, hname, hparts, hn, hf⟩
    refine ⟨LineKind.ofLine_eq_equation_iff.mpr hparts, ?_⟩
    unfold Equation.parse
    rw [cut_append_cons hname]
    simp [hn, hf]

/-! ## Printed equations -/

namespace Equation

/-- The equation can be written on a line: its name and its formula are trimmed and on one line, the
name has no equals sign, and they are the parts of an equation. -/
structure IsWritable (e : Equation) : Prop where
  name_trimmed : trimmed e.name.toList = e.name.toList
  formula_trimmed : trimmed e.formula.toList = e.formula.toList
  name_line : '\n' ∉ e.name.toList
  formula_line : '\n' ∉ e.formula.toList
  no_equals : '=' ∉ e.name.toList
  parts : EquationParts e.name.toList e.formula.toList

variable {e : Equation}

theorem toList_text (e : Equation) :
    e.text.toList = (e.name.toList ++ [' ']) ++ '=' :: ([' '] ++ e.formula.toList) := by
  simp [text]

/-- An equation that was read from a line can be written on one. -/
theorem isWritable_of_ofLine? {line : List Char} (hline : '\n' ∉ line)
    (h : Entry.ofLine? line = some (.equation e)) : e.IsWritable := by
  obtain ⟨name, formula, rfl, hname, hparts, hn, hf⟩ := Entry.ofLine?_eq_equation_iff_parts.mp h
  refine ⟨?_, ?_, fun hmem => hline ?_, fun hmem => hline ?_, fun hmem => hname ?_, ?_⟩
  · rw [← hn, trimmed_trimmed]
  · rw [← hf, trimmed_trimmed]
  · rw [← hn] at hmem
    exact List.mem_append_left _ (mem_of_mem_trimmed hmem)
  · rw [← hf] at hmem
    exact List.mem_append_right _ (List.mem_cons_of_mem _ (mem_of_mem_trimmed hmem))
  · rw [← hn] at hmem
    exact mem_of_mem_trimmed hmem
  · rw [← hn, ← hf]
    exact (equationParts_iff_of_padded (padded_trimmed name) (padded_trimmed formula)).mp hparts

/-- An equation that can be written is read back from its line. -/
theorem IsWritable.ofLine?_text (h : e.IsWritable) :
    Entry.ofLine? e.text.toList = some (.equation e) := by
  have hname : Padded e.name.toList (e.name.toList ++ [' ']) :=
    ⟨[], [' '], by simp, isBlank_of_mem_space, by simp⟩
  have hformula : Padded e.formula.toList ([' '] ++ e.formula.toList) :=
    ⟨[' '], [], isBlank_of_mem_space, by simp, by simp⟩
  refine Entry.ofLine?_eq_equation_iff_parts.mpr ⟨_, _, e.toList_text, ?_, ?_, ?_, ?_⟩
  · simp [h.no_equals]
  · exact (equationParts_iff_of_padded hname hformula).mpr h.parts
  · rw [hname.trimmed_eq, h.name_trimmed]
  · rw [hformula.trimmed_eq, h.formula_trimmed]

theorem IsWritable.not_mem_text (h : e.IsWritable) : '\n' ∉ e.text.toList := by
  simp [toList_text, h.name_line, h.formula_line]

/-- The equations as the lines of a form. -/
def printed (es : List Equation) : String := join "\n" (es.map text)

end Equation

namespace Entry

/-- The entries of printed equations are these equations. -/
theorem numbered_printed {es : List Equation} (h : ∀ e ∈ es, e.IsWritable) (first : Nat) :
    numbered first (es.map fun e => e.text.toList) =
      (es.zipIdx first).map fun (e, number) => (number, equation e) := by
  induction es generalizing first with
  | nil => rfl
  | cons e es ih =>
    have hline := (h e (by simp)).ofLine?_text
    rw [List.map_cons, numbered_cons, hline, ih (fun f hf => h f (by simp [hf])), List.zipIdx_cons]
    rfl

theorem numbered_map_dropReturn (first : Nat) (ls : List (List Char)) :
    numbered first (ls.map dropReturn) = numbered first ls := by
  induction ls generalizing first with
  | nil => rfl
  | cons line ls ih => rw [List.map_cons, numbered_cons, numbered_cons, ofLine?_dropReturn, ih]

theorem ofText_printed {es : List Equation} (h : ∀ e ∈ es, e.IsWritable) :
    ofText (Equation.printed es) = (es.zipIdx 1).map fun (e, number) => (number, equation e) := by
  by_cases hes : es = []
  · subst hes
    rfl
  have hsplit : splitAt '\n' (Equation.printed es).toList = es.map fun e => e.text.toList := by
    have hline : ∀ s ∈ es.map Equation.text, '\n' ∉ s.toList := by
      intro s hs
      obtain ⟨e, he, rfl⟩ := List.mem_map.mp hs
      exact (h e he).not_mem_text
    rw [Equation.printed, splitAt_join rfl (by simpa using hes) hline, List.map_map]
    rfl
  rw [ofText_eq_numbered, lines, hsplit, numbered_linesOf, numbered_map_dropReturn,
    numbered_printed h]

end Entry

namespace Form

theorem ofEntries_equations (es : List (Equation × Nat)) :
    ofEntries (es.map fun (e, number) => (number, .equation e)) =
      ⟨.ofFields [], es.map Prod.fst, []⟩ := by
  simp [ofEntries, List.filterMap_map, Entry.field?, Entry.equation?, Entry.problem?]

/-- A line feed at the end of a text changes nothing. -/
theorem parse_append_lineFeed (text : String) : parse (text ++ "\n") = parse text := by
  have happend := Entry.ofText_append text ""
  have hempty : Entry.ofText "" = [] := rfl
  rw [String.append_empty, hempty, List.map_nil, List.append_nil] at happend
  rw [parse, happend, parse]

/-- The equations of a form can be written. -/
theorem isWritable_of_mem_equations {text : String} {e : Equation}
    (h : e ∈ (parse text).equations) : e.IsWritable := by
  obtain ⟨line, hline, hentry⟩ := mem_equations_parse_iff.mp h
  exact Equation.isWritable_of_ofLine? (not_mem_of_mem_lines hline) hentry

/-- A form of printed equations has these equations and nothing else. -/
theorem parse_printed_iff {es : List Equation} :
    parse (Equation.printed es) = ⟨.ofFields [], es, []⟩ ↔ ∀ e ∈ es, e.IsWritable := by
  constructor
  · intro h e he
    have hmem : e ∈ (parse (Equation.printed es)).equations := by
      rw [h]
      exact he
    exact isWritable_of_mem_equations hmem
  · intro h
    rw [parse, Entry.ofText_printed h, ofEntries_equations, List.zipIdx_map_fst]

/-- Printed equations are read back.  The equations of a form, printed one a line, with or without a
line feed behind the last one, are a form with the same equations in the same order, without a field
and without a rejected line.  The lists of equations with this property are those whose equations
can all be written on a line. -/
theorem parse_printed :
    (∀ text : String, ∀ ending ∈ ["", "\n"],
      parse (Equation.printed (parse text).equations ++ ending) =
        ⟨.ofFields [], (parse text).equations, []⟩) ∧
    ∀ es : List Equation, parse (Equation.printed es) = ⟨.ofFields [], es, []⟩ ↔
      ∀ e ∈ es, e.IsWritable := by
  refine ⟨fun text ending hending => ?_, fun es => parse_printed_iff⟩
  have hread : parse (Equation.printed (parse text).equations) =
      ⟨.ofFields [], (parse text).equations, []⟩ :=
    parse_printed_iff.mpr fun e he => isWritable_of_mem_equations he
  rcases List.mem_pair.mp hending with rfl | rfl
  · rw [String.append_empty, hread]
  · rw [parse_append_lineFeed, hread]

/-- A form with marks of fields and comments in its equations, and an equation that is only the
equals sign. -/
def markedText : String := "STEPPER ;; Gears ;; gears\n a;<b= ;c = #d> \r\n# note\nSPA = 1;;\n="

/-- The equations of the form are read back from their lines.  An equation whose line would be taken
for a field cannot be written. -/
theorem parse_printed_markedText :
    (parse markedText).equations = [⟨"a;<b", ";c = #d>"⟩, ⟨"", ""⟩] ∧ "\n" ∈ ["", "\n"] ∧
      parse "a;<b = ;c = #d>\n = \n" = ⟨.ofFields [], [⟨"a;<b", ";c = #d>"⟩, ⟨"", ""⟩], []⟩ ∧
      ¬ (Equation.mk "STEP<a" "b>PER").IsWritable := by
  obtain ⟨hread, hiff⟩ := parse_printed
  have hequations : (parse markedText).equations = [⟨"a;<b", ";c = #d>"⟩, ⟨"", ""⟩] := by
    decide +kernel
  have hending : "\n" ∈ ["", "\n"] := by decide
  have hmarked := hread markedText "\n" hending
  rw [hequations] at hmarked
  refine ⟨hequations, hending, hmarked, fun hwritable => ?_⟩
  have hform := (hiff [⟨"STEP<a", "b>PER"⟩]).mpr (by simpa using hwritable)
  have hnone : (parse (Equation.printed [⟨"STEP<a", "b>PER"⟩])).equations = [] := by decide +kernel
  rw [hform] at hnone
  cases hnone

end Form

end Scorecard
