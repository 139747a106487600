import Scorecard.Form
import Scorecard.Proofs.Text.Padding
import Scorecard.Proofs.Text.Splitting

/-!
# Forms are read line by line

What a line yields depends on nothing but that line, so the form of two texts joined by a line feed
is the form of the first followed by that of the second, with the line numbers of its rejected lines
moved on (`Form.parse_lineByLine`).

* `Entry.ofLine?_eq_of_padded`: blanks at the ends of a line do not matter.  So it does not matter
  either whether a carriage return at the end of a line is dropped with the line feed, as it is
  inside a text, or left, as it is at the end of one.
* `Entry.numbered` are the entries of lines that are counted from a given number.  They are put
  together line by line (`numbered_append`, `numbered_add`), and what is skipped leaves no trace
  (`numbered_linesOf`).
-/

namespace Scorecard

open Text

/-! ## Blanks at the ends of a line -/

section

variable {cs ds : List Char}

theorem splitArguments_eq_of_padded (h : Padded cs ds) : splitArguments ds = splitArguments cs := by
  have hopen : isBlank '<' = false := by decide
  have hclose : isBlank '>' = false := by decide
  obtain ⟨front, back, hfront, hback, hopening⟩ := h.cut hopen
  unfold splitArguments
  rw [hopening]
  cases cut ['<'] cs with
  | none => simp [h.trimmed_eq]
  | some parts =>
    obtain ⟨before, afterOpening⟩ := parts
    have hclosing := cut_append_blanks hclose hback afterOpening
    simp only [Option.map_some, hclosing]
    cases cut ['>'] afterOpening with
    | none => simp [h.trimmed_eq]
    | some parts =>
      obtain ⟨inside, after⟩ := parts
      have hlabel : Padded (before ++ after) (front ++ (before ++ (after ++ back))) :=
        ⟨front, back, hfront, hback, by simp⟩
      simp [hlabel.trimmed_eq]

theorem Inputs.ofSegments_eq_of_padded {rest rest' : List (List Char)}
    (h : List.Forall₂ Padded rest rest') (arguments : List String) :
    Inputs.ofSegments arguments rest' = Inputs.ofSegments arguments rest := by
  cases h with
  | nil => rfl
  | cons hdescriptions h =>
    cases h with
    | nil => rfl
    | cons hkeys _ => simp only [Inputs.ofSegments, hdescriptions.items, hkeys.items]

theorem Field.ofSegments_eq_of_padded {rest rest' : List (List Char)}
    (h : List.Forall₂ Padded rest rest') (type : FieldType) (arguments : List String) :
    Field.ofSegments type arguments rest' = Field.ofSegments type arguments rest := by
  cases type with
  | space => rfl
  | label =>
    cases h with
    | nil => rfl
    | cons htext _ => simp only [Field.ofSegments, htext.trimmed_eq]
  | textField | stepper | switch | slider | segmented =>
    simp only [Field.ofSegments, Inputs.ofSegments_eq_of_padded h]

theorem Field.parse_eq_of_padded (h : Padded cs ds) : Field.parse ds = Field.parse cs := by
  have hsegments := h.segments
  unfold Field.parse
  generalize segments cs = rest at hsegments
  generalize segments ds = rest' at hsegments
  cases hsegments with
  | nil => rfl
  | cons htype hrest =>
    simp only [List.headD_cons, List.tail_cons, splitArguments_eq_of_padded htype,
      ofSegments_eq_of_padded hrest]

theorem Equation.parse_eq_of_padded (h : Padded cs ds) : Equation.parse ds = Equation.parse cs := by
  have hmark : isBlank '=' = false := by decide
  obtain ⟨front, back, hfront, hback, hcut⟩ := h.cut hmark
  unfold Equation.parse
  rw [hcut]
  cases cut ['='] cs with
  | none => simp [h.trimmed_eq]
  | some parts =>
    obtain ⟨name, formula⟩ := parts
    simp [trimmed_blanks_append hfront, trimmed_append_blanks hback]

theorem LineKind.ofLine_eq_of_padded (h : Padded cs ds) :
    LineKind.ofLine ds = LineKind.ofLine cs := by
  rw [LineKind.ofLine, LineKind.ofLine, h.trimmed_eq]

/-- Blanks at the ends of a line do not change what it yields. -/
theorem Entry.ofLine?_eq_of_padded (h : Padded cs ds) : Entry.ofLine? ds = Entry.ofLine? cs := by
  rw [Entry.ofLine?, Entry.ofLine?, LineKind.ofLine_eq_of_padded h, Field.parse_eq_of_padded h,
    Equation.parse_eq_of_padded h]

/-- A line is the line without its carriage return, with that behind it. -/
theorem trailed_dropReturn (cs : List Char) : Trailed (dropReturn cs) cs := by
  fun_induction dropReturn cs with
  | case1 => exact ⟨[], by simp, rfl⟩
  | case2 =>
    refine ⟨['\r'], fun c hc => ?_, rfl⟩
    obtain rfl := List.mem_singleton.mp hc
    decide
  | case3 c cs _ ih => exact ih.cons c

theorem Entry.ofLine?_dropReturn (line : List Char) :
    Entry.ofLine? (dropReturn line) = Entry.ofLine? line := by
  obtain ⟨back, hback, hline⟩ := trailed_dropReturn line
  exact (Entry.ofLine?_eq_of_padded ⟨[], back, by simp, hback, hline⟩).symm

end

/-! ## Lines of joined texts -/

theorem linesOf_append (ps : List (List Char)) {qs : List (List Char)} (hqs : qs ≠ []) :
    linesOf (ps ++ qs) = ps.map dropReturn ++ linesOf qs := by
  induction ps with
  | nil => rfl
  | cons p ps ih =>
    have hne : ps ++ qs ≠ [] := by simp [hqs]
    rw [List.cons_append, linesOf, ih]
    · rfl
    · exact hne

/-- The lines of two texts joined by a line feed. -/
theorem lines_append (cs ds : List Char) :
    lines (cs ++ '\n' :: ds) = (splitAt '\n' cs).map dropReturn ++ lines ds := by
  rw [lines, splitAt_append_cons, linesOf_append _ (splitAt_ne_nil _ _), lines]

/-- A line has no line feed. -/
theorem not_mem_of_mem_lines {cs line : List Char} (h : line ∈ lines cs) : '\n' ∉ line := by
  have key : ∀ ps : List (List Char), (∀ p ∈ ps, '\n' ∉ p) → ∀ l ∈ linesOf ps, '\n' ∉ l := by
    intro ps hps
    fun_induction linesOf ps with
    | case1 => simp
    | case2 => simp
    | case3 last _ => simpa using hps
    | case4 p ps _ ih =>
      intro l hl
      rcases List.mem_cons.mp hl with rfl | hl
      · intro hmem
        obtain ⟨back, -, hp⟩ := trailed_dropReturn p
        refine hps p (by simp) ?_
        rw [hp]
        exact List.mem_append_left back hmem
      · exact ih (fun q hq => hps q (by simp [hq])) l hl
  exact key _ (fun p => not_mem_of_mem_splitAt) line h

/-- A text without line feeds is one line, unless it is empty. -/
theorem lines_of_not_mem {cs : List Char} (h : '\n' ∉ cs) :
    lines cs = if cs = [] then [] else [cs] := by
  have hsplit : splitAt '\n' cs = [cs] := by
    induction cs with
    | nil => rfl
    | cons c cs ih =>
      have hc : c ≠ '\n' := by
        rintro rfl
        simp at h
      rw [splitAt, if_neg hc, ih fun hmem => h (by simp [hmem])]
      rfl
  rw [lines, hsplit, linesOf]

/-! ## Numbered entries -/

namespace Entry

/-- The entries of lines that are counted from `first`. -/
def numbered (first : Nat) (ls : List (List Char)) : List (Nat × Entry) :=
  (ls.zipIdx first).filterMap fun (line, number) =>
    (ofLine? line).map fun entry => (number, entry)

theorem ofText_eq_numbered (text : String) : ofText text = numbered 1 (lines text.toList) := rfl

@[simp] theorem numbered_nil (first : Nat) : numbered first [] = [] := rfl

theorem numbered_cons (first : Nat) (line : List Char) (ls : List (List Char)) :
    numbered first (line :: ls) =
      (ofLine? line).toList.map (fun entry => (first, entry)) ++ numbered (first + 1) ls := by
  cases h : ofLine? line <;> simp [numbered, h]

theorem numbered_append (first : Nat) (ls ms : List (List Char)) :
    numbered first (ls ++ ms) = numbered first ls ++ numbered (first + ls.length) ms := by
  simp [numbered, List.zipIdx_append, List.filterMap_append]

/-- Counting from a later number moves the numbers on. -/
theorem numbered_add (first later : Nat) (ls : List (List Char)) :
    numbered (first + later) ls =
      (numbered first ls).map fun (number, entry) => (number + later, entry) := by
  induction ls generalizing first with
  | nil => rfl
  | cons line ls ih =>
    have hnext : first + later + 1 = first + 1 + later := by omega
    rw [numbered_cons, numbered_cons, hnext, ih, List.map_append, List.map_map]
    rfl

/-- Neither carriage returns nor an empty last line matter. -/
theorem numbered_linesOf (first : Nat) (ps : List (List Char)) :
    numbered first (linesOf ps) = numbered first (ps.map dropReturn) := by
  fun_induction linesOf ps generalizing first with
  | case1 => rfl
  | case2 => rfl
  | case3 last _ =>
    rw [List.map_singleton, numbered_cons, numbered_cons, ofLine?_dropReturn]
  | case4 p ps _ ih => rw [List.map_cons, numbered_cons, numbered_cons, ih]

/-- The entries of two texts joined by a line feed. -/
theorem ofText_append (a b : String) :
    ofText (a ++ "\n" ++ b) = ofText a ++ (ofText b).map fun (number, entry) =>
      (number + (a.toList.count '\n' + 1), entry) := by
  have htext : (a ++ "\n" ++ b).toList = a.toList ++ '\n' :: b.toList := by simp
  rw [ofText_eq_numbered, htext, lines_append, numbered_append, ← numbered_linesOf, ← lines,
    List.length_map, length_splitAt, numbered_add]
  rfl

/-- Line numbers increase, and they count the lines. -/
theorem numbers_numbered (first : Nat) (ls : List (List Char)) :
    ((numbered first ls).map Prod.fst).Pairwise (· < ·) ∧
      ∀ number ∈ (numbered first ls).map Prod.fst, first ≤ number ∧ number < first + ls.length := by
  induction ls generalizing first with
  | nil => simp
  | cons line ls ih =>
    obtain ⟨hsorted, hbounds⟩ := ih (first + 1)
    rw [numbered_cons, List.map_append, List.map_map]
    cases ofLine? line with
    | none =>
      refine ⟨hsorted, fun number hnumber => ?_⟩
      have := hbounds number hnumber
      rw [List.length_cons]
      omega
    | some entry =>
      simp only [Option.toList_some, List.map_cons, List.map_nil, Function.comp_apply,
        List.singleton_append]
      refine ⟨List.pairwise_cons.mpr ⟨fun number hnumber => ?_, hsorted⟩, fun number hnumber => ?_⟩
      · have := hbounds number hnumber
        omega
      · rw [List.length_cons]
        rcases List.mem_cons.mp hnumber with rfl | hnumber
        · simp
        · have := hbounds number hnumber
          omega

/-- A rejected line is a problem of the form. -/
theorem concernsForm_of_ofLine? {line : List Char} {problem : Problem}
    (h : ofLine? line = some (rejected problem)) : problem.concernsForm = true := by
  unfold ofLine? at h
  split at h
  · simp at h
  · have hfield : Field.parse line = .error problem := by
      cases hparse : Field.parse line <;> simp_all
    unfold Field.parse at hfield
    simp only at hfield
    split at hfield
    · cases hfield
      rfl
    · split at hfield
      · cases hfield
        rfl
      · cases hfield
  · have hequation : Equation.parse line = .error problem := by
      cases hparse : Equation.parse line <;> simp_all
    unfold Equation.parse at hequation
    split at hequation
    · cases hequation
      rfl
    · cases hequation

/-- Lines that are passed over are the blank ones and those that start with `#`. -/
theorem ofLine?_eq_none_iff {line : List Char} : ofLine? line = none ↔
    trimmed line = [] ∨ (trimmed line).head? = some '#' := by
  have hkind : LineKind.ofLine line = .blank ↔
      trimmed line = [] ∨ (trimmed line).head? = some '#' := by
    unfold LineKind.ofLine
    simp only
    split
    · simp_all
    · split
      · simp_all
      · split <;> simp_all
  rw [← hkind, ofLine?]
  cases LineKind.ofLine line <;> simp

/-- A line yields an equation if it is taken for one and can be read. -/
theorem ofLine?_eq_equation_iff {line : List Char} {e : Equation} :
    ofLine? line = some (equation e) ↔
      LineKind.ofLine line = .equation ∧ Equation.parse line = .ok e := by
  unfold ofLine?
  cases LineKind.ofLine line with
  | blank => simp
  | field => cases Field.parse line <;> simp
  | equation => cases Equation.parse line <;> simp

/-- What is picked from numbered entries without their numbers comes line by line. -/
theorem filterMap_numbered {α : Type} (pick : Entry → Option α) (first : Nat)
    (ls : List (List Char)) :
    ((numbered first ls).filterMap fun (_, entry) => pick entry) =
      ls.flatMap fun line => ((ofLine? line).bind pick).toList := by
  induction ls generalizing first with
  | nil => rfl
  | cons line ls ih =>
    rw [numbered_cons, List.filterMap_append, ih, List.flatMap_cons]
    cases ofLine? line with
    | none => rfl
    | some entry => cases hpick : pick entry <;> simp [hpick]

/-- The numbers of the rejected lines are those of their places. -/
theorem rejected_numbered (first : Nat) (ls : List (List Char)) :
    ((numbered first ls).filterMap fun (number, entry) =>
        entry.problem?.map fun problem => (number, problem)) =
      (ls.zipIdx first).flatMap fun (line, number) =>
        ((ofLine? line).bind problem?).toList.map fun problem => (number, problem) := by
  induction ls generalizing first with
  | nil => rfl
  | cons line ls ih =>
    rw [numbered_cons, List.filterMap_append, ih, List.zipIdx_cons, List.flatMap_cons]
    congr 1
    show _ = ((ofLine? line).bind problem?).toList.map fun problem => (first, problem)
    cases ofLine? line with
    | none => rfl
    | some entry => cases hproblem : entry.problem? <;> simp [hproblem]

/-- The entry of a line that is a text of its own. -/
theorem ofText_line {line : List Char} (h : '\n' ∉ line) :
    ofText (.ofList line) = (ofLine? line).toList.map fun entry => (1, entry) := by
  rw [ofText_eq_numbered, String.toList_ofList, lines_of_not_mem h]
  split
  · next hempty =>
    subst hempty
    rfl
  · rw [numbered_cons, numbered_nil, List.append_nil]

end Entry

/-! ## Forms -/

namespace Form

/-- The number of lines that a form was made of: its fields, equations and rejected lines. -/
def size (form : Form) : Nat :=
  form.schema.fields.length + form.equations.length + form.rejected.length

section

variable {line : List Char} (h : '\n' ∉ line)

include h

theorem fields_line : (parse (.ofList line)).schema.fields =
    ((Entry.ofLine? line).bind Entry.field?).toList := by
  simp only [parse, ofEntries, Schema.ofFields, Entry.ofText_line h]
  cases Entry.ofLine? line with
  | none => rfl
  | some entry => cases hfield : entry.field? <;> simp [hfield]

theorem equations_line : (parse (.ofList line)).equations =
    ((Entry.ofLine? line).bind Entry.equation?).toList := by
  simp only [parse, ofEntries, Entry.ofText_line h]
  cases Entry.ofLine? line with
  | none => rfl
  | some entry => cases hequation : entry.equation? <;> simp [hequation]

theorem rejected_line : (parse (.ofList line)).rejected =
    ((Entry.ofLine? line).bind Entry.problem?).toList.map fun problem => (1, problem) := by
  simp only [parse, ofEntries, Entry.ofText_line h]
  cases Entry.ofLine? line with
  | none => rfl
  | some entry => cases hproblem : entry.problem? <;> simp [hproblem]

/-- A line yields one thing, unless it is passed over. -/
theorem size_line : (parse (.ofList line)).size =
    if trimmed line = [] ∨ (trimmed line).head? = some '#' then 0 else 1 := by
  rw [size, fields_line h, equations_line h, rejected_line h]
  split
  · next hpassed => simp [Entry.ofLine?_eq_none_iff.mpr hpassed]
  · next hpassed =>
    obtain ⟨entry, hentry⟩ := Option.ne_none_iff_exists'.mp
      (mt Entry.ofLine?_eq_none_iff.mp hpassed)
    rw [hentry]
    cases entry <;> rfl

end

theorem fields_parse (text : String) : (parse text).schema.fields =
    (lines text.toList).flatMap fun line => (parse (.ofList line)).schema.fields := by
  have hentries := Entry.filterMap_numbered Entry.field? 1 (lines text.toList)
  refine hentries.trans (List.flatMap_congr fun line hline => ?_)
  rw [fields_line (not_mem_of_mem_lines hline)]

theorem equations_parse (text : String) : (parse text).equations =
    (lines text.toList).flatMap fun line => (parse (.ofList line)).equations := by
  have hentries := Entry.filterMap_numbered Entry.equation? 1 (lines text.toList)
  refine hentries.trans (List.flatMap_congr fun line hline => ?_)
  rw [equations_line (not_mem_of_mem_lines hline)]

theorem rejected_parse (text : String) : (parse text).rejected =
    ((lines text.toList).zipIdx 1).flatMap fun (line, number) =>
      (parse (.ofList line)).rejected.map fun (_, problem) => (number, problem) := by
  have hentries := Entry.rejected_numbered 1 (lines text.toList)
  refine hentries.trans (List.flatMap_congr fun (line, number) hmem => ?_)
  have hline : line ∈ lines text.toList := (List.mem_zipIdx hmem).2.2 ▸ List.getElem_mem _
  show _ = (parse (.ofList line)).rejected.map fun (_, problem) => (number, problem)
  rw [rejected_line (not_mem_of_mem_lines hline), List.map_map]
  rfl

/-- The equations of a form are those of its lines. -/
theorem mem_equations_parse_iff {text : String} {e : Equation} : e ∈ (parse text).equations ↔
    ∃ line ∈ lines text.toList, Entry.ofLine? line = some (.equation e) := by
  have hentries : (parse text).equations = (lines text.toList).flatMap fun line =>
      ((Entry.ofLine? line).bind Entry.equation?).toList :=
    Entry.filterMap_numbered Entry.equation? 1 (lines text.toList)
  have hpick : ∀ entry : Entry, entry.equation? = some e ↔ entry = .equation e := by
    intro entry
    cases entry <;> simp [Entry.equation?]
  rw [hentries, List.mem_flatMap]
  refine exists_congr fun line => and_congr_right fun _ => ?_
  rw [Option.mem_toList, Option.bind_eq_some_iff]
  simp only [hpick, exists_eq_right]

/-- The entry of a rejected line. -/
theorem mem_ofText_of_mem_rejected {text : String} {number : Nat} {problem : Problem}
    (h : (number, problem) ∈ (parse text).rejected) :
    (number, .rejected problem) ∈ Entry.ofText text := by
  obtain ⟨⟨number', entry⟩, hmem, hentry⟩ := List.mem_filterMap.mp h
  cases entry with
  | rejected p =>
    obtain ⟨rfl, rfl⟩ : number' = number ∧ p = problem := by simpa [Entry.problem?] using hentry
    exact hmem
  | _ => simp [Entry.problem?] at hentry

/-- The numbers of rejected lines increase and are places of the text. -/
theorem numbers_rejected (text : String) :
    ((parse text).rejected.map Prod.fst).Pairwise (· < ·) ∧
      ∀ number ∈ (parse text).rejected.map Prod.fst,
        1 ≤ number ∧ number ≤ (lines text.toList).length := by
  obtain ⟨hsorted, hbounds⟩ := Entry.numbers_numbered 1 (lines text.toList)
  have hsub : ((parse text).rejected.map Prod.fst).Sublist ((Entry.ofText text).map Prod.fst) := by
    simp only [parse, ofEntries]
    induction Entry.ofText text with
    | nil => simp
    | cons e es ih =>
      obtain ⟨number, entry⟩ := e
      cases hproblem : entry.problem? with
      | none => simpa [hproblem] using ih.cons number
      | some problem => simpa [hproblem] using ih.cons_cons number
  refine ⟨hsorted.sublist hsub, fun number hnumber => ?_⟩
  have := hbounds number (hsub.subset hnumber)
  omega

theorem concernsForm_of_mem_rejected {text : String} {number : Nat} {problem : Problem}
    (h : (number, problem) ∈ (parse text).rejected) : problem.concernsForm = true := by
  obtain ⟨⟨line, number'⟩, -, hline⟩ := List.mem_filterMap.mp (mem_ofText_of_mem_rejected h)
  obtain ⟨entry, hentry, heq⟩ := Option.map_eq_some_iff.mp hline
  obtain ⟨-, rfl⟩ := Prod.mk.inj heq
  exact Entry.concernsForm_of_ofLine? hentry

/-- A form is read line by line.  Two texts joined by a line feed yield what the first yields and
then what the second yields, with its line numbers moved on.  What a text yields is what its lines
yield as texts of their own; that is exactly one field, equation or rejection for each line that is
neither blank nor a comment, and nothing for the others.  The numbers of rejected lines increase and
lie within the text, and every rejection is a problem of the form. -/
theorem parse_lineByLine :
    (∀ a b : String,
      (parse (a ++ "\n" ++ b)).schema.fields =
          (parse a).schema.fields ++ (parse b).schema.fields ∧
        (parse (a ++ "\n" ++ b)).equations = (parse a).equations ++ (parse b).equations ∧
        (parse (a ++ "\n" ++ b)).rejected = (parse a).rejected ++
          (parse b).rejected.map fun (number, problem) =>
            (number + (a.toList.count '\n' + 1), problem)) ∧
      ∀ text : String,
        ((parse text).schema.fields =
            (lines text.toList).flatMap fun line => (parse (.ofList line)).schema.fields) ∧
          ((parse text).equations =
            (lines text.toList).flatMap fun line => (parse (.ofList line)).equations) ∧
          ((parse text).rejected =
            ((lines text.toList).zipIdx 1).flatMap fun (line, number) =>
              (parse (.ofList line)).rejected.map fun (_, problem) => (number, problem)) ∧
          (∀ line ∈ lines text.toList, (parse (.ofList line)).size =
            if trimmed line = [] ∨ (trimmed line).head? = some '#' then 0 else 1) ∧
          ((parse text).rejected.map Prod.fst).Pairwise (· < ·) ∧
          ∀ r ∈ (parse text).rejected,
            1 ≤ r.1 ∧ r.1 ≤ (lines text.toList).length ∧ r.2.concernsForm = true := by
  refine ⟨fun a b => ?_, fun text => ?_⟩
  · simp only [parse, ofEntries, Schema.ofFields, Entry.ofText_append, List.filterMap_append,
      List.filterMap_map, List.map_filterMap]
    refine ⟨rfl, rfl, ?_⟩
    congr 2
    funext ⟨number, entry⟩
    cases entry <;> rfl
  · obtain ⟨hsorted, hbounds⟩ := numbers_rejected text
    refine ⟨fields_parse text, equations_parse text, rejected_parse text,
      fun line hline => size_line (not_mem_of_mem_lines hline), hsorted,
      fun (number, problem) hmem => ?_⟩
    obtain ⟨hfirst, hlast⟩ := hbounds number (List.mem_map_of_mem hmem)
    exact ⟨hfirst, hlast, concernsForm_of_mem_rejected hmem⟩

/-- A text with a field, a blank line, a line that is rejected and an equation. -/
def mixedText : String := "STEPPER ;; Gears ;; gears\r\n\nDIAL ;; Dial ;; dial\nG = gears"

/-- The line that is rejected yields one thing and has its place, which a text in front of it moves
on. -/
theorem parse_lineByLine_mixedText :
    "DIAL ;; Dial ;; dial".toList ∈ lines mixedText.toList ∧
      (parse (.ofList "DIAL ;; Dial ;; dial".toList)).size = 1 ∧
      (3, .unknownType "DIAL") ∈ (parse mixedText).rejected ∧
      (Problem.unknownType "DIAL").concernsForm = true ∧
      (parse ("Total\n" ++ "\n" ++ mixedText)).rejected =
        (parse "Total\n").rejected ++ [(5, .unknownType "DIAL")] := by
  obtain ⟨happend, htext⟩ := parse_lineByLine
  obtain ⟨-, -, -, hsize, -, hrejected⟩ := htext mixedText
  have hline : "DIAL ;; Dial ;; dial".toList ∈ lines mixedText.toList := by decide +kernel
  have honly : (parse mixedText).rejected = [(3, .unknownType "DIAL")] := by rfl
  have hmem : (3, .unknownType "DIAL") ∈ (parse mixedText).rejected := by simp [honly]
  refine ⟨hline, (hsize _ hline).trans (by decide +kernel), hmem, (hrejected _ hmem).2.2, ?_⟩
  rw [(happend "Total\n" mixedText).2.2, honly]
  rfl

end Form

end Scorecard
