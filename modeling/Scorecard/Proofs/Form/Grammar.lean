import Mathlib.Data.List.Infix
import Scorecard.Proofs.Form.Lines

/-!
# The grammar of field lines

A field line is cut at every `;;`, the first group `<…>` is taken out of the first segment, and what
is left of that segment names the kind of the field.  `Segmented` and `Labelled` say so without an
algorithm, `Names` and `Fits` what the segments have to be, and `Describes` which field they
describe.

* Reading follows the relations: every text is cut in one way (`segmented_iff`), a group is taken
  out of the first segment (`splitArguments_of_labelled`, `exists_labelled`), and the field is the
  one that the segments describe (`ofSegments_eq_ok_iff`), which there is if they fit (`fits_iff`).
* `Field.text` writes a field as a line.  A field whose items are trimmed and have none of the marks
  is read back from it (`parse_text`).
* A line that yields a field is taken for a field before it is read (`ofLine_of_parse_eq_ok`).

`Field.parse_grammar` puts the parts together.
-/

namespace Scorecard

/-! ## Cutting at `;;` -/

namespace Text

variable {cs ds : List Char}

/-- No `;;` stands in the text. -/
def Unmarked (cs : List Char) : Prop := ¬ [';', ';'] <:+: cs

instance (cs : List Char) : Decidable (Unmarked cs) := inferInstanceAs (Decidable (¬ _))

theorem unmarked_cons_iff {c : Char} :
    Unmarked (c :: cs) ↔ ¬ [';', ';'] <+: c :: cs ∧ Unmarked cs := by
  rw [Unmarked, Unmarked, List.infix_cons_iff, not_or]

/-- Texts without a `;;` may be put together with another character between them. -/
theorem unmarked_append_cons {c : Char} (hc : c ≠ ';') (hcs : Unmarked cs) (hds : Unmarked ds) :
    Unmarked (cs ++ c :: ds) := by
  induction cs with
  | nil =>
    refine unmarked_cons_iff.mpr ⟨fun hprefix => ?_, hds⟩
    exact hc (List.cons_prefix_cons.mp hprefix).1.symm
  | cons d cs ih =>
    obtain ⟨hfirst, hrest⟩ := unmarked_cons_iff.mp hcs
    refine unmarked_cons_iff.mpr ⟨fun hprefix => hfirst ?_, ih hrest⟩
    obtain ⟨rfl, hsecond⟩ := List.cons_prefix_cons.mp hprefix
    cases cs with
    | nil => exact absurd (List.cons_prefix_cons.mp hsecond).1.symm hc
    | cons e cs =>
      obtain ⟨rfl, -⟩ := List.cons_prefix_cons.mp hsecond
      exact ⟨cs, rfl⟩

theorem isBlank_of_mem_space : ∀ c ∈ [' '], isBlank c = true := by
  have hspace : isBlank ' ' = true := by decide
  simpa using hspace

theorem unmarked_space_cons (h : Unmarked cs) : Unmarked (' ' :: cs) := by
  have hnil : Unmarked [] := by decide
  exact unmarked_append_cons (by decide) hnil h

/-- The texts between the marks `;;`, each of which is the first one left. -/
inductive Segmented : List Char → List (List Char) → Prop where
  | last {cs : List Char} (hcs : Unmarked cs) : Segmented cs [cs]
  | cut {first rest : List Char} {parts : List (List Char)} (hfirst : Unmarked (first ++ [';']))
      (hrest : Segmented rest parts) : Segmented (first ++ ';' :: ';' :: rest) (first :: parts)

/-- A first character that begins no mark belongs to the first segment. -/
theorem segments_cons_unmarked {c : Char} (h : ¬ [';', ';'] <+: c :: cs) :
    segments (c :: cs) = (segments cs).modifyHead (c :: ·) := by
  rw [segments]
  rintro rest rfl rfl
  exact h ⟨rest, rfl⟩

theorem segments_of_unmarked (h : Unmarked cs) : segments cs = [cs] := by
  induction cs with
  | nil => rfl
  | cons c cs ih =>
    obtain ⟨hfirst, hrest⟩ := unmarked_cons_iff.mp h
    rw [segments_cons_unmarked hfirst, ih hrest]
    rfl

/-- Whether a mark begins at a character does not depend on what follows the next semicolon. -/
theorem prefix_append_semicolon {c : Char} (h : [';', ';'] <+: c :: (cs ++ ';' :: ds))
    (es : List Char) : [';', ';'] <+: c :: (cs ++ ';' :: es) := by
  obtain ⟨rfl, hsecond⟩ := List.cons_prefix_cons.mp h
  refine List.cons_prefix_cons.mpr ⟨rfl, ?_⟩
  cases cs with
  | nil => exact ⟨es, rfl⟩
  | cons e cs =>
    obtain ⟨rfl, -⟩ := List.cons_prefix_cons.mp hsecond
    exact ⟨cs ++ ';' :: es, rfl⟩

theorem segments_append_mark (h : Unmarked (cs ++ [';'])) (ds : List Char) :
    segments (cs ++ ';' :: ';' :: ds) = cs :: segments ds := by
  induction cs with
  | nil => rfl
  | cons c cs ih =>
    obtain ⟨hfirst, hrest⟩ := unmarked_cons_iff.mp h
    have hnot : ¬ [';', ';'] <+: c :: (cs ++ ';' :: ';' :: ds) := fun hprefix =>
      hfirst (prefix_append_semicolon hprefix [])
    rw [List.cons_append, segments_cons_unmarked hnot, ih hrest]
    rfl

theorem segmented_segments (cs : List Char) : Segmented cs (segments cs) := by
  fun_induction segments cs with
  | case1 => exact .last (by decide)
  | case2 cs ih =>
    have hmark : Unmarked ([] ++ [';']) := by decide
    exact .cut hmark ih
  | case3 c cs hnot ih =>
    have hfirst : ¬ [';', ';'] <+: c :: cs := by
      rintro ⟨rest, hrest⟩
      obtain ⟨rfl, htail⟩ := List.cons.inj hrest
      exact hnot rest rfl htail.symm
    generalize segments cs = parts at ih
    cases ih with
    | last hcs => exact .last (unmarked_cons_iff.mpr ⟨hfirst, hcs⟩)
    | cut hbefore hrest =>
      refine @Segmented.cut (c :: _) _ _ (unmarked_cons_iff.mpr ⟨fun hprefix => ?_, hbefore⟩) hrest
      exact hfirst (prefix_append_semicolon hprefix _)

theorem segmented_iff {parts : List (List Char)} : Segmented cs parts ↔ segments cs = parts := by
  constructor
  · intro h
    induction h with
    | last hcs => exact segments_of_unmarked hcs
    | cut hfirst _ ih => rw [segments_append_mark hfirst, ih]
  · rintro rfl
    exact segmented_segments cs

/-- A line with a `;;` has more than one segment. -/
theorem cut_mark_eq_none_iff : cut [';', ';'] cs = none ↔ Unmarked cs := by
  induction cs with
  | nil => simp [cut, Unmarked]
  | cons c cs ih =>
    rw [unmarked_cons_iff, cut, ← List.isPrefixOf_iff_prefix, ← ih]
    cases [';', ';'].isPrefixOf (c :: cs) <;> simp

/-! ## The first group -/

/-- Every text is either free of the character or cut at its first occurrence. -/
theorem cut_singleton_cases (mark : Char) (cs : List Char) :
    (mark ∉ cs ∧ cut [mark] cs = none) ∨
      ∃ before after, mark ∉ before ∧ cs = before ++ mark :: after ∧
        cut [mark] cs = some (before, after) := by
  induction cs with
  | nil => exact .inl ⟨by simp, rfl⟩
  | cons c cs ih =>
    by_cases hc : c = mark
    · exact .inr ⟨[], cs, by simp, by simp [hc], by rw [cut_cons, if_pos hc]⟩
    · rw [cut_cons, if_neg hc]
      rcases ih with ⟨hmem, hcut⟩ | ⟨before, after, hmem, rfl, hcut⟩
      · exact .inl ⟨by simp [hmem, Ne.symm hc], by rw [hcut]; rfl⟩
      · exact .inr ⟨c :: before, after, by simp [hmem, Ne.symm hc], rfl, by rw [hcut]; rfl⟩

theorem cut_append_cons {mark : Char} (h : mark ∉ cs) (ds : List Char) :
    cut [mark] (cs ++ mark :: ds) = some (cs, ds) := by
  induction cs with
  | nil => rw [List.nil_append, cut_cons, if_pos rfl]
  | cons c cs ih =>
    obtain ⟨hc, hcs⟩ := List.ne_and_not_mem_of_not_mem_cons h
    rw [List.cons_append, cut_cons, if_neg (Ne.symm hc), ih hcs]
    rfl

theorem cut_eq_none_iff {mark : Char} : cut [mark] cs = none ↔ mark ∉ cs := by
  rcases cut_singleton_cases mark cs with ⟨hmem, hcut⟩ | ⟨before, after, -, rfl, hcut⟩
  · simp [hmem, hcut]
  · simp [hcut]

theorem cut_eq_some_iff {mark : Char} {before after : List Char} :
    cut [mark] cs = some (before, after) ↔ mark ∉ before ∧ cs = before ++ mark :: after := by
  constructor
  · intro h
    rcases cut_singleton_cases mark cs with ⟨-, hcut⟩ | ⟨b, a, hmem, hcs, hcut⟩
    · rw [hcut] at h
      exact absurd h (by simp)
    · obtain ⟨rfl, rfl⟩ : b = before ∧ a = after := by simpa [hcut] using h
      exact ⟨hmem, hcs⟩
  · rintro ⟨hmem, rfl⟩
    exact cut_append_cons hmem after

/-- The first segment of a line, its text without the first group `<…>`, and what stands in this
group. -/
inductive Labelled : List Char → List Char → List Char → Prop where
  | plain {cs : List Char} (hcs : ∀ before inside after,
      cs ≠ before ++ '<' :: (inside ++ '>' :: after)) : Labelled cs cs []
  | group {before inside after : List Char} (hbefore : '<' ∉ before) (hinside : '>' ∉ inside) :
      Labelled (before ++ '<' :: (inside ++ '>' :: after)) (before ++ after) inside

theorem exists_labelled (cs : List Char) : ∃ label inside, Labelled cs label inside := by
  rcases cut_singleton_cases '<' cs with ⟨hnone, -⟩ | ⟨before, afterOpening, hbefore, rfl, -⟩
  · refine ⟨cs, [], .plain ?_⟩
    rintro before inside after rfl
    simp at hnone
  · rcases cut_singleton_cases '>' afterOpening with ⟨hnone, -⟩ | ⟨inside, after, hinside, rfl, -⟩
    · refine ⟨_, [], .plain fun front inside after heq => hnone ?_⟩
      rcases List.append_eq_append_iff.mp heq with ⟨more, -, hrest⟩ | ⟨more, rfl, hrest⟩
      · -- an opening bracket further on: what follows it follows the first one
        cases more with
        | nil => simp [(List.cons.inj hrest).2]
        | cons c more => simp [(List.cons.inj hrest).2]
      · cases more with
        | nil => simp [(List.cons.inj hrest).2.symm]
        | cons c more =>
          obtain ⟨rfl, -⟩ := List.cons.inj hrest
          simp at hbefore
    · exact ⟨_, _, .group hbefore hinside⟩

end Text

open Text

/-- The label of a line and its arguments are those of the segment without its first group. -/
theorem splitArguments_of_labelled {cs label inside : List Char} (h : Labelled cs label inside) :
    splitArguments cs = (String.ofList (trimmed label), items inside) := by
  unfold splitArguments
  cases h with
  | plain hcs =>
    rcases cut_singleton_cases '<' cs with ⟨-, hcut⟩ | ⟨before, afterOpening, -, rfl, hcut⟩
    · rw [hcut]
      rfl
    · rw [hcut]
      rcases cut_singleton_cases '>' afterOpening with ⟨-, hclose⟩ | ⟨inside, after, -, rfl, -⟩
      · simp only [hclose]
        rfl
      · exact absurd rfl (hcs before inside after)
  | group hbefore hinside =>
    rw [cut_append_cons hbefore]
    simp only [cut_append_cons hinside]

/-! ## Comma-separated lists -/

/-- The trimmed tokens of a comma-separated list, without the blank ones. -/
def commaTokens (cs : List Char) : List String :=
  (((cs.splitOn ',').map trimmed).filter (· ≠ [])).map String.ofList

theorem items_eq_commaTokens (cs : List Char) : items cs = commaTokens cs := by
  rw [items, commaTokens, splitAt_eq_splitOn]

/-! ## Labels -/

namespace FieldType

/-- The label is the name of the kind, up to blanks at its ends and the case of ASCII letters. -/
def Names (type : FieldType) (label : List Char) : Prop :=
  asciiLowered (trimmed label) = asciiLowered type.name.toList

instance (type : FieldType) (label : List Char) : Decidable (type.Names label) :=
  inferInstanceAs (Decidable (_ = _))

/-- Labels tell the kinds apart. -/
theorem eq_of_names {type other : FieldType} {label : List Char} (h : type.Names label)
    (hother : other.Names label) : type = other := by
  have hall : ∀ s ∈ all, ∀ t ∈ all,
      asciiLowered s.name.toList = asciiLowered t.name.toList → s = t := by decide +kernel
  exact hall type (mem_all type) other (mem_all other) (h.symm.trans hother)

theorem ofLabel?_eq_some_iff (type : FieldType) (label : List Char) :
    ofLabel? (String.ofList (trimmed label)) = some type ↔ type.Names label := by
  have hsame : ∀ t : FieldType,
      sameIgnoringAsciiCase t.name (trim (String.ofList (trimmed label))) = true ↔
        t.Names label := by
    intro t
    rw [sameIgnoringAsciiCase, toList_trim, String.toList_ofList, trimmed_trimmed, beq_iff_eq,
      Names]
    exact eq_comm
  have hnames : ∀ t, ofLabel? (String.ofList (trimmed label)) = some t → t.Names label := by
    intro t h
    rw [ofLabel?] at h
    have hfound := List.find?_some h
    exact (hsame t).mp hfound
  constructor
  · exact hnames type
  · intro h
    have hsome : (ofLabel? (String.ofList (trimmed label))).isSome = true :=
      List.find?_isSome.mpr ⟨type, mem_all type, (hsame type).mpr h⟩
    obtain ⟨t, ht⟩ := Option.isSome_iff_exists.mp hsome
    rw [ht, eq_of_names (hnames t ht) h]

theorem ofLabel?_eq_none_iff (label : List Char) :
    ofLabel? (String.ofList (trimmed label)) = none ↔ ¬ ∃ type : FieldType, type.Names label := by
  simp only [Option.eq_none_iff_forall_ne_some, ne_eq, ofLabel?_eq_some_iff, not_exists]

/-- A mark that is in the name of no kind is in no label. -/
theorem Names.not_mem {type : FieldType} {label : List Char} (h : type.Names label) {mark : Char}
    (hblank : isBlank mark = false)
    (hnone : ∀ t ∈ all, asciiLowerChar mark ∉ asciiLowered t.name.toList) : mark ∉ label := by
  intro hmem
  have himage : asciiLowerChar mark ∈ asciiLowered (trimmed label) :=
    List.mem_map_of_mem (mem_trimmed hmem hblank)
  rw [h] at himage
  exact hnone type (mem_all type) himage

/-- No label has a number sign. -/
theorem Names.no_comment {type : FieldType} {label : List Char} (h : type.Names label) :
    '#' ∉ label :=
  h.not_mem (by decide) (by decide +kernel)

/-- No label has an equals sign. -/
theorem Names.no_equals {type : FieldType} {label : List Char} (h : type.Names label) :
    '=' ∉ label :=
  h.not_mem (by decide) (by decide +kernel)

/-- What has to follow the first segment of a line of this kind. -/
def Fits (type : FieldType) (rest : List (List Char)) : Prop :=
  (type.hasDescriptions = true → ∃ descriptions more, rest = descriptions :: more) ∧
    (type.hasKeys = true → ∃ descriptions keys more,
      rest = descriptions :: keys :: more ∧ commaTokens keys ≠ [])

end FieldType

/-! ## The field of a line -/

namespace Field

/-- The format of a text field is the one that its first argument asks for. -/
def FormatFits : Field → Prop
  | textField format inputs => format = .ofArgument? inputs.arguments.head?
  | _ => True

/-- The field that the arguments and the segments after the first describe. -/
inductive Describes (arguments : List String) : FieldType → List (List Char) → Field → Prop where
  | space (rest : List (List Char)) : Describes arguments .space rest space
  | label (text : List Char) (rest : List (List Char)) :
      Describes arguments .label (text :: rest) (label (String.ofList (trimmed text)))
  | inputs {f : Field} {type : FieldType} {descriptions keys : List Char}
      {rest : List (List Char)} (htype : f.type = type) (hkeys : commaTokens keys ≠ [])
      (hinputs : f.inputs? = some ⟨arguments, commaTokens descriptions, commaTokens keys⟩)
      (hformat : f.FormatFits) : Describes arguments type (descriptions :: keys :: rest) f

variable {type : FieldType} {arguments : List String} {rest : List (List Char)} {f : Field}

theorem inputs_ofSegments_eq_ok_iff {inputs : Inputs} :
    Inputs.ofSegments arguments rest = .ok inputs ↔ ∃ descriptions keys more,
      rest = descriptions :: keys :: more ∧ commaTokens keys ≠ [] ∧
        inputs = ⟨arguments, commaTokens descriptions, commaTokens keys⟩ := by
  unfold Inputs.ofSegments
  match rest with
  | [] | [_] => simp
  | descriptions :: keys :: more =>
    simp only [items_eq_commaTokens]
    by_cases h : commaTokens keys = []
    · simp [h]
    · rw [if_neg h]
      constructor
      · intro hinputs
        exact ⟨descriptions, keys, more, rfl, h, (Except.ok.inj hinputs).symm⟩
      · rintro ⟨_, _, _, hrest, -, rfl⟩
        simp only [List.cons.injEq] at hrest
        obtain ⟨rfl, rfl, -⟩ := hrest
        rfl

theorem hasKeys_of_inputs? {inputs : Inputs} (h : f.inputs? = some inputs) :
    f.type.hasKeys = true := by
  cases f with
  | label _ | space => exact absurd h (by simp [inputs?])
  | textField _ _ | stepper _ | switch _ | slider _ | segmented _ => rfl

/-- Fields of the same kind with the same lists are the same. -/
theorem eq_of_inputs? {g : Field} {inputs : Inputs} (htype : f.type = g.type)
    (hf : f.inputs? = some inputs) (hg : g.inputs? = some inputs) (hformat : f.FormatFits)
    (hformat' : g.FormatFits) : f = g := by
  cases f <;> cases g <;> simp_all [Field.type, inputs?, FormatFits]

/-- A field with keys is made of the lists on its line. -/
theorem map_ofSegments_eq_ok_iff {make : Inputs → Field} (htype : ∀ i, (make i).type = type)
    (hinputs : ∀ i, (make i).inputs? = some i)
    (hformat : ∀ i, i.arguments = arguments → (make i).FormatFits) :
    (Inputs.ofSegments arguments rest).map make = .ok f ↔ Describes arguments type rest f := by
  constructor
  · intro h
    cases hread : Inputs.ofSegments arguments rest with
    | error fault =>
      rw [hread] at h
      exact absurd h (by simp [Except.map])
    | ok inputs =>
      rw [hread] at h
      obtain rfl : make inputs = f := Except.ok.inj h
      obtain ⟨descriptions, keys, more, rfl, hkeys, rfl⟩ := inputs_ofSegments_eq_ok_iff.mp hread
      exact .inputs (htype _) hkeys (hinputs _) (hformat _ rfl)
  · intro h
    have hkeyed : type.hasKeys = true := htype ⟨[], [], []⟩ ▸ hasKeys_of_inputs? (hinputs _)
    cases h with
    | space | label => exact absurd hkeyed (by decide)
    | @inputs _ _ descriptions keys more hf hkeys hlists hfits =>
      rw [inputs_ofSegments_eq_ok_iff.mpr ⟨descriptions, keys, more, rfl, hkeys, rfl⟩]
      exact congrArg Except.ok (eq_of_inputs? ((htype _).trans hf.symm) (hinputs _) hlists
        (hformat _ rfl) hfits)

theorem ofSegments_eq_ok_iff :
    ofSegments type arguments rest = .ok f ↔ Describes arguments type rest f := by
  cases type with
  | space =>
    constructor
    · intro h
      obtain rfl : space = f := Except.ok.inj h
      exact .space rest
    · intro h
      cases h with
      | space => rfl
      | inputs htype _ hinputs _ =>
        have hkeyed := hasKeys_of_inputs? hinputs
        rw [htype] at hkeyed
        exact absurd hkeyed (by decide)
  | label =>
    constructor
    · intro h
      match rest with
      | [] => exact absurd h (by simp [ofSegments])
      | text :: more =>
        obtain rfl : label (String.ofList (trimmed text)) = f := Except.ok.inj h
        exact .label text more
    · intro h
      cases h with
      | label => rfl
      | inputs htype _ hinputs _ =>
        have hkeyed := hasKeys_of_inputs? hinputs
        rw [htype] at hkeyed
        exact absurd hkeyed (by decide)
  | textField =>
    exact map_ofSegments_eq_ok_iff (fun _ => rfl) (fun _ => rfl) fun _ h => by
      rw [FormatFits, h]
  | stepper | switch | slider | segmented =>
    exact map_ofSegments_eq_ok_iff (fun _ => rfl) (fun _ => rfl) fun _ _ => trivial

/-- The segments fit the kind exactly if they describe a field of it. -/
theorem fits_iff (arguments : List String) :
    type.Fits rest ↔ ∃ f, Describes arguments type rest f := by
  constructor
  · rintro ⟨hdescriptions, hkeys⟩
    cases type with
    | space => exact ⟨_, .space rest⟩
    | label =>
      obtain ⟨text, more, rfl⟩ := hdescriptions rfl
      exact ⟨_, .label text more⟩
    | textField =>
      obtain ⟨descriptions, keys, more, rfl, hne⟩ := hkeys rfl
      exact ⟨textField (.ofArgument? arguments.head?) _, .inputs rfl hne rfl rfl⟩
    | stepper =>
      obtain ⟨descriptions, keys, more, rfl, hne⟩ := hkeys rfl
      exact ⟨stepper _, .inputs rfl hne rfl trivial⟩
    | switch =>
      obtain ⟨descriptions, keys, more, rfl, hne⟩ := hkeys rfl
      exact ⟨switch _, .inputs rfl hne rfl trivial⟩
    | slider =>
      obtain ⟨descriptions, keys, more, rfl, hne⟩ := hkeys rfl
      exact ⟨slider _, .inputs rfl hne rfl trivial⟩
    | segmented =>
      obtain ⟨descriptions, keys, more, rfl, hne⟩ := hkeys rfl
      exact ⟨segmented _, .inputs rfl hne rfl trivial⟩
  · rintro ⟨f, h⟩
    cases h with
    | space => exact ⟨fun h => absurd h (by decide), fun h => absurd h (by decide)⟩
    | label text more => exact ⟨fun _ => ⟨text, more, rfl⟩, fun h => absurd h (by decide)⟩
    | @inputs _ _ descriptions keys more _ hkeys _ _ =>
      exact ⟨fun _ => ⟨descriptions, keys :: more, rfl⟩,
        fun _ => ⟨descriptions, keys, more, rfl, hkeys⟩⟩

/-! ## Reading a line -/

/-- What reading a line yields, in terms of its label and its segments. -/
inductive Outcome (label inside : List Char) (rest : List (List Char)) :
    Except Problem Field → Prop where
  | read {type : FieldType} {f : Field} (hnames : type.Names label)
      (hf : Describes (commaTokens inside) type rest f) : Outcome label inside rest (.ok f)
  | unknown (hlabel : ¬ ∃ type : FieldType, type.Names label) :
      Outcome label inside rest (.error (.unknownType (String.ofList (trimmed label))))
  | malformed {type : FieldType} (hnames : type.Names label) (hrest : ¬ type.Fits rest)
      (fault : LineFault) : Outcome label inside rest (.error (.malformedLine type fault))

variable {line first label inside : List Char}

theorem outcome_parse (hline : Segmented line (first :: rest))
    (hfirst : Labelled first label inside) : Outcome label inside rest (parse line) := by
  have hsegments := segmented_iff.mp hline
  simp only [parse, hsegments, List.headD_cons, List.tail_cons,
    splitArguments_of_labelled hfirst, items_eq_commaTokens]
  cases htype : FieldType.ofLabel? (String.ofList (trimmed label)) with
  | none => exact .unknown ((FieldType.ofLabel?_eq_none_iff label).mp htype)
  | some type =>
    have hnames := (FieldType.ofLabel?_eq_some_iff type label).mp htype
    cases hread : ofSegments type (commaTokens inside) rest with
    | ok f =>
      simp only [hread]
      exact .read hnames (ofSegments_eq_ok_iff.mp hread)
    | error fault =>
      simp only [hread]
      refine .malformed hnames (fun hfits => ?_) fault
      obtain ⟨f, hf⟩ := (fits_iff (commaTokens inside)).mp hfits
      rw [ofSegments_eq_ok_iff.mpr hf] at hread
      exact absurd hread (by simp)

/-- Segments describe at most one field. -/
theorem Describes.unique {g : Field} (hf : Describes arguments type rest f)
    (hg : Describes arguments type rest g) : f = g := by
  rw [← ofSegments_eq_ok_iff] at hf hg
  exact Except.ok.inj (hf.symm.trans hg)

theorem Outcome.eq_ok_iff {result : Except Problem Field} (h : Outcome label inside rest result) :
    result = .ok f ↔
      ∃ type : FieldType, type.Names label ∧ Describes (commaTokens inside) type rest f := by
  constructor
  · rintro rfl
    cases h with
    | read hnames hf => exact ⟨_, hnames, hf⟩
  · rintro ⟨type, hnames, hf⟩
    cases h with
    | read hnames' hf' =>
      obtain rfl := FieldType.eq_of_names hnames hnames'
      rw [hf.unique hf']
    | unknown hlabel => exact absurd ⟨type, hnames⟩ hlabel
    | malformed hnames' hrest =>
      obtain rfl := FieldType.eq_of_names hnames hnames'
      exact absurd ((fits_iff _).mpr ⟨f, hf⟩) hrest

theorem Outcome.eq_unknownType_iff {result : Except Problem Field}
    (h : Outcome label inside rest result) :
    (∃ l, result = .error (.unknownType l)) ↔ ¬ ∃ type : FieldType, type.Names label := by
  constructor
  · rintro ⟨l, rfl⟩
    cases h with
    | unknown hlabel => exact hlabel
  · intro hlabel
    cases h with
    | read hnames => exact absurd ⟨_, hnames⟩ hlabel
    | unknown => exact ⟨_, rfl⟩
    | malformed hnames => exact absurd ⟨_, hnames⟩ hlabel

theorem Outcome.eq_malformedLine_iff {result : Except Problem Field}
    (h : Outcome label inside rest result) (type : FieldType) :
    (∃ fault, result = .error (.malformedLine type fault)) ↔
      type.Names label ∧ ¬ type.Fits rest := by
  constructor
  · rintro ⟨fault, rfl⟩
    cases h with
    | malformed hnames hrest => exact ⟨hnames, hrest⟩
  · rintro ⟨hnames, hrest⟩
    cases h with
    | read hnames' hf =>
      obtain rfl := FieldType.eq_of_names hnames hnames'
      exact absurd ((fits_iff _).mpr ⟨_, hf⟩) hrest
    | unknown hlabel => exact absurd ⟨type, hnames⟩ hlabel
    | malformed hnames' _ fault =>
      obtain rfl := FieldType.eq_of_names hnames hnames'
      exact ⟨fault, rfl⟩

/-! ## Writing a line -/

end Field

/-- The line of a field with keys. -/
def Inputs.text (type : FieldType) (inputs : Inputs) : List Char :=
  type.name.toList ++ '<' :: (join "," inputs.arguments).toList ++ "> ;; ".toList ++
    (join "," inputs.descriptions).toList ++ " ;; ".toList ++ (join "," inputs.keys).toList

/-- The line of a field. -/
def Field.text : Field → List Char
  | label text => "LABEL ;; ".toList ++ text.toList
  | space => "SPACE".toList
  | textField _ inputs => inputs.text .textField
  | stepper inputs => inputs.text .stepper
  | switch inputs => inputs.text .switch
  | slider inputs => inputs.text .slider
  | segmented inputs => inputs.text .segmented

/-- An item of a list that can be written between commas. -/
structure IsItem (s : String) : Prop where
  trimmed_eq : trimmed s.toList = s.toList
  ne_nil : s.toList ≠ []
  no_comma : ',' ∉ s.toList
  unmarked : Unmarked s.toList

instance (s : String) : Decidable (IsItem s) :=
  decidable_of_iff
    (trimmed s.toList = s.toList ∧ s.toList ≠ [] ∧ ',' ∉ s.toList ∧ Unmarked s.toList)
    ⟨fun ⟨htrim, hne, hcomma, hmark⟩ => ⟨htrim, hne, hcomma, hmark⟩,
      fun ⟨htrim, hne, hcomma, hmark⟩ => ⟨htrim, hne, hcomma, hmark⟩⟩

/-- The lists can be written on a line: their items are trimmed and have none of the marks around
them, and there is a key. -/
structure Inputs.IsWritable (inputs : Inputs) : Prop where
  arguments : ∀ s ∈ inputs.arguments, IsItem s ∧ '>' ∉ s.toList
  descriptions : ∀ s ∈ inputs.descriptions, IsItem s
  keys : ∀ s ∈ inputs.keys, IsItem s
  keys_ne_nil : inputs.keys ≠ []

/-- The field can be written on a line. -/
structure Field.IsWritable (f : Field) : Prop where
  format : f.FormatFits
  inputs : ∀ inputs ∈ f.inputs?, inputs.IsWritable
  label : ∀ text, f = .label text → trimmed text.toList = text.toList ∧ Unmarked text.toList

/-- A list of items is read back from the text with commas between them. -/
theorem commaTokens_join {ss : List String} (h : ∀ s ∈ ss, IsItem s) :
    commaTokens (join "," ss).toList = ss := by
  cases ss with
  | nil => rfl
  | cons s ss =>
    have hsplit : (join "," (s :: ss)).toList.splitOn ',' = (s :: ss).map String.toList := by
      rw [← splitAt_eq_splitOn]
      exact splitAt_join rfl (by simp) fun t ht => (h t ht).no_comma
    have htrim : ((s :: ss).map String.toList).map trimmed = (s :: ss).map String.toList := by
      rw [List.map_map]
      exact List.map_congr_left fun t ht => (h t ht).trimmed_eq
    have hfilter : ((s :: ss).map String.toList).filter (· ≠ []) = (s :: ss).map String.toList := by
      rw [List.filter_eq_self]
      intro cs hcs
      obtain ⟨t, ht, rfl⟩ := List.mem_map.mp hcs
      simpa using (h t ht).ne_nil
    rw [commaTokens, hsplit, htrim, hfilter, List.map_map]
    simp

theorem unmarked_join {ss : List String} (h : ∀ s ∈ ss, IsItem s) :
    Unmarked (join "," ss).toList := by
  rw [join, String.toList_intercalate]
  induction ss with
  | nil => decide
  | cons s ss ih =>
    have hs := (h s (by simp)).unmarked
    have hss := ih fun t ht => h t (by simp [ht])
    cases ss with
    | nil => simpa using hs
    | cons t ts =>
      rw [List.map_cons, List.map_cons, List.intercalate_cons_cons, List.append_assoc]
      exact unmarked_append_cons (by decide) hs hss

theorem not_mem_join {c : Char} (hc : c ≠ ',') {ss : List String} (h : ∀ s ∈ ss, c ∉ s.toList) :
    c ∉ (join "," ss).toList := by
  rw [join, String.toList_intercalate]
  induction ss with
  | nil => simp
  | cons s ss ih =>
    have hs := h s (by simp)
    have hss := ih fun t ht => h t (by simp [ht])
    cases ss with
    | nil => simpa using hs
    | cons t ts =>
      rw [List.map_cons, List.map_cons, List.intercalate_cons_cons]
      simpa [hs, hc] using hss

/-- Blanks at the ends of a list do not matter. -/
theorem commaTokens_eq_of_padded {cs ds : List Char} (h : Padded cs ds) :
    commaTokens ds = commaTokens cs := by
  rw [← items_eq_commaTokens, ← items_eq_commaTokens, h.items]

namespace Field

variable {f : Field} {inputs : Inputs}

/-- What is known of the names of the kinds. -/
theorem name_isPlain (type : FieldType) : '<' ∉ type.name.toList ∧ Unmarked type.name.toList ∧
    trimmed type.name.toList = type.name.toList := by
  cases type <;> decide +kernel

/-- The three segments of the line of a field with keys. -/
theorem segmented_inputs_text (hwritable : inputs.IsWritable) (type : FieldType) :
    Segmented (inputs.text type)
      [type.name.toList ++ '<' :: ((join "," inputs.arguments).toList ++ '>' :: [' ']),
        ' ' :: (join "," inputs.descriptions).toList ++ [' '],
        ' ' :: (join "," inputs.keys).toList] := by
  have hfirst : Unmarked (type.name.toList ++ '<' ::
      ((join "," inputs.arguments).toList ++ '>' :: [' ']) ++ [';']) := by
    have hclosed : Unmarked ((join "," inputs.arguments).toList ++ '>' :: [' ', ';']) :=
      unmarked_append_cons (by decide)
        (unmarked_join fun s hs => (hwritable.arguments s hs).1) (by decide)
    simpa using unmarked_append_cons (by decide) (name_isPlain type).2.1 hclosed
  have hsecond : Unmarked (' ' :: (join "," inputs.descriptions).toList ++ [' '] ++ [';']) := by
    have hback : Unmarked ((join "," inputs.descriptions).toList ++ ' ' :: [';']) :=
      unmarked_append_cons (by decide) (unmarked_join hwritable.descriptions) (by decide)
    simpa using unmarked_space_cons hback
  have hthird : Unmarked (' ' :: (join "," inputs.keys).toList) :=
    unmarked_space_cons (unmarked_join hwritable.keys)
  have htext : inputs.text type =
      type.name.toList ++ '<' :: ((join "," inputs.arguments).toList ++ '>' :: [' ']) ++
        ';' :: ';' :: (' ' :: (join "," inputs.descriptions).toList ++ [' '] ++
          ';' :: ';' :: ' ' :: (join "," inputs.keys).toList) := by
    simp [Inputs.text]
  rw [htext]
  exact .cut hfirst (.cut hsecond (.last hthird))

theorem parse_inputs_text (hwritable : inputs.IsWritable) (hinputs : f.inputs? = some inputs)
    (hformat : f.FormatFits) : parse (inputs.text f.type) = .ok f := by
  obtain ⟨hopen, -, htrim⟩ := name_isPlain f.type
  have hspace : ∀ c ∈ [' '], isBlank c = true := isBlank_of_mem_space
  have hclose : '>' ∉ (join "," inputs.arguments).toList :=
    not_mem_join (by decide) fun s hs => (hwritable.arguments s hs).2
  have hnames : f.type.Names (f.type.name.toList ++ [' ']) := by
    rw [FieldType.Names, trimmed_append_blanks hspace, htrim]
  have harguments : commaTokens (join "," inputs.arguments).toList = inputs.arguments :=
    commaTokens_join fun s hs => (hwritable.arguments s hs).1
  have hdescriptions : commaTokens (' ' :: (join "," inputs.descriptions).toList ++ [' ']) =
      inputs.descriptions :=
    (commaTokens_eq_of_padded ⟨[' '], [' '], hspace, hspace, rfl⟩).trans
      (commaTokens_join hwritable.descriptions)
  have hkeys : commaTokens (' ' :: (join "," inputs.keys).toList) = inputs.keys :=
    (commaTokens_eq_of_padded ⟨[' '], [], hspace, by simp, by simp⟩).trans
      (commaTokens_join hwritable.keys)
  have hlists : f.inputs? = some ⟨commaTokens (join "," inputs.arguments).toList,
      commaTokens (' ' :: (join "," inputs.descriptions).toList ++ [' ']),
      commaTokens (' ' :: (join "," inputs.keys).toList)⟩ := by
    rw [hinputs, harguments, hdescriptions, hkeys]
  have hne : commaTokens (' ' :: (join "," inputs.keys).toList) ≠ [] := by
    rw [hkeys]
    exact hwritable.keys_ne_nil
  have houtcome := outcome_parse (segmented_inputs_text hwritable f.type) (.group hopen hclose)
  exact houtcome.eq_ok_iff.mpr ⟨f.type, hnames, .inputs rfl hne hlists hformat⟩

/-- A field is read back from its line. -/
theorem parse_text (h : f.IsWritable) : parse f.text = .ok f := by
  have hkeyed : ∀ inputs, f.inputs? = some inputs → parse (inputs.text f.type) = .ok f :=
    fun inputs hinputs => parse_inputs_text (h.inputs inputs hinputs) hinputs h.format
  cases f with
  | space => rfl
  | label text =>
    obtain ⟨htrim, hmark⟩ := h.label text rfl
    have hfirst : Unmarked ("LABEL ".toList ++ [';']) := by decide
    have hsecond : Unmarked (' ' :: text.toList) := unmarked_space_cons hmark
    have hline := Segmented.cut hfirst (.last hsecond)
    have hplain : Labelled "LABEL ".toList "LABEL ".toList [] := by
      refine .plain fun before inside after heq => ?_
      have hmem : '<' ∈ "LABEL ".toList := by rw [heq]; simp
      exact absurd hmem (by decide)
    have htext : String.ofList (trimmed (' ' :: text.toList)) = text := by
      have hblank : trimmed ([' '] ++ text.toList) = trimmed text.toList :=
        trimmed_blanks_append isBlank_of_mem_space _
      rw [← List.singleton_append, hblank, htrim, String.ofList_toList]
    have hdescribes := @Describes.label (commaTokens []) (' ' :: text.toList) []
    rw [htext] at hdescribes
    exact (outcome_parse hline hplain).eq_ok_iff.mpr ⟨.label, by decide +kernel, hdescribes⟩
  | textField _ inputs | stepper inputs | switch inputs | slider inputs | segmented inputs =>
    exact hkeyed inputs rfl

/-! ## Kinds of lines -/

/-- A line that begins with a number sign yields no field. -/
theorem head?_of_parse_eq_ok {line : List Char} (h : parse line = .ok f) :
    line.head? ≠ some '#' := by
  intro hhead
  obtain ⟨first, rest, hsegments⟩ := List.exists_cons_of_ne_nil (segments_ne_nil line)
  have hline := segmented_iff.mpr hsegments
  obtain ⟨label, inside, hlabelled⟩ := exists_labelled first
  obtain ⟨type, hnames, -⟩ := (outcome_parse hline hlabelled).eq_ok_iff.mp h
  have hfirst : first.head? = some '#' := by
    cases hline with
    | last => exact hhead
    | cut => cases first <;> simp_all
  refine hnames.no_comment ?_
  cases hlabelled with
  | plain => exact List.mem_of_mem_head? hfirst
  | @group before => cases before <;> simp_all

/-- A line that yields a field is taken for a field. -/
theorem ofLine_of_parse_eq_ok {line : List Char} (h : parse line = .ok f) :
    LineKind.ofLine line = .field := by
  rw [parse_eq_of_padded (padded_trimmed line)] at h
  rw [LineKind.ofLine]
  generalize trimmed line = body at h
  have hblank : ¬ (body = [] ∨ body.head? = some '#') := by
    rintro (rfl | hhead)
    · have hempty : parse [] = .error (.unknownType "") := rfl
      exact absurd (hempty.symm.trans h) (by simp)
    · exact head?_of_parse_eq_ok h hhead
  simp only [if_neg hblank]
  split
  · rfl
  · next hcut =>
    have hmark : Unmarked body := by simpa [cut_mark_eq_none_iff] using hcut
    obtain ⟨label, inside, hlabelled⟩ := exists_labelled body
    obtain ⟨type, hnames, -⟩ := (outcome_parse (.last hmark) hlabelled).eq_ok_iff.mp h
    have hlabel := (FieldType.ofLabel?_eq_some_iff type label).mpr hnames
    simp only [splitArguments_of_labelled hlabelled, hlabel]
    rfl

/-- Reading field lines follows their grammar.  Every line is cut in one way.  It yields a field
exactly if its label is the name of a kind and its segments fit that kind; the field has the lists
of the line and a label its whole text.  A line with any other label is of unknown type, and what is
left is malformed.  A field that can be written is read back from its line, and a line that yields a
field is taken for one. -/
theorem parse_grammar :
    (∀ line, ∃ first rest label inside,
      Segmented line (first :: rest) ∧ Labelled first label inside) ∧
    (∀ (line first label inside : List Char) (rest : List (List Char)),
      Segmented line (first :: rest) → Labelled first label inside →
        ((∃ f, parse line = .ok f) ↔ ∃ type : FieldType, type.Names label ∧ type.Fits rest) ∧
        ((∃ l, parse line = .error (.unknownType l)) ↔ ¬ ∃ type : FieldType, type.Names label) ∧
        (∀ type, (∃ fault, parse line = .error (.malformedLine type fault)) ↔
          type.Names label ∧ ¬ type.Fits rest) ∧
        (∀ f, parse line = .ok f ↔ ∃ type : FieldType,
          type.Names label ∧ Describes (commaTokens inside) type rest f)) ∧
    (∀ f : Field, f.IsWritable → parse f.text = .ok f) ∧
    ∀ line f, parse line = .ok f → LineKind.ofLine line = .field := by
  refine ⟨fun line => ?_, fun line first label inside rest hline hfirst => ?_,
    fun f => parse_text, fun line f => ofLine_of_parse_eq_ok⟩
  · obtain ⟨first, rest, hsegments⟩ := List.exists_cons_of_ne_nil (segments_ne_nil line)
    obtain ⟨label, inside, hlabelled⟩ := exists_labelled first
    exact ⟨first, rest, label, inside, segmented_iff.mpr hsegments, hlabelled⟩
  · have houtcome := outcome_parse hline hfirst
    refine ⟨?_, houtcome.eq_unknownType_iff, houtcome.eq_malformedLine_iff,
      fun f => houtcome.eq_ok_iff⟩
    simp only [houtcome.eq_ok_iff, fits_iff (commaTokens inside)]
    constructor
    · rintro ⟨f, type, hnames, hf⟩
      exact ⟨type, hnames, f, hf⟩
    · rintro ⟨type, hnames, f, hf⟩
      exact ⟨f, type, hnames, hf⟩

/-- A segmented control with semicolons in its items. -/
def shotInputs : Inputs := ⟨["Low", "High;"], ["Shots"], ["auto shots;", "x"]⟩

/-- The group stands inside the label, blank tokens are dropped, and a fourth segment is ignored. -/
theorem parse_grammar_shots :
    Segmented "Segmented_<Low, ,High;>control ;; Shots ;; auto shots;,,x ;; more".toList
      ["Segmented_<Low, ,High;>control ".toList, " Shots ".toList, " auto shots;,,x ".toList,
        " more".toList] ∧
    Labelled "Segmented_<Low, ,High;>control ".toList "Segmented_control ".toList
      "Low, ,High;".toList ∧
    (segmented shotInputs).IsWritable ∧
    parse "Segmented_<Low, ,High;>control ;; Shots ;; auto shots;,,x ;; more".toList =
      .ok (segmented shotInputs) ∧
    parse "SEGMENTED_CONTROL<Low,High;> ;; Shots ;; auto shots;,x".toList =
      .ok (segmented shotInputs) ∧
    LineKind.ofLine "SEGMENTED_CONTROL<Low,High;> ;; Shots ;; auto shots;,x".toList = .field := by
  obtain ⟨-, hread, hwritten, hkind⟩ := parse_grammar
  have hline : Segmented "Segmented_<Low, ,High;>control ;; Shots ;; auto shots;,,x ;; more".toList
      ["Segmented_<Low, ,High;>control ".toList, " Shots ".toList, " auto shots;,,x ".toList,
        " more".toList] := segmented_iff.mpr (by decide +kernel)
  have hfirst : Labelled "Segmented_<Low, ,High;>control ".toList "Segmented_control ".toList
      "Low, ,High;".toList := by
    have htext : "Segmented_<Low, ,High;>control ".toList =
        "Segmented_".toList ++ '<' :: ("Low, ,High;".toList ++ '>' :: "control ".toList) := by
      decide +kernel
    have hlabel : "Segmented_control ".toList = "Segmented_".toList ++ "control ".toList := by
      decide +kernel
    rw [htext, hlabel]
    exact .group (by decide +kernel) (by decide +kernel)
  have hinputs : shotInputs.IsWritable :=
    ⟨by decide +kernel, by decide +kernel, by decide +kernel, by decide +kernel⟩
  have hwritable : (segmented shotInputs).IsWritable :=
    ⟨trivial, fun inputs h => Option.some.inj h ▸ hinputs, fun text h => by cases h⟩
  have htext : (segmented shotInputs).text =
      "SEGMENTED_CONTROL<Low,High;> ;; Shots ;; auto shots;,x".toList := by decide +kernel
  have hparse := hwritten _ hwritable
  rw [htext] at hparse
  refine ⟨hline, hfirst, hwritable, ?_, hparse, hkind _ _ hparse⟩
  obtain ⟨-, -, -, hok⟩ := hread _ _ _ _ _ hline hfirst
  have hlists : (segmented shotInputs).inputs? = some ⟨commaTokens "Low, ,High;".toList,
      commaTokens " Shots ".toList, commaTokens " auto shots;,,x ".toList⟩ := by decide +kernel
  exact (hok _).mpr ⟨.segmented, by decide +kernel,
    .inputs rfl (by decide +kernel) hlists trivial⟩

/-- The text of a label is no list, and its commas are kept.  A space has no arguments, whatever
stands in its group.  And a field without keys is not read back. -/
theorem not_parse_grammar_lists :
    (¬ ∀ (line first second label inside : List Char) (rest : List (List Char)) (f : Field),
      Segmented line (first :: second :: rest) → Labelled first label inside →
        parse line = .ok f → f.descriptions = commaTokens second) ∧
    (¬ ∀ (line first label inside : List Char) (rest : List (List Char)) (f : Field),
      Segmented line (first :: rest) → Labelled first label inside →
        parse line = .ok f → f.arguments = commaTokens inside) ∧
    ¬ ∀ f : Field, (∀ s ∈ f.arguments ++ f.descriptions ++ f.keys, IsItem s) →
      (∀ s ∈ f.arguments, '>' ∉ s.toList) → parse f.text = .ok f := by
  refine ⟨fun h => ?_, fun h => ?_, fun h => ?_⟩
  · have hline : Segmented "LABEL ;; a, b".toList ["LABEL ".toList, " a, b".toList] :=
      segmented_iff.mpr (by decide +kernel)
    have hfirst : Labelled "LABEL ".toList "LABEL ".toList [] := by
      refine .plain fun before inside after heq => ?_
      have hmem : '<' ∈ "LABEL ".toList := by rw [heq]; simp
      exact absurd hmem (by decide)
    have hdescriptions := h _ _ _ _ _ _ (label "a, b") hline hfirst rfl
    exact absurd hdescriptions (by decide +kernel)
  · have hline : Segmented ("SPACE".toList ++ '<' :: ("a".toList ++ '>' :: []))
        ["SPACE".toList ++ '<' :: ("a".toList ++ '>' :: [])] :=
      segmented_iff.mpr (by decide +kernel)
    have harguments := h _ _ _ _ _ space hline (.group (by decide) (by decide)) rfl
    exact absurd harguments (by decide +kernel)
  · have hitems : ∀ s ∈ (stepper ⟨[], [], []⟩).arguments ++ (stepper ⟨[], [], []⟩).descriptions ++
        (stepper ⟨[], [], []⟩).keys, IsItem s := by
      intro s hs
      exact absurd hs (by simp [arguments, descriptions, keys, inputs?])
    have hread := h (stepper ⟨[], [], []⟩) hitems (by simp [arguments, inputs?])
    have hfault : parse (stepper ⟨[], [], []⟩).text =
        .error (.malformedLine .stepper .emptyKeys) := rfl
    exact absurd (hfault.symm.trans hread) (by simp)

end Field

end Scorecard
