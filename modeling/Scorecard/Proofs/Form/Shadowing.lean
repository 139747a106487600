import Scorecard.Form.Validation
import Scorecard.Proofs.Form.Claims

/-!
# Fields that claim one identifier

Where several fields claim one identifier, formulas read the first of them.  Validation is meant to
say so, and looks for it in two places: keys that fields share, letter case aside, and columns that
occur twice.

* `Form.disjoint_of_warnings_eq_nil`: in a form without warnings no two fields share a key or a
  column.
* `Field.Clash` is what validation does not see: two fields that claim one identifier and share
  neither.  Then one of the two claims it by a key that heads no column of its field
  (`Field.Clash.isHidden_or`).
* `Form.keepsClaims_of_warnings_eq_nil`: in a form without warnings a field keeps the identifiers
  that it claims exactly where no earlier field clashes with it.
* `not_keepsClaims_of_warnings_eq_nil` is a form without warnings in which a field loses one.
-/

namespace Scorecard

/-! ## What validation finds -/

/-- Without repeats every element occurs once. -/
theorem nodup_of_repeats_eq_nil {seen as : List String} (h : repeats seen as = []) :
    as.Nodup ∧ ∀ a ∈ as, a ∉ seen := by
  induction as generalizing seen with
  | nil => simp
  | cons a as ih =>
    unfold repeats at h
    split at h
    · simp at h
    · next hnew =>
      obtain ⟨hnodup, hseen⟩ := ih h
      have ha : a ∉ seen := by simpa using hnew
      refine ⟨List.nodup_cons.mpr ⟨fun hmem => hseen a hmem (by simp), hnodup⟩, fun b hb => ?_⟩
      rcases List.mem_cons.mp hb with rfl | hb
      · exact ha
      · exact fun hmem => hseen b hb (by simp [hmem])

/-- A key that is used at all is among those that are looked at. -/
theorem mem_lowerKeys {fields : List Field} {f : Field} (hf : f ∈ fields) {key : String}
    (hkey : key ∈ f.keys) : Text.lower key ∈ lowerKeys fields := by
  rw [lowerKeys, List.mem_mergeSort, List.mem_eraseDups]
  exact List.mem_flatMap.mpr ⟨f, hf, List.mem_map_of_mem hkey⟩

/-- There are no warnings about shared keys exactly if every key is used by one field only. -/
theorem sharedKeyWarnings_eq_nil_iff {fields : List Field} : sharedKeyWarnings fields = [] ↔
    ∀ f ∈ fields, ∀ key ∈ f.keys, keyUsers fields (Text.lower key) ≤ 1 := by
  have hlower : ∀ key ∈ lowerKeys fields, ∃ f ∈ fields, ∃ k ∈ f.keys, Text.lower k = key := by
    intro key hkey
    rw [lowerKeys, List.mem_mergeSort, List.mem_eraseDups] at hkey
    obtain ⟨f, hf, hmem⟩ := List.mem_flatMap.mp hkey
    obtain ⟨k, hk, heq⟩ := List.mem_map.mp hmem
    exact ⟨f, hf, k, hk, heq⟩
  rw [sharedKeyWarnings, List.filterMap_eq_nil_iff]
  constructor
  · intro h f hf key hkey
    have hnone := h _ (mem_lowerKeys hf hkey)
    refine Nat.le_of_not_lt fun hmany => ?_
    rw [if_pos hmany] at hnone
    exact absurd hnone (by simp)
  · intro h key hkey
    obtain ⟨f, hf, k, hk, rfl⟩ := hlower key hkey
    exact if_neg (Nat.not_lt.mpr (h f hf k hk))

/-- The parts of a validation that finds nothing. -/
theorem Form.warnings_eq_nil_iff {form : Form} : form.warnings = [] ↔
    (∀ f ∈ form.schema.fields, f.warnings = []) ∧
      (∀ f ∈ form.schema.fields, ∀ key ∈ f.keys,
        keyUsers form.schema.fields (Text.lower key) ≤ 1) ∧
      repeats [] form.schema.columns = [] ∧
      equationWarnings form.schema [] form.equations = [] := by
  simp only [Form.warnings, List.append_eq_nil_iff, List.flatMap_eq_nil_iff, List.map_eq_nil_iff,
    sharedKeyWarnings_eq_nil_iff, and_assoc]

section

variable {form : Form} {before after : List Field} {f g : Field}

/-- In a form without warnings two fields share no key, letter case aside, and no column. -/
theorem Form.disjoint_of_warnings_eq_nil (hclean : form.warnings = [])
    (hfields : form.schema.fields = before ++ f :: after) (hg : g ∈ before) :
    (∀ key ∈ g.keys, ∀ key' ∈ f.keys, Text.lower key ≠ Text.lower key') ∧
      ∀ column ∈ g.columns, column ∉ f.columns := by
  obtain ⟨-, hkeys, hcolumns, -⟩ := Form.warnings_eq_nil_iff.mp hclean
  constructor
  · intro key hkey key' hkey' heq
    have hf : f ∈ form.schema.fields := by simp [hfields]
    have hone := hkeys f hf key' hkey'
    have huses : ∀ {i : Field} {k : String}, k ∈ i.keys → Text.lower k = Text.lower key' →
        (i.keys.map Text.lower).contains (Text.lower key') = true := by
      intro i k hk hlower
      rw [List.contains_iff_mem, ← hlower]
      exact List.mem_map_of_mem hk
    have hbefore : 0 < before.countP fun i => (i.keys.map Text.lower).contains (Text.lower key') :=
      List.countP_pos_iff.mpr ⟨g, hg, huses hkey heq⟩
    rw [keyUsers, hfields, List.countP_append, List.countP_cons, if_pos (huses hkey' rfl)] at hone
    omega
  · intro column hcolumn hcolumn'
    have hnodup := (nodup_of_repeats_eq_nil hcolumns).1
    rw [Schema.columns, hfields, List.flatMap_append, List.flatMap_cons] at hnodup
    have hmem : column ∈ before.flatMap Field.columns := List.mem_flatMap.mpr ⟨g, hg, hcolumn⟩
    exact (List.nodup_append.mp hnodup).2.2 column hmem column (by simp [hcolumn']) rfl

/-! ## What validation does not find -/

/-- Whether a field claims an identifier. -/
def Field.Claims (f : Field) (identifier : String) : Prop := (f.binding? identifier).isSome = true

/-- The identifier is the normal form of a key of the field, and no column of the field. -/
def Field.IsHidden (f : Field) (identifier : String) : Prop :=
  (∃ key ∈ f.keys, normalizeKey key = identifier) ∧ identifier ∉ f.columns

/-- Two fields claim one identifier and share neither a key, letter case aside, nor this column. -/
structure Field.Clash (g f : Field) (identifier : String) : Prop where
  first : g.Claims identifier
  second : f.Claims identifier
  keys : ∀ key ∈ g.keys, ∀ key' ∈ f.keys, Text.lower key ≠ Text.lower key'
  column : identifier ∈ g.columns → identifier ∉ f.columns

variable {identifier : String}

theorem Field.key_or_column_of_claims (h : f.Claims identifier) :
    (∃ key ∈ f.keys, normalizeKey key = identifier) ∨ identifier ∈ f.columns := by
  obtain ⟨b, hb⟩ := Option.isSome_iff_exists.mp h
  obtain ⟨hkey, hnormal | hcolumn⟩ := Field.key_or_column_of_mem_claims
    (Field.mem_claims_of_binding? hb)
  · exact .inl ⟨b.key, hkey, hnormal⟩
  · exact .inr hcolumn

/-- Of two fields that clash, one claims the identifier by a key that heads no column of it. -/
theorem Field.Clash.isHidden_or (h : g.Clash f identifier) :
    g.IsHidden identifier ∨ f.IsHidden identifier := by
  by_cases hg : identifier ∈ g.columns
  · have hf : identifier ∉ f.columns := h.column hg
    exact .inr ⟨(Field.key_or_column_of_claims h.second).resolve_right hf, hf⟩
  · exact .inl ⟨(Field.key_or_column_of_claims h.first).resolve_right hg, hg⟩

/-- The schema binds an identifier as a field does if no earlier field claims it. -/
theorem Schema.binding?_eq_of_first {schema : Schema}
    (hfields : schema.fields = before ++ f :: after) (hf : f.Claims identifier)
    (hbefore : ∀ g ∈ before, ¬ g.Claims identifier) :
    schema.binding? identifier = f.binding? identifier := by
  have hnone : before.findSome? (·.binding? identifier) = none := by
    rw [List.findSome?_eq_none_iff]
    intro g hg
    simpa [Field.Claims] using hbefore g hg
  obtain ⟨b, hb⟩ := Option.isSome_iff_exists.mp hf
  rw [Schema.binding?_eq_findSome?, hfields, List.findSome?_append, hnone, Option.none_or,
    List.findSome?_cons, hb]

/-- Otherwise it binds the identifier as one of the earlier fields does. -/
theorem Schema.exists_binding?_of_earlier {schema : Schema}
    (hfields : schema.fields = before ++ f :: after) (hg : g ∈ before)
    (hclaims : g.Claims identifier) :
    ∃ i ∈ before, ∃ b, i.binding? identifier = some b ∧ schema.binding? identifier = some b := by
  have hsome : (before.findSome? (·.binding? identifier)).isSome = true :=
    List.findSome?_isSome_iff.mpr ⟨g, hg, hclaims⟩
  obtain ⟨b, hb⟩ := Option.isSome_iff_exists.mp hsome
  obtain ⟨i, hi, hib⟩ := List.exists_of_findSome?_eq_some hb
  refine ⟨i, hi, b, hib, ?_⟩
  rw [Schema.binding?_eq_findSome?, hfields, List.findSome?_append, hb, Option.some_or]

/-- In a form without warnings the schema binds an identifier that a field claims as this field
does, and so to an answer of this field, exactly if no earlier field clashes with it.  Of two fields
that clash, one claims the identifier by a key that heads no column. -/
theorem Form.keepsClaims_of_warnings_eq_nil (form : Form) (hclean : form.warnings = [])
    (before after : List Field) (f : Field)
    (hfields : form.schema.fields = before ++ f :: after) :
    ∀ claim ∈ f.claims,
      (∃ b, form.schema.binding? claim.1 = some b ∧
        (f.binding? claim.1 = some b ↔ ∀ g ∈ before, ¬ g.Clash f claim.1) ∧
        (b.key ∈ f.keys ↔ ∀ g ∈ before, ¬ g.Clash f claim.1)) ∧
      ∀ g ∈ before, g.Clash f claim.1 → g.IsHidden claim.1 ∨ f.IsHidden claim.1 := by
  intro claim hclaim
  have hf : f.Claims claim.1 := Field.isSome_binding? hclaim
  refine ⟨?_, fun g _ hclash => hclash.isHidden_or⟩
  by_cases hnone : ∀ g ∈ before, ¬ g.Clash f claim.1
  · have hfirst : ∀ g ∈ before, ¬ g.Claims claim.1 := by
      intro g hg hclaims
      obtain ⟨hkeys, hcolumns⟩ := Form.disjoint_of_warnings_eq_nil hclean hfields hg
      exact hnone g hg ⟨hclaims, hf, hkeys, hcolumns claim.1⟩
    obtain ⟨b, hb⟩ := Option.isSome_iff_exists.mp hf
    refine ⟨b, (Schema.binding?_eq_of_first hfields hf hfirst).trans hb, ?_, ?_⟩
    · exact iff_of_true hb hnone
    · exact iff_of_true (Field.key_mem_of_binding? hb) hnone
  · -- the binding is that of an earlier field, so it reads a key of that field and none of `f`
    obtain ⟨g, hg, hclash⟩ : ∃ g ∈ before, g.Clash f claim.1 := by simpa using hnone
    obtain ⟨i, hi, b, hib, hb⟩ := Schema.exists_binding?_of_earlier hfields hg hclash.first
    have hkeys := (Form.disjoint_of_warnings_eq_nil hclean hfields hi).1
    have hother : b.key ∉ f.keys := fun hkey =>
      hkeys _ (Field.key_mem_of_binding? hib) _ hkey rfl
    refine ⟨b, hb, ?_, iff_of_false hother hnone⟩
    exact iff_of_false (fun hown => hother (Field.key_mem_of_binding? hown)) hnone

end

/-- A form without warnings, in which formulas name a column of the second field. -/
def climbForm : Form :=
  ⟨.ofFields [.stepper ⟨[], ["Gears", "Balls"], ["gears", "Ball Count"]⟩,
      .switch ⟨[], ["Climbed"], ["climbed"]⟩],
    [⟨"total", "gears + ball_count + 5*climbed_yes"⟩], []⟩

/-- The column reads the switch. -/
theorem keepsClaims_of_warnings_eq_nil_climbForm :
    climbForm.warnings = [] ∧
      climbForm.schema.fields = [.stepper ⟨[], ["Gears", "Balls"], ["gears", "Ball Count"]⟩] ++
        .switch ⟨[], ["Climbed"], ["climbed"]⟩ :: [] ∧
      ∃ b, climbForm.schema.binding? "climbed_yes" = some b ∧ b.key ∈ ["climbed"] := by
  have hclean : climbForm.warnings = [] := Form.warnings_eq_nil_iff.mpr (by decide +kernel)
  have hfields : climbForm.schema.fields =
      [.stepper ⟨[], ["Gears", "Balls"], ["gears", "Ball Count"]⟩] ++
        .switch ⟨[], ["Climbed"], ["climbed"]⟩ :: [] := rfl
  have hclaim : ("climbed_yes", ⟨"climbed", .yes⟩) ∈
      (Field.switch ⟨[], ["Climbed"], ["climbed"]⟩).claims := by decide +kernel
  obtain ⟨⟨b, hb, -, hkey⟩, -⟩ :=
    climbForm.keepsClaims_of_warnings_eq_nil hclean _ _ _ hfields _ hclaim
  refine ⟨hclean, hfields, b, hb, hkey.mpr fun g hg hclash => ?_⟩
  obtain rfl := List.mem_singleton.mp hg
  exact absurd hclash.first (by unfold Field.Claims; decide +kernel)

/-! ## Two spellings of one key -/

/-- Two keys that differ in a space and an underscore have one normal form.  Validation tells them
apart, so the second control loses its identifier without a warning. -/
theorem not_keepsClaims_of_warnings_eq_nil :
    ¬ ∀ text, (Form.parse text).warnings = [] →
      ∀ f ∈ (Form.parse text).schema.fields, ∀ claim ∈ f.claims,
        (Form.parse text).schema.binding? claim.1 = f.binding? claim.1 := by
  intro h
  let text : String :=
    "SEGMENTED_CONTROL<Low> ;; A ;; Shot Type\nSEGMENTED_CONTROL<High> ;; B ;; shot_type"
  have hlost := h text (Form.warnings_eq_nil_iff.mpr (by decide +kernel))
    (.segmented ⟨["High"], ["B"], ["shot_type"]⟩) (by decide +kernel)
    ("shot_type", ⟨"shot_type", .position ["High"]⟩) (by decide +kernel)
  exact absurd hlost (by decide +kernel)

end Scorecard
