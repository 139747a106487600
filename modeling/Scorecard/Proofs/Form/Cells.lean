import Scorecard.Equation
import Scorecard.Proofs.Form.Claims
import Scorecard.Proofs.Form.Keys
import Scorecard.Proofs.Formula.Cutting

/-!
# Cells under their columns

The cells of a team stand under the columns of the form, field by field
(`Schema.zip_columns_cells`).  A field whose answer is exported has one column, with the answer to
its first key.  The column of a switch or a segment is always bound, and its cell is what a formula
that names the column has in its place (`Schema.cells_alignWith_columns`): a column that can be
named is its own lower case (`lower_of_mem_columns`), so the formula looks up what the cell looks up.
-/

namespace Scorecard

open Formula

/-- Whether the column of a field holds an answer as it was given. -/
def Field.exportsAnswer : Field → Bool
  | .textField format _ => format.isNumeric
  | .stepper _ | .slider _ => true
  | _ => false

namespace Schema

variable {f : Field}

/-! ## Lengths -/

section

variable (schema : Schema) (team : Team)

/-- The columns and cells of a field whose answer is exported. -/
theorem columns_and_cells_of_exportsAnswer (h : f.exportsAnswer = true) :
    f.columns = f.keys.head?.toList.map normalizeKey ∧
      schema.fieldCells team f = f.keys.head?.toList.map team.answer := by
  cases f with
  | textField format inputs =>
    have hformat : format.isNumeric = true := h
    exact ⟨if_pos hformat, if_pos hformat⟩
  | stepper _ | slider _ => exact ⟨rfl, rfl⟩
  | label _ | space | switch _ | segmented _ => exact absurd h (by simp [Field.exportsAnswer])

/-- The cells of a switch or a segmented control. -/
theorem cells_of_exportsFlags (h : f.exportsFlags = true) :
    schema.fieldCells team f = f.columns.map (schema.boundCell team) := by
  cases f with
  | switch _ | segmented _ => rfl
  | _ => exact absurd h (by simp [Field.exportsFlags])

/-- A field that exports neither an answer nor flags has no columns and no cells. -/
theorem columns_and_cells_eq_nil (hanswer : f.exportsAnswer = false)
    (hflags : f.exportsFlags = false) : f.columns = [] ∧ schema.fieldCells team f = [] := by
  cases f with
  | label _ | space => exact ⟨rfl, rfl⟩
  | textField format _ =>
    have hformat : ¬ format.isNumeric = true := by simpa [Field.exportsAnswer] using hanswer
    exact ⟨if_neg hformat, if_neg hformat⟩
  | stepper _ | slider _ => exact absurd hanswer (by simp [Field.exportsAnswer])
  | switch _ | segmented _ => exact absurd hflags (by simp [Field.exportsFlags])

theorem length_fieldCells (f : Field) :
    (schema.fieldCells team f).length = f.columns.length := by
  by_cases hanswer : f.exportsAnswer = true
  · obtain ⟨hcolumns, hcells⟩ := columns_and_cells_of_exportsAnswer schema team hanswer
    rw [hcolumns, hcells, List.length_map, List.length_map]
  · by_cases hflags : f.exportsFlags = true
    · rw [cells_of_exportsFlags schema team hflags, List.length_map]
    · obtain ⟨hcolumns, hcells⟩ := columns_and_cells_eq_nil schema team
        (by simpa using hanswer) (by simpa using hflags)
      rw [hcolumns, hcells]

theorem length_cells : (schema.cells team).length = schema.columns.length := by
  simp only [cells, columns, List.length_flatMap, length_fieldCells]

/-- The cells stand under the columns field by field. -/
theorem zip_columns_cells :
    schema.columns.zip (schema.cells team) =
      schema.fields.flatMap fun f => f.columns.zip (schema.fieldCells team f) := by
  rw [columns, cells]
  induction schema.fields with
  | nil => rfl
  | cons f fs ih =>
    rw [List.flatMap_cons, List.flatMap_cons, List.flatMap_cons,
      List.zip_append (schema.length_fieldCells team f).symm, ih]

end

/-! ## Columns of switches and segments -/

variable {schema : Schema} {team : Team}

/-- The column of a switch or a segment is a normal form. -/
theorem exists_raw_of_mem_columns (hflags : f.exportsFlags = true) {column : String}
    (h : column ∈ f.columns) : ∃ raw, column = normalizeKey raw := by
  obtain ⟨b, hb⟩ := Option.isSome_iff_exists.mp (Field.isSome_binding?_of_mem_columns hflags h)
  exact exists_raw_of_mem_claims (Field.mem_claims_of_binding? hb)

/-- The column of a switch or a segment is bound. -/
theorem exists_binding?_of_mem_columns (hf : f ∈ schema.fields) (hflags : f.exportsFlags = true)
    {column : String} (h : column ∈ f.columns) : ∃ b, schema.binding? column = some b := by
  have hsome := Field.isSome_binding?_of_mem_columns hflags h
  rw [← Option.isSome_iff_exists, binding?_eq_findSome?, List.findSome?_isSome_iff]
  exact ⟨f, hf, hsome⟩

/-- A column that formulas can name is its own lower case. -/
theorem lower_of_mem_columns (hflags : f.exportsFlags = true) {column : String}
    (h : column ∈ f.columns) (hword : ∀ c ∈ column.toList, isWordChar c = true) :
    Text.lower column = column := by
  obtain ⟨raw, rfl⟩ := exists_raw_of_mem_columns hflags h
  refine lower_normalizeKey_of_ascii fun c hc => ?_
  have := (isWordChar_iff c).mp (hword c hc)
  omega

/-- A formula that names a column has the column's cell in its place. -/
theorem expression_of_column {column : String} (hlower : Text.lower column = column) {b : Binding}
    (hb : schema.binding? column = some b) {e : Equation} {before after : List Token}
    (htokens : tokens e.formula.toList = before ++ .word column.toList :: after) :
    (e.substitute schema team).expression.toList =
      before.flatMap (Equation.substituteToken schema team) ++ (b.resolve team).1.toList ++
        after.flatMap (Equation.substituteToken schema team) := by
  have hword : Equation.substituteToken schema team (.word column.toList) =
      (b.resolve team).1.toList := by
    simp [Equation.substituteToken, wordBinding?, hlower, hb]
  simp [Equation.substitute, rewriteTokens, htokens, hword]

/-- The cells of a team stand under the columns of the form, field by field and as many.  The one
column of a numeric text field, a stepper or a slider is named after the first key and holds the
answer to it.  The column of a switch or a segment is bound, and its cell is what every formula that
names the column as a word has in its place. -/
theorem cells_alignWith_columns (fields : List Field) (team : Team) :
    ((ofFields fields).cells team).length = (ofFields fields).columns.length ∧
      ((ofFields fields).columns.zip ((ofFields fields).cells team) =
        fields.flatMap fun f => f.columns.zip ((ofFields fields).fieldCells team f)) ∧
      ∀ f ∈ fields,
        ((ofFields fields).fieldCells team f).length = f.columns.length ∧
        (f.exportsAnswer = true → f.columns.zip ((ofFields fields).fieldCells team f) =
          f.keys.head?.toList.map fun key => (normalizeKey key, team.answer key)) ∧
        (f.exportsFlags = true →
          ∀ column cell, (column, cell) ∈ f.columns.zip ((ofFields fields).fieldCells team f) →
            (∃ b, (ofFields fields).binding? column = some b ∧ cell = (b.resolve team).1) ∧
            ∀ (e : Equation) (before after : List Token),
              tokens e.formula.toList = before ++ .word column.toList :: after →
                (e.substitute (ofFields fields) team).expression.toList =
                  before.flatMap (Equation.substituteToken (ofFields fields) team) ++ cell.toList ++
                    after.flatMap (Equation.substituteToken (ofFields fields) team)) := by
  refine ⟨length_cells _ team, zip_columns_cells _ team, fun f hf =>
    ⟨length_fieldCells _ team f, fun hanswer => ?_, fun hflags column cell hcell => ?_⟩⟩
  · obtain ⟨hcolumns, hcells⟩ :=
      columns_and_cells_of_exportsAnswer (ofFields fields) team hanswer
    rw [hcolumns, hcells, List.zip_map']
  · rw [cells_of_exportsFlags (ofFields fields) team hflags] at hcell
    obtain ⟨hcolumn, rfl⟩ :
        column ∈ f.columns ∧ (ofFields fields).boundCell team column = cell := by
      have hzip : f.columns.zip (f.columns.map ((ofFields fields).boundCell team)) =
          f.columns.map fun c => (c, (ofFields fields).boundCell team c) := by
        simpa using @List.zip_map' _ _ _ id ((ofFields fields).boundCell team) f.columns
      simpa [hzip] using hcell
    obtain ⟨b, hb⟩ : ∃ b, (ofFields fields).binding? column = some b :=
      exists_binding?_of_mem_columns hf hflags hcolumn
    have hbound : (ofFields fields).boundCell team column = (b.resolve team).1 := by
      simp [boundCell, hb]
    refine ⟨⟨b, hb, hbound⟩, fun e before after htokens => ?_⟩
    have hcut : (Token.word column.toList).IsCut := isCut_of_mem_tokens (by rw [htokens]; simp)
    rw [hbound]
    exact expression_of_column (lower_of_mem_columns hflags hcolumn hcut.2.1) hb htokens

/-- A switch, and a stepper in front of it with a key that is a column of the switch. -/
def climbFields : List Field :=
  [.stepper ⟨[], ["Gears", "Climbs"], ["Gear Count", "climbed_yes"]⟩,
    .switch ⟨[], ["Climbed"], ["climbed"]⟩]

/-- A team that dropped three gears and did not climb. -/
def climber : Team := ⟨"254", [("gear_count", "3"), ("climbed", "no"), ("climbed_yes", "-1")]⟩

/-- The cell under `climbed_yes` is what the formula has there, although the stepper claims the
column first. -/
theorem cells_alignWith_columns_climber :
    .stepper ⟨[], ["Gears", "Climbs"], ["Gear Count", "climbed_yes"]⟩ ∈ climbFields ∧
      .switch ⟨[], ["Climbed"], ["climbed"]⟩ ∈ climbFields ∧
      ((ofFields climbFields).columns.zip ((ofFields climbFields).cells climber) =
        [("gear_count", "3"), ("climbed_yes", "(-1)"), ("climbed_no", "1")]) ∧
      ((⟨"Total", "2*climbed_yes"⟩ : Equation).substitute (ofFields climbFields)
        climber).expression.toList = "2*(-1)".toList := by
  have hstepper : .stepper ⟨[], ["Gears", "Climbs"], ["Gear Count", "climbed_yes"]⟩ ∈ climbFields :=
    by simp [climbFields]
  have hswitch : .switch ⟨[], ["Climbed"], ["climbed"]⟩ ∈ climbFields := by simp [climbFields]
  have htokens : tokens (⟨"Total", "2*climbed_yes"⟩ : Equation).formula.toList =
      [.number ⟨['2'], none, none⟩, .other '*'] ++ .word "climbed_yes".toList :: [] := by
    decide +kernel
  obtain ⟨-, hzip, hfields⟩ := cells_alignWith_columns climbFields climber
  have hanswer := (hfields _ hstepper).2.1 rfl
  have hcell := (hfields _ hswitch).2.2 rfl "climbed_yes" "(-1)" (by decide +kernel)
  refine ⟨hstepper, hswitch, ?_, ?_⟩
  · rw [hzip, climbFields, List.flatMap_cons]
    rw [climbFields] at hanswer
    rw [hanswer]
    decide +kernel
  · rw [hcell.2 _ _ _ htokens]
    decide +kernel

end Schema

end Scorecard
