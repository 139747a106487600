import Scorecard.Proofs.Form.Segments

/-!
# Columns of flags

The columns of switches and segments are meant to hold `1` or `0`.  A cell is made by the binding of
its column, and that is the first claim of the column in the whole schema, which need not be the
field's own.

* `Reading.IsFlag` says which readings make nothing but `1` and `0`, whatever the answer is
  (`Reading.isFlag_iff`).  The place of a segment is one only if no answer can select a later segment
  than the first.
* Only the keys of text fields, steppers and segmented controls are read otherwise
  (`Field.isFlag_or_key_of_mem_claims`).
* So the cells under a column of a switch or a segmented control are flags for every team exactly if
  the column's binding is read as a flag, and they are if it is no key of such a field in normal form
  (`Schema.flagCells_iff`).
-/

namespace Scorecard

open Text

/-! ## Answers and places -/

theorem lowerChar_ne_nil (c : Char) : lowerChar c ≠ [] := by
  rw [lowerChar]
  split
  · simp
  · split <;> simp

theorem lowered_eq_nil_iff {cs : List Char} : lowered cs = [] ↔ cs = [] := by
  cases cs with
  | nil => simp [lowered, loweredAfter]
  | cons c cs =>
    rw [lowered, loweredAfter]
    split <;> simp [lowerChar_ne_nil]

/-- A segment selects, as an answer, what an answer that selects it does. -/
theorem isAnswer_congr {raw s : String} (h : isAnswer raw s = true) (t : String) :
    isAnswer s t = isAnswer raw t := by
  simp only [isAnswer, Bool.and_eq_true, decide_eq_true_eq, beq_iff_eq] at h
  obtain ⟨hraw, hlower⟩ := h
  have hs : trimmed s.toList ≠ [] := by
    rw [ne_eq, ← lowered_eq_nil_iff, ← hlower, lowered_eq_nil_iff]
    exact hraw
  simp [isAnswer, hraw, hs, hlower]

/-- The selected place is not behind the first one exactly if an answer that selects another segment
selects the first one too. -/
theorem selectedPlace_le_one_iff (first : String) (others : List String) (raw : String) :
    selectedPlace (first :: others) raw ≤ 1 ↔
      (∃ s ∈ others, isAnswer raw s = true) → isAnswer raw first = true := by
  rw [selectedPlace, List.findIdx?_cons]
  cases hfirst : isAnswer raw first with
  | true => simp
  | false =>
    cases hothers : others.findIdx? (isAnswer raw) with
    | none => simpa using hothers
    | some i =>
      obtain ⟨hi, hanswer, -⟩ := List.findIdx?_eq_some_iff_getElem.mp hothers
      have hselects : ∃ s ∈ others, isAnswer raw s = true := ⟨_, List.getElem_mem hi, hanswer⟩
      simp [hselects]

theorem ofList_natDigits_isFlag_iff (p : Nat) :
    String.ofList (Number.natDigits p) = "1" ∨ String.ofList (Number.natDigits p) = "0" ↔
      p ≤ 1 := by
  have hdigits : ∀ n, String.ofList (Number.natDigits p) = String.ofList (Number.natDigits n) ↔
      p = n := by
    intro n
    refine ⟨fun h => ?_, fun h => by rw [h]⟩
    have hvalue := congrArg Number.ofDigits (String.ofList_injective h)
    rwa [Number.ofDigits_natDigits, Number.ofDigits_natDigits] at hvalue
  have hone := hdigits 1
  have hzero := hdigits 0
  have hliterals : String.ofList (Number.natDigits 1) = "1" ∧
      String.ofList (Number.natDigits 0) = "0" := by decide
  rw [hliterals.1] at hone
  rw [hliterals.2] at hzero
  rw [hone, hzero]
  omega

/-! ## Readings -/

/-- What is read this way is `1` or `0`.  The place of the selected segment is if every other segment
that can be selected is the same answer as the first. -/
def Reading.IsFlag : Reading → Prop
  | .decimal | .integer => False
  | .yes | .no | .selected _ | .position [] => True
  | .position (first :: others) =>
      ∀ s ∈ others, isAnswer s s = true → isAnswer s first = true

theorem flag_cases (on : Bool) : flag on = "1" ∨ flag on = "0" := by cases on <;> simp [flag]

/-- The team that has given this one answer. -/
def answering (key raw : String) : Team := ⟨"", [(key, raw)]⟩

@[simp] theorem answer_answering (key raw : String) : (answering key raw).answer key = raw := by
  simp [answering, Team.answer, Team.get?]

/-- An answer that is read as `2` makes no flag. -/
theorem not_isFlag_of_operand? {reading : Reading} {raw : String}
    (h : reading.operand? raw = some "2") (key : String) :
    ¬ ∀ team, ((⟨key, reading⟩ : Binding).resolve team).1 = "1" ∨
      ((⟨key, reading⟩ : Binding).resolve team).1 = "0" := by
  intro hall
  have hcell := hall (answering key raw)
  simp only [Binding.resolve, answer_answering, h] at hcell
  exact absurd hcell (by decide)

/-- A reading makes only `1` and `0` exactly if it is that of a flag. -/
theorem Reading.isFlag_iff (reading : Reading) (key : String) : reading.IsFlag ↔
    ∀ team, ((⟨key, reading⟩ : Binding).resolve team).1 = "1" ∨
      ((⟨key, reading⟩ : Binding).resolve team).1 = "0" := by
  cases reading with
  | decimal =>
    have htwo : Reading.decimal.operand? "2" = some "2" := by decide +kernel
    exact iff_of_false id (not_isFlag_of_operand? htwo key)
  | integer =>
    have htwo : Reading.integer.operand? "2" = some "2" := by decide +kernel
    exact iff_of_false id (not_isFlag_of_operand? htwo key)
  | yes | no => exact iff_of_true trivial fun team => flag_cases _
  | selected segment => exact iff_of_true trivial fun team => flag_cases _
  | position segments =>
    simp only [resolve_position, ofList_natDigits_isFlag_iff]
    cases segments with
    | nil => exact iff_of_true trivial fun team => Nat.zero_le 1
    | cons first others =>
      simp only [selectedPlace_le_one_iff]
      constructor
      · rintro h team ⟨s, hs, hanswer⟩
        have hself : isAnswer s s = true := (isAnswer_congr hanswer s).trans hanswer
        exact (isAnswer_congr hanswer first).symm.trans (h s hs hself)
      · intro h s hs hself
        have hfirst := h (answering key s)
        rw [answer_answering] at hfirst
        exact hfirst ⟨s, hs, hself⟩

/-! ## Claims -/

namespace Field

/-- Whether the keys of a field are read as numbers that need not be `1` or `0`. -/
def hasNumberKeys : Field → Bool
  | textField _ _ | stepper _ | segmented _ => true
  | _ => false

/-- What a field claims is read as a flag, unless it is a key of the field in normal form. -/
theorem isFlag_or_key_of_mem_claims {f : Field} {identifier : String} {b : Binding}
    (h : (identifier, b) ∈ f.claims) : b.reading.IsFlag ∨
      f.hasNumberKeys = true ∧ b.key ∈ f.keys ∧ normalizeKey b.key = identifier := by
  cases f with
  | label _ | space | slider _ => simp [claims] at h
  | textField _ inputs | stepper inputs =>
    obtain ⟨key, hkey, heq⟩ := List.mem_map.mp h
    obtain ⟨rfl, rfl⟩ := Prod.mk.inj heq
    exact .inr ⟨rfl, hkey, rfl⟩
  | switch inputs =>
    obtain ⟨key, -, hclaim⟩ := List.mem_flatMap.mp h
    simp only [List.mem_cons, List.not_mem_nil, or_false, Prod.mk.injEq] at hclaim
    rcases hclaim with ⟨-, rfl⟩ | ⟨-, rfl⟩ | ⟨-, rfl⟩ <;> exact .inl trivial
  | segmented inputs =>
    rcases List.mem_append.mp h with h | h
    · obtain ⟨key, hkey, heq⟩ := List.mem_map.mp h
      obtain ⟨rfl, rfl⟩ := Prod.mk.inj heq
      exact .inr ⟨rfl, hkey, rfl⟩
    · obtain ⟨key, -, h⟩ := List.mem_flatMap.mp h
      obtain ⟨segment, -, heq⟩ := List.mem_map.mp h
      obtain ⟨-, rfl⟩ := Prod.mk.inj heq
      exact .inl trivial

end Field

/-! ## Cells -/

namespace Schema

variable {schema : Schema} {f : Field} {column : String} {b : Binding}

theorem boundCell_of_binding? (hb : schema.binding? column = some b) (team : Team) :
    schema.boundCell team column = (b.resolve team).1 := by
  rw [boundCell, hb]
  rfl

/-- The cell under a column of a switch or a segmented control is that of the column. -/
theorem mem_zip_fieldCells_iff (hflags : f.exportsFlags = true) {team : Team} {cell : String} :
    (column, cell) ∈ f.columns.zip (schema.fieldCells team f) ↔
      column ∈ f.columns ∧ schema.boundCell team column = cell := by
  have hzip : f.columns.zip (f.columns.map (schema.boundCell team)) =
      f.columns.map fun c => (c, schema.boundCell team c) := by
    simpa using @List.zip_map' _ _ _ id (schema.boundCell team) f.columns
  rw [cells_of_exportsFlags schema team hflags, hzip]
  constructor
  · intro h
    obtain ⟨c, hc, heq⟩ := List.mem_map.mp h
    obtain ⟨rfl, rfl⟩ := Prod.mk.inj heq
    exact ⟨hc, rfl⟩
  · rintro ⟨hc, rfl⟩
    exact List.mem_map_of_mem hc

/-- Every column of a switch or a segmented control is bound, and the cells under it are `1` or `0`
for every team exactly if its binding is read as a flag.  It is if no text field, stepper or segmented
control has a key with the column as its normal form. -/
theorem flagCells_iff (schema : Schema) {f : Field} (hf : f ∈ schema.fields)
    (hflags : f.exportsFlags = true) : ∀ column ∈ f.columns,
      (∃ b, schema.binding? column = some b ∧
        ((∀ team cell, (column, cell) ∈ f.columns.zip (schema.fieldCells team f) →
          cell = "1" ∨ cell = "0") ↔ b.reading.IsFlag)) ∧
      ((∀ g ∈ schema.fields, g.hasNumberKeys = true → ∀ key ∈ g.keys, normalizeKey key ≠ column) →
        ∀ team cell, (column, cell) ∈ f.columns.zip (schema.fieldCells team f) →
          cell = "1" ∨ cell = "0") := by
  intro column hcolumn
  obtain ⟨b, hb⟩ : ∃ b, schema.binding? column = some b :=
    exists_binding?_of_mem_columns hf hflags hcolumn
  have hcells : (∀ team cell, (column, cell) ∈ f.columns.zip (schema.fieldCells team f) →
      cell = "1" ∨ cell = "0") ↔ b.reading.IsFlag := by
    rw [b.reading.isFlag_iff b.key]
    refine forall_congr' fun team => ?_
    rw [← boundCell_of_binding? hb team]
    constructor
    · exact fun h => h _ ((mem_zip_fieldCells_iff hflags).mpr ⟨hcolumn, rfl⟩)
    · intro h cell hcell
      rw [← ((mem_zip_fieldCells_iff hflags).mp hcell).2]
      exact h
  refine ⟨⟨b, hb, hcells⟩, fun hkeys => hcells.mpr ?_⟩
  obtain ⟨g, hg, hclaim⟩ := exists_mem_claims_of_binding? hb
  rcases Field.isFlag_or_key_of_mem_claims hclaim with hflag | ⟨hnumber, hkey, hnormal⟩
  · exact hflag
  · exact absurd hnormal (hkeys g hg hnumber b.key hkey)

/-- Where a stepper in front of a switch has the key `climbed_yes`, the cells under `climbed_no` are
flags, and those under `climbed_yes` are not. -/
theorem flagCells_iff_climbFields :
    .switch ⟨[], ["Climbed"], ["climbed"]⟩ ∈ (ofFields climbFields).fields ∧
      (∀ team cell, ("climbed_no", cell) ∈ ["climbed_yes", "climbed_no"].zip
        ((ofFields climbFields).fieldCells team (.switch ⟨[], ["Climbed"], ["climbed"]⟩)) →
          cell = "1" ∨ cell = "0") ∧
      ¬ ∀ team cell, ("climbed_yes", cell) ∈ ["climbed_yes", "climbed_no"].zip
        ((ofFields climbFields).fieldCells team (.switch ⟨[], ["Climbed"], ["climbed"]⟩)) →
          cell = "1" ∨ cell = "0" := by
  have hswitch : .switch ⟨[], ["Climbed"], ["climbed"]⟩ ∈ (ofFields climbFields).fields := by
    simp [ofFields, climbFields]
  have hcolumns : (Field.switch ⟨[], ["Climbed"], ["climbed"]⟩).columns =
      ["climbed_yes", "climbed_no"] := by decide +kernel
  have hflags := flagCells_iff (ofFields climbFields) hswitch rfl
  rw [hcolumns] at hflags
  refine ⟨hswitch, (hflags "climbed_no" (by simp)).2 ?_, ?_⟩
  · decide +kernel
  · obtain ⟨⟨b, hb, hiff⟩, -⟩ := hflags "climbed_yes" (by simp)
    obtain rfl : (⟨"climbed_yes", .integer⟩ : Binding) = b := by
      have hbinding : (ofFields climbFields).binding? "climbed_yes" =
          some ⟨"climbed_yes", .integer⟩ := by decide +kernel
      simpa [hbinding] using hb
    exact fun h => hiff.mp h

/-- The cell under `climbed_yes` of that switch is the answer to the stepper. -/
theorem not_flagCells : ¬ ∀ fields : List Field,
    (∀ f ∈ fields, ∃ line, Field.parse line = .ok f) → ∀ f ∈ fields, f.exportsFlags = true →
      ∀ team, ∀ cell ∈ (ofFields fields).fieldCells team f, cell = "1" ∨ cell = "0" := by
  intro h
  have hlines : ∀ f ∈ climbFields, ∃ line, Field.parse line = .ok f := by
    rw [climbFields, List.forall_mem_cons, List.forall_mem_singleton]
    exact ⟨⟨"STEPPER ;; Gears, Climbs ;; Gear Count, climbed_yes".toList, by rfl⟩,
      "SWITCH ;; Climbed ;; climbed".toList, by rfl⟩
  have hcell := h climbFields hlines (.switch ⟨[], ["Climbed"], ["climbed"]⟩)
    (by simp [climbFields]) rfl climber "(-1)" (by decide +kernel)
  exact absurd hcell (by decide)

end Schema

end Scorecard
