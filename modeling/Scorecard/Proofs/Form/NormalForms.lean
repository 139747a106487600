import Scorecard.Proofs.Form.Claims
import Scorecard.Proofs.Form.Keys
import Scorecard.Proofs.Text.Settled

/-!
# Normal forms are normal

The normal form of a key has a shape of its own, `IsNormalKey`: no separators, every character its
own lower case, no blanks at the ends.  What `normalizeKey` makes has this shape
(`isNormalKey_normalizeKey`), and it leaves alone what has it (`normalizeKey_eq_self_iff`), so
normalizing twice is normalizing once.  Lower case looks at the letters around a capital sigma, and
trimming changes what stands around it, but in a normal form there is none left.

Columns and identifiers are normal forms (`Field.isNormalKey_of_mem_columns`,
`Schema.isNormalKey_of_binding?`), and the validator knows exactly what has the normal form of a key
or of a column (`Schema.knows_iff`).
-/

namespace Scorecard

open Text

/-! ## The shape of a normal form -/

/-- A key in normal form. -/
structure IsNormalKey (key : String) : Prop where
  /-- There is no backslash, slash or space. -/
  not_isJoined : ∀ c ∈ key.toList, ¬ IsJoined c
  /-- Every character is its own lower case. -/
  lowerChar_eq : ∀ c ∈ key.toList, lowerChar c = [c]
  /-- There are no blanks at the ends. -/
  trimmed_eq : trimmed key.toList = key.toList

theorem isNormalKey_normalizeKey (raw : String) : IsNormalKey (normalizeKey raw) where
  not_isJoined _ hc := not_isJoined_of_mem_normalizeKey hc
  lowerChar_eq _ hc := lowerChar_of_mem_lowered (mem_lowered_of_mem_normalizeKey hc)
  trimmed_eq := by rw [toList_normalizeKey, trimmed_trimmed]

theorem IsNormalKey.normalizeKey_eq {key : String} (h : IsNormalKey key) :
    normalizeKey key = key := by
  have hjoiner : key.toList.map joiner = key.toList :=
    (List.map_congr_left fun c hc => if_neg (h.not_isJoined c hc)).trans (List.map_id _)
  rw [normalizeKey, hjoiner, lowered_eq_self h.lowerChar_eq, h.trimmed_eq, String.ofList_toList]

/-- Normalizing leaves exactly the normal forms alone. -/
theorem normalizeKey_eq_self_iff {key : String} : normalizeKey key = key ↔ IsNormalKey key := by
  constructor
  · intro h
    rw [← h]
    exact isNormalKey_normalizeKey key
  · exact IsNormalKey.normalizeKey_eq

theorem normalizeKey_normalizeKey (raw : String) :
    normalizeKey (normalizeKey raw) = normalizeKey raw :=
  (isNormalKey_normalizeKey raw).normalizeKey_eq

/-! ## Columns and identifiers -/

theorem Field.isNormalKey_of_mem_columns {f : Field} {column : String} (h : column ∈ f.columns) :
    IsNormalKey column := by
  suffices hraw : ∃ raw, column = normalizeKey raw by
    obtain ⟨raw, rfl⟩ := hraw
    exact isNormalKey_normalizeKey raw
  cases f with
  | label _ | space => simp [columns] at h
  | textField format inputs =>
    rw [columns] at h
    split at h
    · obtain ⟨key, -, rfl⟩ := List.mem_map.mp h
      exact ⟨key, rfl⟩
    · simp at h
  | stepper inputs | slider inputs =>
    obtain ⟨key, -, rfl⟩ := List.mem_map.mp h
    exact ⟨key, rfl⟩
  | switch inputs =>
    obtain ⟨key, -, hcolumn⟩ := List.mem_flatMap.mp h
    simp only [List.mem_cons, List.not_mem_nil, or_false] at hcolumn
    rcases hcolumn with rfl | rfl
    · exact ⟨key ++ "_yes", rfl⟩
    · exact ⟨key ++ "_no", rfl⟩
  | segmented inputs =>
    obtain ⟨key, -, hcolumn⟩ := List.mem_flatMap.mp h
    obtain ⟨segment, -, rfl⟩ := List.mem_map.mp hcolumn
    exact ⟨_, rfl⟩

namespace Schema

variable {schema : Schema}

theorem isNormalKey_of_binding? {identifier : String} {b : Binding}
    (h : schema.binding? identifier = some b) : IsNormalKey identifier := by
  obtain ⟨raw, rfl⟩ := exists_raw_of_binding? h
  exact isNormalKey_normalizeKey raw

/-- What is bound is the normal form of a key or a column of some field. -/
theorem exists_key_or_column_of_binding? {identifier : String} {b : Binding}
    (h : schema.binding? identifier = some b) :
    ∃ f ∈ schema.fields,
      (∃ key ∈ f.keys, normalizeKey key = identifier) ∨ identifier ∈ f.columns := by
  obtain ⟨f, hf, hclaim⟩ := exists_mem_claims_of_binding? h
  obtain ⟨hkey, hnormal | hcolumn⟩ := Field.key_or_column_of_mem_claims hclaim
  · exact ⟨f, hf, .inl ⟨b.key, hkey, hnormal⟩⟩
  · exact ⟨f, hf, .inr hcolumn⟩

/-- The validator knows exactly the identifiers with the normal form of a key or of a column. -/
theorem knows_iff {identifier : String} : schema.knows identifier = true ↔
    ∃ f ∈ schema.fields, (∃ key ∈ f.keys, normalizeKey key = normalizeKey identifier) ∨
      normalizeKey identifier ∈ f.columns := by
  simp only [knows, Bool.or_eq_true, List.any_eq_true, beq_iff_eq, List.contains_iff_mem]
  constructor
  · rintro (hbound | ⟨f, hf, hcolumn | hkey⟩)
    · obtain ⟨b, hb⟩ := Option.isSome_iff_exists.mp hbound
      exact exists_key_or_column_of_binding? hb
    · exact ⟨f, hf, .inr hcolumn⟩
    · exact ⟨f, hf, .inl hkey⟩
  · rintro ⟨f, hf, hkey | hcolumn⟩
    · exact .inr ⟨f, hf, .inr hkey⟩
    · exact .inr ⟨f, hf, .inl hcolumn⟩

/-- Normalizing is idempotent and leaves exactly the normal forms alone.  Every column of a schema
and every identifier that it binds is one.  The validator knows every key and every column, and
besides only what has the normal form of one of them. -/
theorem normalForms_known (schema : Schema) :
    (∀ raw, normalizeKey (normalizeKey raw) = normalizeKey raw) ∧
      (∀ key, normalizeKey key = key ↔ IsNormalKey key) ∧
      (∀ identifier b, schema.binding? identifier = some b → normalizeKey identifier = identifier) ∧
      (∀ f ∈ schema.fields,
        (∀ key ∈ f.keys, schema.knows key = true) ∧
        ∀ column ∈ f.columns, normalizeKey column = column ∧ schema.knows column = true) ∧
      ∀ identifier, schema.knows identifier = true →
        ∃ f ∈ schema.fields, (∃ key ∈ f.keys, normalizeKey key = normalizeKey identifier) ∨
          normalizeKey identifier ∈ f.columns := by
  refine ⟨normalizeKey_normalizeKey, fun _ => normalizeKey_eq_self_iff, fun _ _ hb => ?_,
    fun f hf => ⟨fun key hkey => ?_, fun column hcolumn => ?_⟩, fun _ => knows_iff.mp⟩
  · exact (isNormalKey_of_binding? hb).normalizeKey_eq
  · exact knows_iff.mpr ⟨f, hf, .inl ⟨key, hkey, rfl⟩⟩
  · have hnormal := (Field.isNormalKey_of_mem_columns hcolumn).normalizeKey_eq
    refine ⟨hnormal, knows_iff.mpr ⟨f, hf, .inr ?_⟩⟩
    rwa [hnormal]

/-- A switch whose key has a capital sigma in front of blanks at its end. -/
def roadFields : List Field := [.switch ⟨[], ["Road taken"], ["Ο ΔΡΟΜΟΣ\t"]⟩]

/-- The sigma ends a word in the key and in its columns, and it is the final one in both. -/
theorem normalForms_known_roadFields :
    .switch ⟨[], ["Road taken"], ["Ο ΔΡΟΜΟΣ\t"]⟩ ∈ (ofFields roadFields).fields ∧
      (ofFields roadFields).binding? "ο_δρομος" = some ⟨"Ο ΔΡΟΜΟΣ\t", .yes⟩ ∧
      normalizeKey "ο_δρομος" = "ο_δρομος" ∧
      (ofFields roadFields).knows "Ο ΔΡΟΜΟΣ\t" = true ∧
      normalizeKey "ο_δρομος\t_no" = "ο_δρομος\t_no" ∧
      (ofFields roadFields).knows "ο_δρομος\t_no" = true := by
  obtain ⟨-, -, hbound, hfields, -⟩ := normalForms_known (ofFields roadFields)
  have hfield : .switch ⟨[], ["Road taken"], ["Ο ΔΡΟΜΟΣ\t"]⟩ ∈ (ofFields roadFields).fields := by
    simp [ofFields, roadFields]
  have hb : (ofFields roadFields).binding? "ο_δρομος" = some ⟨"Ο ΔΡΟΜΟΣ\t", .yes⟩ := by
    decide +kernel
  obtain ⟨hkeys, hcolumns⟩ := hfields _ hfield
  obtain ⟨hnormal, hknown⟩ := hcolumns "ο_δρομος\t_no" (by decide +kernel)
  exact ⟨hfield, hb, hbound _ _ hb, hkeys _ (by decide), hnormal, hknown⟩

end Schema

end Scorecard
