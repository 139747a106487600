import Scorecard.Form.Schema

/-!
# Which claim counts

Every field claims identifiers, and the earliest claim of an identifier counts.  `Field.claims`
lists the claims of a field in order, and `Field.binding?` is what a field alone binds an identifier
to.

* The loops that fill the table of a form go through the claims of its fields in order
  (`BindingTable.ofFields_eq`).  An entry of the table is never overwritten, so an identifier has
  the binding of its first claim (`BindingTable.lookup_insertAll`, `Schema.binding?_eq_lookup`).
* The schema binds an identifier as the first field that claims it does
  (`Schema.binding?_eq_findSome?`), so the fields behind it do not matter
  (`Schema.binding?_append`).
* In a segmented control the keys come before the segments (`Field.binding?_segmented`).
* Every claim is that of a key of the field, or it is a column of the field
  (`Field.key_or_column_of_mem_claims`), and every column that holds a `1` or a `0` is claimed
  (`Field.isSome_binding?_of_mem_columns`).
* Whatever is bound is claimed by a field (`Schema.exists_mem_claims_of_binding?`), as an answer to
  a key of it (`Schema.exists_key_mem_of_binding?`).
-/

namespace Scorecard

/-! ## One field -/

/-- The identifiers that a field offers to formulas.  The answer to a slider cannot be named. -/
def Field.claims : Field → List (String × Binding)
  | .label _ | .space | .slider _ => []
  | .textField _ inputs => inputs.keys.map fun key => (normalizeKey key, ⟨key, .decimal⟩)
  | .stepper inputs => inputs.keys.map fun key => (normalizeKey key, ⟨key, .integer⟩)
  | .switch inputs => inputs.keys.flatMap fun key =>
      [(normalizeKey key, ⟨key, .yes⟩), (yesColumn key, ⟨key, .yes⟩), (noColumn key, ⟨key, .no⟩)]
  | .segmented inputs =>
      (inputs.keys.map fun key => (normalizeKey key, ⟨key, .position inputs.arguments⟩)) ++
        inputs.keys.head?.toList.flatMap fun key =>
          inputs.arguments.map fun segment => (segmentColumn key segment, ⟨key, .selected segment⟩)

namespace Field

/-- The binding that a field alone gives an identifier. -/
def binding? (f : Field) (identifier : String) : Option Binding := f.claims.lookup identifier

variable {f : Field} {identifier : String} {b : Binding}

theorem mem_claims_of_binding? (h : f.binding? identifier = some b) :
    (identifier, b) ∈ f.claims := by
  obtain ⟨before, after, hclaims, _⟩ := List.lookup_eq_some_iff.mp h
  simp [hclaims]

theorem isSome_binding? (h : (identifier, b) ∈ f.claims) :
    (f.binding? identifier).isSome = true := by
  rw [binding?, List.lookup_isSome_iff]
  exact ⟨(identifier, b), h, by simp⟩

/-- A claim is about a key of the field.  Its identifier is the normal form of this key, or a column
of the field. -/
theorem key_or_column_of_mem_claims (h : (identifier, b) ∈ f.claims) :
    b.key ∈ f.keys ∧ (normalizeKey b.key = identifier ∨ identifier ∈ f.columns) := by
  cases f with
  | label _ | space | slider _ => simp [claims] at h
  | textField _ inputs | stepper inputs =>
    obtain ⟨key, hkey, heq⟩ := List.mem_map.mp h
    obtain ⟨rfl, rfl⟩ := Prod.mk.inj heq
    exact ⟨hkey, .inl rfl⟩
  | switch inputs =>
    obtain ⟨key, hkey, hclaim⟩ := List.mem_flatMap.mp h
    have hcolumns : ∀ column ∈ [yesColumn key, noColumn key],
        column ∈ (switch inputs).columns := fun column hcolumn =>
      List.mem_flatMap.mpr ⟨key, hkey, hcolumn⟩
    simp only [List.mem_cons, List.not_mem_nil, or_false, Prod.mk.injEq] at hclaim
    rcases hclaim with ⟨rfl, rfl⟩ | ⟨rfl, rfl⟩ | ⟨rfl, rfl⟩
    · exact ⟨hkey, .inl rfl⟩
    · exact ⟨hkey, .inr (hcolumns _ (by simp))⟩
    · exact ⟨hkey, .inr (hcolumns _ (by simp))⟩
  | segmented inputs =>
    rcases List.mem_append.mp h with h | h
    · obtain ⟨key, hkey, heq⟩ := List.mem_map.mp h
      obtain ⟨rfl, rfl⟩ := Prod.mk.inj heq
      exact ⟨hkey, .inl rfl⟩
    · obtain ⟨key, hfirst, h⟩ := List.mem_flatMap.mp h
      obtain ⟨segment, hsegment, heq⟩ := List.mem_map.mp h
      obtain ⟨rfl, rfl⟩ := Prod.mk.inj heq
      have hkey : key ∈ inputs.keys := List.mem_of_mem_head? (Option.mem_toList.mp hfirst)
      exact ⟨hkey, .inr (List.mem_flatMap.mpr ⟨key, hfirst, List.mem_map_of_mem hsegment⟩)⟩

/-- What a field binds an identifier to is an answer to one of its keys. -/
theorem key_mem_of_binding? (h : f.binding? identifier = some b) : b.key ∈ f.keys :=
  (key_or_column_of_mem_claims (mem_claims_of_binding? h)).1

/-- Whether the columns of a field hold a `1` or a `0`. -/
def exportsFlags : Field → Bool
  | switch _ | segmented _ => true
  | _ => false

/-- A switch claims its columns, and so does a segmented control. -/
theorem isSome_binding?_of_mem_columns (hflags : f.exportsFlags = true) {column : String}
    (h : column ∈ f.columns) : (f.binding? column).isSome = true := by
  cases f with
  | switch inputs =>
    obtain ⟨key, hkey, hcolumn⟩ := List.mem_flatMap.mp h
    simp only [List.mem_cons, List.not_mem_nil, or_false] at hcolumn
    rcases hcolumn with rfl | rfl
    · refine isSome_binding? (b := ⟨key, .yes⟩) ?_
      exact List.mem_flatMap.mpr ⟨key, hkey, by simp⟩
    · refine isSome_binding? (b := ⟨key, .no⟩) ?_
      exact List.mem_flatMap.mpr ⟨key, hkey, by simp⟩
  | segmented inputs =>
    obtain ⟨key, hfirst, hcolumn⟩ := List.mem_flatMap.mp h
    obtain ⟨segment, hsegment, rfl⟩ := List.mem_map.mp hcolumn
    refine isSome_binding? (b := ⟨key, .selected segment⟩) ?_
    refine List.mem_append_right _ (List.mem_flatMap.mpr ⟨key, hfirst, ?_⟩)
    exact List.mem_map_of_mem hsegment
  | _ => exact absurd hflags (by simp [exportsFlags])

theorem lookup_map {α : Type} (name : α → String) (value : α → Binding) (as : List α)
    (identifier : String) : (as.map fun a => (name a, value a)).lookup identifier =
      (as.find? fun a => identifier == name a).map value := by
  induction as with
  | nil => rfl
  | cons a as ih =>
    rw [List.map_cons, List.lookup_cons, List.find?_cons, ih]
    cases identifier == name a <;> rfl

/-- A segmented control binds its keys before its segments, each in order. -/
theorem binding?_segmented (inputs : Inputs) (identifier : String) :
    (segmented inputs).binding? identifier =
      ((inputs.keys.find? fun key => identifier == normalizeKey key).map fun key =>
          ⟨key, .position inputs.arguments⟩).or
        (inputs.keys.head?.bind fun key =>
          (inputs.arguments.find? fun segment => identifier == segmentColumn key segment).map
            fun segment => ⟨key, .selected segment⟩) := by
  rw [binding?, claims, List.lookup_append, lookup_map]
  congr 1
  cases inputs.keys.head? with
  | none => rfl
  | some key => simp [lookup_map]

end Field

/-! ## The table -/

namespace BindingTable

/-- The table with a row of claims entered, each unless its identifier is bound already. -/
def insertAll (table : BindingTable) (claims : List (String × Binding)) : BindingTable :=
  claims.foldl (fun table claim => table.insertIfNew claim.1 claim.2) table

/-- A bound identifier keeps its binding. -/
theorem lookup_insertIfNew (table : BindingTable) (identifier other : String) (b : Binding) :
    (table.insertIfNew identifier b).lookup other =
      (table.lookup other).or ([(identifier, b)].lookup other) := by
  unfold insertIfNew
  split
  · next hbound =>
    cases hother : other == identifier with
    | false => simp [List.lookup_cons, hother]
    | true =>
      obtain rfl := eq_of_beq hother
      obtain ⟨old, hold⟩ := Option.isSome_iff_exists.mp hbound
      rw [hold, Option.some_or]
  · exact List.lookup_append

/-- An identifier has the binding that it had, else that of its first claim. -/
theorem lookup_insertAll (claims : List (String × Binding)) (table : BindingTable)
    (identifier : String) : (table.insertAll claims).lookup identifier =
      (table.lookup identifier).or (claims.lookup identifier) := by
  induction claims generalizing table with
  | nil => simp [insertAll]
  | cons claim claims ih =>
    have hfirst : table.insertAll (claim :: claims) =
        (table.insertIfNew claim.1 claim.2).insertAll claims := rfl
    have hcons : (claim :: claims).lookup identifier =
        ([claim].lookup identifier).or (claims.lookup identifier) := by
      rw [← List.lookup_append, List.singleton_append]
    rw [hfirst, ih, lookup_insertIfNew, hcons, Option.or_assoc]

end BindingTable

/-- The loops over the keys and segments of a field enter its claims in order. -/
theorem Field.bindInto_eq (f : Field) (table : BindingTable) :
    f.bindInto table = table.insertAll f.claims := by
  cases f with
  | label _ | space | slider _ => rfl
  | textField _ inputs | stepper inputs =>
    simp [bindInto, claims, BindingTable.insertAll, List.foldl_map]
  | switch inputs =>
    simp [bindInto, claims, BindingTable.insertAll, List.foldl_flatMap]
  | segmented inputs =>
    cases hfirst : inputs.keys.head? with
    | none => simp [bindInto, claims, BindingTable.insertAll, List.foldl_map, hfirst]
    | some key => simp [bindInto, claims, BindingTable.insertAll, List.foldl_map, hfirst]

/-- The loop over the fields enters all claims in order. -/
theorem BindingTable.ofFields_eq (fields : List Field) :
    ofFields fields = insertAll [] (fields.flatMap Field.claims) := by
  simp [ofFields, Field.bindInto_eq, insertAll, List.foldl_flatMap]

/-! ## The fields of a schema -/

namespace Schema

/-- An identifier has the binding of its first claim. -/
theorem binding?_eq_lookup (schema : Schema) (identifier : String) :
    schema.binding? identifier = (schema.fields.flatMap Field.claims).lookup identifier := by
  rw [binding?, schema.bindings_eq, BindingTable.ofFields_eq, BindingTable.lookup_insertAll]
  rfl

/-- An identifier is bound by the first field that claims it. -/
theorem binding?_eq_findSome? (schema : Schema) (identifier : String) :
    schema.binding? identifier = schema.fields.findSome? (·.binding? identifier) := by
  rw [binding?_eq_lookup]
  induction schema.fields with
  | nil => rfl
  | cons f fs ih =>
    rw [List.flatMap_cons, List.lookup_append, ih, List.findSome?_cons, Field.binding?]
    cases f.claims.lookup identifier <;> rfl

/-- A binding is that of a claim of some field. -/
theorem exists_mem_claims_of_binding? {schema : Schema} {identifier : String} {b : Binding}
    (h : schema.binding? identifier = some b) :
    ∃ f ∈ schema.fields, (identifier, b) ∈ f.claims := by
  rw [binding?_eq_findSome?] at h
  obtain ⟨f, hf, hb⟩ := List.exists_of_findSome?_eq_some h
  exact ⟨f, hf, Field.mem_claims_of_binding? hb⟩

/-- What an identifier is bound to is an answer to a key of some field. -/
theorem exists_key_mem_of_binding? {schema : Schema} {identifier : String} {b : Binding}
    (h : schema.binding? identifier = some b) : ∃ f ∈ schema.fields, b.key ∈ f.keys := by
  obtain ⟨f, hf, hclaim⟩ := exists_mem_claims_of_binding? h
  exact ⟨f, hf, (Field.key_or_column_of_mem_claims hclaim).1⟩

/-- What is bound by the first fields does not depend on the others. -/
theorem binding?_append (fs gs : List Field) (identifier : String) :
    (ofFields (fs ++ gs)).binding? identifier =
      ((ofFields fs).binding? identifier).or ((ofFields gs).binding? identifier) := by
  simp only [binding?_eq_findSome?, ofFields, List.findSome?_append]

end Schema

end Scorecard
