import Mathlib.Data.List.Nodup
import Scorecard.Proofs.Form.Cells
import Scorecard.Proofs.Number.Digits

/-!
# Columns of segments

The columns of a segmented control are flags, one for each segment, and the key itself stands for
the place of the selected segment.  Where the columns are distinct and the control's claims count,
the two agree: the flag at the place of the selected segment is `1` and every other flag is `0`
(`Schema.segmentCells_oneHot`).

Segments and columns are compared differently.  An answer selects a segment of the same lower case,
and a column is the lower case of the key and the segment with an underscore between them.  A
capital sigma looks at the letters around it, but not across the underscore, which has no case and
is not passed over.  So:

* `Text.lowered_append_underscore`: lower case maps what stands before an underscore and what stands
  behind it separately.
* `lowered_map_joiner`: it does not matter whether characters are joined before lower case or after.
* `segmentColumn_congr`: segments of the same lower case have the same column, so an answer that
  selects two segments makes two equal columns (`segmentColumn_eq_of_isAnswer`).
-/

namespace Scorecard

open Text

/-! ## Lower case across an underscore -/

namespace Text

theorem startsCased_cons (c : Char) (cs : List Char) :
    startsCased (c :: cs) = if isCaseIgnorable c then startsCased cs else isCased c := by
  cases h : isCaseIgnorable c <;> simp [startsCased, h]

/-- The search for a cased letter ends at an underscore. -/
theorem startsCased_append_underscore (cs ds : List Char) :
    startsCased (cs ++ '_' :: ds) = startsCased cs := by
  induction cs with
  | nil =>
    have hstop : isCaseIgnorable '_' = false ∧ isCased '_' = false := by decide +kernel
    rw [List.nil_append, startsCased_cons, hstop.1, hstop.2]
    rfl
  | cons c cs ih => rw [List.cons_append, startsCased_cons, startsCased_cons, ih]

/-- What stands before an underscore does not matter behind it. -/
theorem loweredAfter_append_underscore (before rest cs : List Char) :
    loweredAfter (before ++ '_' :: rest) cs = loweredAfter before cs := by
  induction cs generalizing before with
  | nil => rfl
  | cons c cs ih =>
    rw [loweredAfter, loweredAfter, startsCased_append_underscore, ← List.cons_append, ih]

theorem lowered_append_underscore (cs ds : List Char) :
    lowered (cs ++ '_' :: ds) = lowered cs ++ '_' :: lowered ds := by
  suffices h : ∀ before, loweredAfter before (cs ++ '_' :: ds) =
      loweredAfter before cs ++ '_' :: lowered ds from h []
  induction cs with
  | nil =>
    intro before
    have hunderscore : lowerChar '_' = ['_'] := by decide +kernel
    have hbehind : loweredAfter ('_' :: before) ds = lowered ds :=
      loweredAfter_append_underscore [] before ds
    show (if '_' = 'Σ' then _ else lowerChar '_') ++ loweredAfter ('_' :: before) ds = _
    rw [if_neg (by decide), hunderscore, hbehind]
    rfl
  | cons c cs ih =>
    intro before
    rw [List.cons_append, loweredAfter, loweredAfter, startsCased_append_underscore, ih,
      List.append_assoc]

end Text

/-! ## Lower case of joined characters -/

theorem joiner_of_isJoined {c : Char} (h : IsJoined c) : joiner c = '_' := if_pos h

theorem joiner_of_not_isJoined {c : Char} (h : ¬ IsJoined c) : joiner c = c := if_neg h

theorem startsCased_map_joiner (cs : List Char) : startsCased (cs.map joiner) = startsCased cs := by
  induction cs with
  | nil => rfl
  | cons c cs ih =>
    rw [List.map_cons, startsCased_cons, startsCased_cons, ih]
    by_cases hc : IsJoined c
    · have hsame : isCaseIgnorable c = isCaseIgnorable '_' ∧ isCased c = isCased '_' := by
        rcases hc with rfl | rfl | rfl <;> decide +kernel
      rw [joiner_of_isJoined hc, hsame.1, hsame.2]
    · rw [joiner_of_not_isJoined hc]

theorem lowerChar_joiner (c : Char) : lowerChar (joiner c) = (lowerChar c).map joiner := by
  by_cases hc : IsJoined c
  · rw [lowerChar_of_isJoined hc, List.map_singleton, joiner_of_isJoined hc]
    decide +kernel
  · have hkept : ∀ d ∈ lowerChar c, joiner d = d := by
      intro d hd
      apply joiner_of_not_isJoined
      rcases mem_lowerChar_cases hd with ⟨rfl, -⟩ | hlater | rfl
      · exact hc
      · exact not_isJoined_of_le hlater
      · decide
    rw [joiner_of_not_isJoined hc, List.map_congr_left hkept, List.map_id']

theorem lowered_map_joiner (cs : List Char) :
    lowered (cs.map joiner) = (lowered cs).map joiner := by
  suffices h : ∀ before, loweredAfter (before.map joiner) (cs.map joiner) =
      (loweredAfter before cs).map joiner from h []
  induction cs with
  | nil => exact fun _ => rfl
  | cons c cs ih =>
    intro before
    rw [List.map_cons, loweredAfter, loweredAfter, startsCased_map_joiner, startsCased_map_joiner,
      List.map_append, ← ih (c :: before), List.map_cons]
    congr 1
    by_cases hc : c = 'Σ'
    · subst hc
      cases startsCased before && !startsCased cs <;> decide +kernel
    · have hjoined : joiner c ≠ 'Σ' := by
        unfold joiner
        split
        · decide
        · exact hc
      rw [if_neg hc, if_neg hjoined, lowerChar_joiner]

/-! ## Columns and answers -/

/-- Segments that differ at most in letter case and in blanks at the ends have the same column. -/
theorem segmentColumn_congr (key : String) {s t : String}
    (h : lowered (trimmed s.toList) = lowered (trimmed t.toList)) :
    segmentColumn key s = segmentColumn key t := by
  have hcolumn : ∀ u : String, lowered ((key ++ "_" ++ trim u).toList.map joiner) =
      (lowered key.toList ++ '_' :: lowered (trimmed u.toList)).map joiner := by
    intro u
    rw [lowered_map_joiner, ← lowered_append_underscore]
    simp
  rw [segmentColumn, segmentColumn, normalizeKey, normalizeKey, hcolumn, hcolumn, h]

/-- Segments that the same answer selects have the same column. -/
theorem segmentColumn_eq_of_isAnswer {raw s t : String} (hs : isAnswer raw s = true)
    (ht : isAnswer raw t = true) (key : String) : segmentColumn key s = segmentColumn key t := by
  have hlower : ∀ u : String, isAnswer raw u = true →
      lowered (trimmed raw.toList) = lowered (trimmed u.toList) := by
    intro u hu
    simp only [isAnswer, Bool.and_eq_true, beq_iff_eq] at hu
    exact hu.2
  exact segmentColumn_congr key ((hlower s hs).symm.trans (hlower t ht))

/-- The place of the selected segment, counted from one; `0` if none is selected. -/
def selectedPlace (segments : List String) (raw : String) : Nat :=
  (segments.findIdx? (isAnswer raw)).elim 0 (· + 1)

theorem resolve_position (key : String) (segments : List String) (team : Team) :
    (⟨key, .position segments⟩ : Binding).resolve team =
      (String.ofList (Number.natDigits (selectedPlace segments (team.answer key))), none) :=
  rfl

theorem resolve_selected (key segment : String) (team : Team) :
    (⟨key, .selected segment⟩ : Binding).resolve team =
      (flag (isAnswer (team.answer key) segment), none) :=
  rfl

theorem selectedPlace_le (segments : List String) (raw : String) :
    selectedPlace segments raw ≤ segments.length := by
  unfold selectedPlace
  cases h : segments.findIdx? (isAnswer raw) with
  | none => exact Nat.zero_le _
  | some i =>
    obtain ⟨hlt, -⟩ := List.findIdx?_eq_some_iff_getElem.mp h
    exact hlt

/-- With distinct columns the selected place is the only one whose segment the answer selects. -/
theorem isAnswer_iff_selectedPlace {key : String} {segments : List String}
    (hnodup : (segments.map (segmentColumn key)).Nodup) (raw : String) (i : Nat)
    (hi : i < segments.length) :
    isAnswer raw segments[i] = true ↔ i + 1 = selectedPlace segments raw := by
  unfold selectedPlace
  cases h : segments.findIdx? (isAnswer raw) with
  | none =>
    have hnone : isAnswer raw segments[i] = false :=
      List.findIdx?_eq_none_iff.mp h _ (List.getElem_mem hi)
    simp [hnone]
  | some k =>
    obtain ⟨hk, hanswer, -⟩ := List.findIdx?_eq_some_iff_getElem.mp h
    constructor
    · intro hsame
      have hcolumn := segmentColumn_eq_of_isAnswer hsame hanswer key
      have hik : i = k := by
        have hi' : i < (segments.map (segmentColumn key)).length := by simpa
        have hk' : k < (segments.map (segmentColumn key)).length := by simpa
        have hequal : (segments.map (segmentColumn key))[i] =
            (segments.map (segmentColumn key))[k] := by simpa using hcolumn
        exact hnodup.getElem_inj_iff.mp hequal
      simp [hik]
    · intro hplace
      obtain rfl : i = k := by simpa using hplace
      exact hanswer

/-! ## Flags -/

theorem count_flags_le (n p : Nat) :
    ((List.range n).map fun i => if i + 1 = p then "1" else "0").count "1" ≤ 1 := by
  have hone : ((fun cell => cell == "1") ∘ fun i => if i + 1 = p then "1" else "0") =
      fun i => i + 1 == p := by
    funext i
    by_cases h : i + 1 = p <;> simp [h]
  rw [List.count, List.countP_map, hone]
  cases p with
  | zero => simp
  | succ p =>
    have hcount : (List.range n).countP (fun i => i + 1 == p + 1) = (List.range n).count p := by
      simp [List.count]
    rw [hcount]
    exact List.nodup_iff_count_le_one.mp List.nodup_range p

theorem flags_eq_zero_iff {n p : Nat} (h : p ≤ n) :
    (∀ cell ∈ (List.range n).map fun i => if i + 1 = p then "1" else "0", cell = "0") ↔ p = 0 := by
  constructor
  · intro hzero
    by_contra hp
    have hcell := hzero "1" (List.mem_map.mpr ⟨p - 1, List.mem_range.mpr (by omega),
      if_pos (by omega)⟩)
    exact absurd hcell (by decide)
  · rintro rfl cell hcell
    obtain ⟨i, -, rfl⟩ := List.mem_map.mp hcell
    exact if_neg (by omega)

/-! ## Cells -/

namespace Schema

/-- The claims of a segmented control with this first key count, and its columns are distinct. -/
structure OwnsSegments (schema : Schema) (inputs : Inputs) (key : String) : Prop where
  head?_keys : inputs.keys.head? = some key
  nodup_columns : (Field.segmented inputs).columns.Nodup
  binding?_key : schema.binding? (normalizeKey key) = some ⟨key, .position inputs.arguments⟩
  binding?_segment : ∀ segment ∈ inputs.arguments,
    schema.binding? (segmentColumn key segment) = some ⟨key, .selected segment⟩

variable {schema : Schema} {inputs : Inputs} {key : String}

theorem columns_segmented (h : inputs.keys.head? = some key) :
    (Field.segmented inputs).columns = inputs.arguments.map (segmentColumn key) := by
  rw [Field.columns, h]
  simp

/-- The flag of a segment is set exactly if the segment stands at the selected place. -/
theorem OwnsSegments.fieldCells_eq (h : schema.OwnsSegments inputs key) (team : Team) :
    schema.fieldCells team (.segmented inputs) = (List.range inputs.arguments.length).map fun i =>
      if i + 1 = selectedPlace inputs.arguments (team.answer key) then "1" else "0" := by
  have hcolumns := columns_segmented h.head?_keys
  have hnodup : (inputs.arguments.map (segmentColumn key)).Nodup := hcolumns ▸ h.nodup_columns
  have hcells : schema.fieldCells team (.segmented inputs) =
      inputs.arguments.map fun segment => flag (isAnswer (team.answer key) segment) := by
    rw [cells_of_exportsFlags schema team rfl, hcolumns, List.map_map]
    refine List.map_congr_left fun segment hsegment => ?_
    simp [boundCell, h.binding?_segment segment hsegment, resolve_selected]
  rw [hcells]
  refine List.ext_getElem (by simp) fun i hi _ => ?_
  have hiff := isAnswer_iff_selectedPlace hnodup (team.answer key) i (by simpa using hi)
  simp [flag, hiff]

/-- The cells of a field stand together in the row of a team, right under the field's columns. -/
theorem exists_cells_eq_append {f : Field} (hf : f ∈ schema.fields) (team : Team) :
    ∃ columnsBefore columnsAfter cellsBefore cellsAfter,
      schema.columns = columnsBefore ++ f.columns ++ columnsAfter ∧
      schema.cells team = cellsBefore ++ schema.fieldCells team f ++ cellsAfter ∧
      cellsBefore.length = columnsBefore.length := by
  obtain ⟨before, after, hfields⟩ := List.append_of_mem hf
  refine ⟨before.flatMap Field.columns, after.flatMap Field.columns,
    before.flatMap (schema.fieldCells team), after.flatMap (schema.fieldCells team), ?_, ?_, ?_⟩
  · simp [columns, hfields]
  · simp [cells, hfields]
  · simp only [List.length_flatMap, length_fieldCells]

/-- The identifier of a key stands for this place among the segments. -/
def ResolvesTo (schema : Schema) (team : Team) (key : String) (place : Nat) : Prop :=
  ∃ b, schema.binding? (normalizeKey key) = some b ∧
    b.resolve team = (String.ofList (Number.natDigits place), none)

theorem OwnsSegments.resolvesTo_iff (h : schema.OwnsSegments inputs key) (team : Team) (p : Nat) :
    schema.ResolvesTo team key p ↔ p = selectedPlace inputs.arguments (team.answer key) := by
  constructor
  · rintro ⟨b, hb, hresolve⟩
    obtain rfl : (⟨key, .position inputs.arguments⟩ : Binding) = b := by
      simpa [h.binding?_key] using hb
    rw [resolve_position] at hresolve
    have hdigits := congrArg Number.ofDigits (String.ofList_injective (congrArg Prod.fst hresolve))
    rw [Number.ofDigits_natDigits, Number.ofDigits_natDigits] at hdigits
    exact hdigits.symm
  · rintro rfl
    exact ⟨_, h.binding?_key, resolve_position ..⟩

/-- In a row, the cells under the columns of a segmented control are `0` but for the one at the
place that the first key stands for, which is `1`.  So at most one of them is set, and none exactly
if the place is `0`. -/
theorem segmentCells_oneHot (hfield : .segmented inputs ∈ schema.fields)
    (howns : schema.OwnsSegments inputs key) (team : Team) :
    (∃ columnsBefore columnsAfter cellsBefore cellsAfter,
      schema.columns =
        columnsBefore ++ inputs.arguments.map (segmentColumn key) ++ columnsAfter ∧
      schema.cells team =
        cellsBefore ++ schema.fieldCells team (.segmented inputs) ++ cellsAfter ∧
      cellsBefore.length = columnsBefore.length) ∧
    (∃ p ≤ inputs.arguments.length, schema.ResolvesTo team key p) ∧
    ∀ p, schema.ResolvesTo team key p →
      (schema.fieldCells team (.segmented inputs) =
        (List.range inputs.arguments.length).map fun i => if i + 1 = p then "1" else "0") ∧
      (schema.fieldCells team (.segmented inputs)).count "1" ≤ 1 ∧
      ((∀ cell ∈ schema.fieldCells team (.segmented inputs), cell = "0") ↔ p = 0) := by
  have hle := selectedPlace_le inputs.arguments (team.answer key)
  refine ⟨?_, ⟨_, hle, (howns.resolvesTo_iff team _).mpr rfl⟩, fun p hp => ?_⟩
  · rw [← columns_segmented howns.head?_keys]
    exact exists_cells_eq_append hfield team
  · have hcells := howns.fieldCells_eq team
    rw [← (howns.resolvesTo_iff team p).mp hp] at hle hcells
    rw [hcells]
    exact ⟨rfl, count_flags_le _ p, flags_eq_zero_iff hle⟩

/-- The field of a line whose segments end in a capital sigma, in several letter cases. -/
def sigmaInputs : Inputs := ⟨["ΟΔΟΣ", "High Goal", "low"], ["Shot"], ["Auto Shot"]⟩

/-- An answer that differs from the first segment in the sigma's letter case sets the first flag. -/
theorem segmentCells_oneHot_sigma :
    Field.parse "SEGMENTED_CONTROL<ΟΔΟΣ, High Goal, low> ;; Shot ;; Auto Shot".toList =
      .ok (.segmented sigmaInputs) ∧
    .segmented sigmaInputs ∈ (ofFields [.segmented sigmaInputs]).fields ∧
    (ofFields [.segmented sigmaInputs]).OwnsSegments sigmaInputs "Auto Shot" ∧
    (ofFields [.segmented sigmaInputs]).fieldCells ⟨"254", [("auto_shot", " οδος ")]⟩
      (.segmented sigmaInputs) = ["1", "0", "0"] := by
  have hfield : .segmented sigmaInputs ∈ (ofFields [.segmented sigmaInputs]).fields := by
    simp [ofFields]
  have howns : (ofFields [.segmented sigmaInputs]).OwnsSegments sigmaInputs "Auto Shot" :=
    ⟨by decide, by decide +kernel, by decide +kernel, by decide +kernel⟩
  obtain ⟨-, -, hcells⟩ := segmentCells_oneHot hfield howns ⟨"254", [("auto_shot", " οδος ")]⟩
  have hplace : (ofFields [.segmented sigmaInputs]).ResolvesTo
      ⟨"254", [("auto_shot", " οδος ")]⟩ "Auto Shot" 1 :=
    ⟨_, howns.binding?_key, by decide +kernel⟩
  exact ⟨by rfl, hfield, howns, (hcells 1 hplace).1⟩

end Schema

end Scorecard
