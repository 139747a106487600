import Scorecard.Proofs.Text.TitleCase

/-!
# Letters that case leaves alone

Changing the case of a letter a second time changes nothing, one character at a time.

* What the tables map to is on none of their runs (`lowerRuns_apart`, `upperRuns_apart`), and the
  tables map it no further (`mapRuns_of_mapRuns`).
* So the characters of a lower case are their own lower case (`lowerChar_of_mem_lowerChar`), those
  of a lower-cased text are too (`lowerChar_of_mem_lowered`), and such a text is its own lower case,
  whatever it stands in (`lowered_eq_self`).
* The first character of an upper case is its own upper case (`upperChar_of_head`).  The others need
  not be: they are capitals behind a capital.
-/

namespace Scorecard.Text

/-! ## Sets of code points -/

/-- Code points as the bits of a number.  The kernel computes with such numbers at once, so what is
said of the tables as a whole is checked on them and not entry by entry. -/
def marks (codes : List Nat) : Nat := codes.foldr (fun code set => 1 <<< code ||| set) 0

theorem testBit_marks {codes : List Nat} {code : Nat} (h : code ∈ codes) :
    (marks codes).testBit code = true := by
  induction codes with
  | nil => simp at h
  | cons other codes ih =>
    rw [marks, List.foldr_cons, Nat.testBit_or, Bool.or_eq_true]
    rcases List.mem_cons.mp h with rfl | h
    · exact .inl (by simp)
    · exact .inr (ih h)

/-- The code points of a run, counted from a given one. -/
def CaseRun.places (run : CaseRun) (start : Nat) : List Nat :=
  (List.range ((run.last - run.first) / run.step + 1)).map fun n => start + run.step * n

/-- The code points of all runs, counted from their sources or from their targets. -/
def runMarks (start : CaseRun → Nat) (runs : List CaseRun) : Nat :=
  runs.foldr (fun run set => marks (run.places (start run)) ||| set) 0

theorem testBit_runMarks {start : CaseRun → Nat} {runs : List CaseRun} {run : CaseRun}
    (hrun : run ∈ runs) {code : Nat} (hcode : code ∈ run.places (start run)) :
    (runMarks start runs).testBit code = true := by
  induction runs with
  | nil => simp at hrun
  | cons other runs ih =>
    rw [runMarks, List.foldr_cons, Nat.testBit_or, Bool.or_eq_true]
    rcases List.mem_cons.mp hrun with rfl | hrun
    · exact .inl (testBit_marks hcode)
    · exact .inr (ih hrun)

/-- A run takes its places to those of its target. -/
theorem CaseRun.mem_places {run : CaseRun} {code image : Nat} (h : run.map? code = some image) :
    code ∈ run.places run.first ∧ image ∈ run.places run.target := by
  unfold CaseRun.map? at h
  split at h
  · next hcode =>
    obtain ⟨hfirst, hlast, hstep⟩ := hcode
    obtain rfl : run.target + (code - run.first) = image := by simpa using h
    have hmul : run.step * ((code - run.first) / run.step) = code - run.first :=
      Nat.mul_div_cancel' (Nat.dvd_of_mod_eq_zero hstep)
    have hle : (code - run.first) / run.step ≤ (run.last - run.first) / run.step :=
      Nat.div_le_div_right (by omega)
    have hmem := List.mem_range.mpr (Nat.lt_succ_of_le hle)
    exact ⟨List.mem_map.mpr ⟨_, hmem, by omega⟩, List.mem_map.mpr ⟨_, hmem, by rw [hmul]⟩⟩
  · simp at h

section

variable {runs : List CaseRun} {code image : Nat}

theorem testBit_of_mapRuns (h : mapRuns runs code = some image) :
    (runMarks CaseRun.first runs).testBit code = true ∧
      (runMarks CaseRun.target runs).testBit image = true := by
  obtain ⟨run, hrun, hmap⟩ := List.exists_of_findSome?_eq_some h
  obtain ⟨hsource, htarget⟩ := CaseRun.mem_places hmap
  exact ⟨testBit_runMarks hrun hsource, testBit_runMarks hrun htarget⟩

/-- A code point that is not marked is on no run. -/
theorem mapRuns_of_testBit (h : (runMarks CaseRun.first runs).testBit code = false) :
    mapRuns runs code = none := by
  by_contra hsome
  obtain ⟨image, himage⟩ := Option.ne_none_iff_exists'.mp hsome
  rw [(testBit_of_mapRuns himage).1] at h
  exact absurd h (by decide)

/-- A code point that is not marked is no image. -/
theorem ne_of_mapRuns {other : Nat} (h : (runMarks CaseRun.target runs).testBit other = false)
    (himage : mapRuns runs code = some image) : image ≠ other := by
  rintro rfl
  rw [(testBit_of_mapRuns himage).2] at h
  exact absurd h (by decide)

/-- Images that are on no run are mapped no further. -/
theorem mapRuns_of_mapRuns (h : runMarks CaseRun.first runs &&& runMarks CaseRun.target runs = 0)
    (himage : mapRuns runs code = some image) : mapRuns runs image = none := by
  refine mapRuns_of_testBit ?_
  have hboth := congrArg (·.testBit image) h
  simpa [(testBit_of_mapRuns himage).2] using hboth

end

/-! ## The tables -/

/-- No lower case in the table has a lower case of its own, and none is `İ`. -/
theorem lowerRuns_apart :
    runMarks CaseRun.first lowerRuns &&& runMarks CaseRun.target lowerRuns = 0 ∧
      (runMarks CaseRun.target lowerRuns).testBit 'İ'.toNat = false := by
  decide +kernel

/-- No upper case in the table has an upper case of its own. -/
theorem upperRuns_apart :
    runMarks CaseRun.first upperRuns &&& runMarks CaseRun.target upperRuns = 0 := by
  decide +kernel

/-- No upper case in the table grows, and neither does the first character of an upper case that has
grown, nor has it an upper case of its own. -/
theorem upperExpansions_apart : ∀ expansion ∈ upperExpansions,
    (runMarks CaseRun.target upperRuns).testBit expansion.1 = false ∧
      ∀ code ∈ expansion.2.head?, (runMarks CaseRun.first upperRuns).testBit code = false ∧
        (marks (upperExpansions.map Prod.fst)).testBit code = false := by
  decide +kernel

/-- Of the characters that the definitions name all but the capital sigma are their own lower case,
and so is the one that stands for a code point without a character. -/
theorem lowerChar_named : lowerChar '\x00' = ['\x00'] ∧
    (lowerChar 'i' = ['i'] ∧ lowerChar '\u0307' = ['\u0307']) ∧
      (lowerChar 'ς' = ['ς'] ∧ lowerChar 'σ' = ['σ']) ∧ lowerChar 'Σ' ≠ ['Σ'] := by
  decide +kernel

/-! ## Lower case -/

theorem lowerChar_eq_self {c : Char} (hne : c ≠ 'İ') (h : mapRuns lowerRuns c.toNat = none) :
    lowerChar c = [c] := by
  rw [lowerChar, if_neg hne, h]

/-- The characters of a lower case are their own lower case. -/
theorem lowerChar_of_mem_lowerChar {c d : Char} (h : d ∈ lowerChar c) : lowerChar d = [d] := by
  unfold lowerChar at h
  split at h
  · have hd : d = 'i' ∨ d = '\u0307' := by simpa using h
    rcases hd with rfl | rfl
    · exact lowerChar_named.2.1.1
    · exact lowerChar_named.2.1.2
  · next hne =>
    split at h
    · next image himage =>
      obtain rfl : d = Char.ofNat image := by simpa using h
      rcases toNat_ofNat_eq image with hcode | hzero
      · refine lowerChar_eq_self (fun heq => ?_) ?_
        · rw [heq] at hcode
          exact ne_of_mapRuns lowerRuns_apart.2 himage hcode.symm
        · rw [hcode]
          exact mapRuns_of_mapRuns lowerRuns_apart.1 himage
      · rw [hzero]
        exact lowerChar_named.1
    · next hnone =>
      obtain rfl : d = c := by simpa using h
      exact lowerChar_eq_self hne hnone

theorem lowerChar_of_mem_loweredAfter {before cs : List Char} {d : Char}
    (h : d ∈ loweredAfter before cs) : lowerChar d = [d] := by
  induction cs generalizing before with
  | nil => simp [loweredAfter] at h
  | cons c cs ih =>
    rw [loweredAfter, List.mem_append] at h
    rcases h with h | h
    · split at h
      · have hd : d = 'ς' ∨ d = 'σ' := by
          split at h
          · exact .inl (by simpa using h)
          · exact .inr (by simpa using h)
        rcases hd with rfl | rfl
        · exact lowerChar_named.2.2.1.1
        · exact lowerChar_named.2.2.1.2
      · exact lowerChar_of_mem_lowerChar h
    · exact ih h

/-- The characters of a lower-cased text are their own lower case. -/
theorem lowerChar_of_mem_lowered {cs : List Char} {d : Char} (h : d ∈ lowered cs) :
    lowerChar d = [d] :=
  lowerChar_of_mem_loweredAfter h

theorem ne_sigma_of_lowerChar {c : Char} (h : lowerChar c = [c]) : c ≠ 'Σ' := by
  rintro rfl
  exact lowerChar_named.2.2.2 h

theorem loweredAfter_eq_self {cs : List Char} (h : ∀ c ∈ cs, lowerChar c = [c])
    (before : List Char) : loweredAfter before cs = cs := by
  induction cs generalizing before with
  | nil => rfl
  | cons c cs ih =>
    have hc := h c (by simp)
    rw [loweredAfter, if_neg (ne_sigma_of_lowerChar hc), hc, ih fun d hd => h d (by simp [hd])]
    rfl

/-- A text of characters that are their own lower case is its own lower case.  None of them is a
capital sigma, so it does not matter which letters stand around them. -/
theorem lowered_eq_self {cs : List Char} (h : ∀ c ∈ cs, lowerChar c = [c]) : lowered cs = cs :=
  loweredAfter_eq_self h []

/-- Changing a text to lower case one character at a time leaves the text alone exactly if each of
its characters is its own lower case. -/
theorem flatMap_lowerChar_eq_self_iff {cs : List Char} :
    cs.flatMap lowerChar = cs ↔ ∀ c ∈ cs, lowerChar c = [c] := by
  induction cs with
  | nil => simp
  | cons c cs ih =>
    rw [List.flatMap_cons, List.forall_mem_cons]
    rcases cased_cases false c with hkept | ⟨d, ds, hcased, hne⟩
    · have hlower : lowerChar c = [c] := hkept
      rw [hlower, List.singleton_append, List.cons_inj_right, ih]
      exact ⟨fun h => ⟨rfl, h⟩, fun h => h.2⟩
    · have hlower : lowerChar c = d :: ds := hcased
      rw [hlower, List.cons_append]
      refine ⟨fun h => absurd (List.cons.inj h).1 hne, fun ⟨h, _⟩ => ?_⟩
      exact absurd (List.cons.inj h).1 hne

/-! ## Upper case -/

theorem upperChar_eq_self {c : Char} (hgrows : upperExpansions.lookup c.toNat = none)
    (h : mapRuns upperRuns c.toNat = none) : upperChar c = [c] := by
  rw [upperChar, hgrows, h]

theorem lookup_upperExpansions_of_mapRuns {code image : Nat}
    (h : mapRuns upperRuns code = some image) : upperExpansions.lookup image = none := by
  rw [List.lookup_eq_none_iff]
  intro expansion hexpansion
  simpa using ne_of_mapRuns (upperExpansions_apart expansion hexpansion).1 h

/-- The first character of an upper case that has grown is its own upper case. -/
theorem upperChar_of_mem_upperExpansions {expansion : Nat × List Nat}
    (h : expansion ∈ upperExpansions) {code : Nat} (hcode : code ∈ expansion.2.head?) :
    upperChar (Char.ofNat code) = [Char.ofNat code] := by
  obtain ⟨hruns, hgrows⟩ := (upperExpansions_apart expansion h).2 code hcode
  have hmem : code ∈ expansion.2 := List.mem_of_mem_head? hcode
  have hvalid := ((codes_of_mem_upperExpansions expansion h).2.2.2 code hmem).1
  refine upperChar_eq_self ?_ ?_ <;> rw [toNat_ofNat_of_isValidChar hvalid]
  · rw [List.lookup_eq_none_iff]
    intro other hother
    rw [bne_iff_ne]
    rintro rfl
    rw [testBit_marks (List.mem_map_of_mem hother)] at hgrows
    exact absurd hgrows (by decide)
  · exact mapRuns_of_testBit hruns

/-- The first character of an upper case is its own upper case. -/
theorem upperChar_of_head {c d : Char} {ds : List Char} (h : upperChar c = d :: ds) :
    upperChar d = [d] := by
  rcases upperChar_cases c with ⟨codes, hmem, heq⟩ | ⟨code, hcode, heq⟩ | ⟨-, heq⟩
  · rw [heq] at h
    obtain ⟨code, rest, rfl, rfl, -⟩ := List.map_eq_cons_iff.mp h
    exact upperChar_of_mem_upperExpansions hmem (by simp)
  · obtain ⟨rfl, -⟩ : Char.ofNat code = d ∧ [] = ds := by simpa [heq] using h
    rcases toNat_ofNat_eq code with htoNat | hzero
    · refine upperChar_eq_self ?_ ?_ <;> rw [htoNat]
      · exact lookup_upperExpansions_of_mapRuns hcode
      · exact mapRuns_of_mapRuns upperRuns_apart hcode
    · rw [hzero]
      exact upperChar_ofNat 0 (by decide)
  · obtain ⟨rfl, -⟩ : c = d ∧ [] = ds := by simpa [heq] using h
    exact heq

end Scorecard.Text
