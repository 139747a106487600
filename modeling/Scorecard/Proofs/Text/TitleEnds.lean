import Scorecard.Proofs.Text.Padding
import Scorecard.Proofs.Text.Settled

/-!
# Ends of a title

Changing the case of a character never makes a blank, whatever the character is and however it
grows.  So a title has blanks at its ends only where its name has them.

* `isBlank_of_mem_cased`: a character that is not blank has no blank in its upper or lower case.
* `trimmed_eq_self_iff`: a text is trimmed exactly if it neither begins nor ends with a blank.
* `trimmed_titledFrom`: the title of a trimmed text is trimmed.
-/

namespace Scorecard.Text

/-! ## Blanks and the tables -/

/-- The code points of blanks. -/
def blankCodes : List Nat :=
  blankRanges.flatMap fun range => List.range' range.1 (range.2 + 1 - range.1)

theorem mem_blankCodes {c : Char} (h : isBlank c = true) : c.toNat ∈ blankCodes := by
  obtain ⟨range, hrange, hc⟩ := List.any_eq_true.mp h
  simp only [Bool.and_eq_true, decide_eq_true_eq] at hc
  refine List.mem_flatMap.mpr ⟨range, hrange, ?_⟩
  rw [List.mem_range'_1]
  omega

/-- No table takes a character to a blank. -/
theorem targets_apart_blanks :
    runMarks CaseRun.target lowerRuns &&& marks blankCodes = 0 ∧
      runMarks CaseRun.target upperRuns &&& marks blankCodes = 0 ∧
      ∀ expansion ∈ upperExpansions, ∀ code ∈ expansion.2, code ∉ blankCodes := by
  decide +kernel

theorem isBlank_ofNat {code : Nat} (h : code ∉ blankCodes) : isBlank (Char.ofNat code) = false := by
  rcases toNat_ofNat_eq code with hcode | hzero
  · rw [Bool.eq_false_iff]
    intro hblank
    apply h
    rw [← hcode]
    exact mem_blankCodes hblank
  · rw [hzero]
    decide

theorem isBlank_of_mapRuns {runs : List CaseRun} {code image : Nat}
    (happart : runMarks CaseRun.target runs &&& marks blankCodes = 0)
    (h : mapRuns runs code = some image) : isBlank (Char.ofNat image) = false := by
  apply isBlank_ofNat
  intro hmem
  have hboth := congrArg (·.testBit image) happart
  simp [(testBit_of_mapRuns h).2, testBit_marks hmem] at hboth

/-! ## Characters -/

variable {c d : Char}

theorem isBlank_of_mem_lowerChar (hc : isBlank c = false) (h : d ∈ lowerChar c) :
    isBlank d = false := by
  unfold lowerChar at h
  split at h
  · have hd : d = 'i' ∨ d = '\u0307' := by simpa using h
    rcases hd with rfl | rfl <;> decide
  · split at h
    · next image himage =>
      have hd : d = Char.ofNat image := by simpa using h
      rw [hd]
      exact isBlank_of_mapRuns targets_apart_blanks.1 himage
    · have hd : d = c := by simpa using h
      rw [hd]
      exact hc

theorem isBlank_of_mem_upperChar (hc : isBlank c = false) (h : d ∈ upperChar c) :
    isBlank d = false := by
  rcases upperChar_cases c with ⟨codes, hmem, heq⟩ | ⟨code, hcode, heq⟩ | ⟨-, heq⟩
  · rw [heq] at h
    obtain ⟨code, hcode, hd⟩ := List.mem_map.mp h
    rw [← hd]
    exact isBlank_ofNat (targets_apart_blanks.2.2 _ hmem code hcode)
  · rw [heq, List.mem_singleton] at h
    rw [h]
    exact isBlank_of_mapRuns targets_apart_blanks.2.1 hcode
  · rw [heq, List.mem_singleton] at h
    rw [h]
    exact hc

/-- Changing the case of a character makes no blank. -/
theorem isBlank_of_mem_cased {start : Bool} (hc : isBlank c = false) (h : d ∈ cased start c) :
    isBlank d = false := by
  cases start with
  | true => exact isBlank_of_mem_upperChar hc h
  | false => exact isBlank_of_mem_lowerChar hc h

theorem cased_ne_nil (start : Bool) (c : Char) : cased start c ≠ [] := by
  rcases cased_cases start c with h | ⟨d, ds, h, -⟩ <;> simp [h]

/-! ## Ends -/

theorem length_trimmed_le (cs : List Char) : (trimmed cs).length ≤ cs.length := by
  obtain ⟨front, back, -, -, hcs⟩ := padded_trimmed cs
  have hlength := congrArg List.length hcs
  simp only [List.length_append] at hlength
  omega

/-- A text that begins with a blank is not trimmed. -/
theorem trimmed_cons_ne (hc : isBlank c = true) (cs : List Char) : trimmed (c :: cs) ≠ c :: cs := by
  intro h
  have hblank : ∀ d ∈ [c], isBlank d := by simpa using hc
  have hdrop := trimmed_blanks_append hblank cs
  rw [List.singleton_append, h] at hdrop
  have hle := length_trimmed_le cs
  rw [← hdrop, List.length_cons] at hle
  omega

/-- A text is trimmed exactly if it neither begins nor ends with a blank. -/
theorem trimmed_eq_self_iff {cs : List Char} : trimmed cs = cs ↔
    (∀ c ∈ cs.head?, isBlank c = false) ∧ ∀ c ∈ cs.getLast?, isBlank c = false := by
  constructor
  · intro h
    constructor
    · cases cs with
      | nil => simp
      | cons c cs =>
        intro d hd
        rw [← Option.some.inj hd, Bool.eq_false_iff]
        exact fun hblank => trimmed_cons_ne hblank cs h
    · intro c hc
      rw [← h, trimmed, dropTrailingBlanks, List.getLast?_reverse] at hc
      exact head?_dropBlanks _ c hc
  · intro h
    have hfront : dropBlanks cs = cs := dropBlanks_of_head? h.1
    have hback : dropBlanks cs.reverse = cs.reverse :=
      dropBlanks_of_head? (by rw [List.head?_reverse]; exact h.2)
    rw [trimmed, hfront, dropTrailingBlanks, hback, List.reverse_reverse]

/-- The last character of a text has its case put behind the title of the characters before it. -/
theorem titledFrom_append_singleton (start : Bool) (cs : List Char) (c : Char) :
    ∃ inner, titledFrom start (cs ++ [c]) = titledFrom start cs ++ cased inner c := by
  induction cs generalizing start with
  | nil => exact ⟨start, by simp [titledFrom]⟩
  | cons d cs ih =>
    obtain ⟨inner, h⟩ := ih (d = ' ')
    exact ⟨inner, by simp [titledFrom, h]⟩

/-- The title of a trimmed text is trimmed. -/
theorem trimmed_titledFrom (start : Bool) {cs : List Char} (h : trimmed cs = cs) :
    trimmed (titledFrom start cs) = titledFrom start cs := by
  obtain ⟨hhead, hlast⟩ := trimmed_eq_self_iff.mp h
  rw [trimmed_eq_self_iff]
  constructor
  · cases cs with
    | nil => simp [titledFrom]
    | cons c cs =>
      intro d hd
      rw [titledFrom, List.head?_append_of_ne_nil _ (cased_ne_nil start c)] at hd
      exact isBlank_of_mem_cased (hhead c rfl) (List.mem_of_mem_head? hd)
  · rcases List.eq_nil_or_concat cs with rfl | ⟨front, c, rfl⟩
    · simp [titledFrom]
    · intro d hd
      obtain ⟨inner, htitle⟩ := titledFrom_append_singleton start front c
      rw [List.concat_eq_append, htitle,
        List.getLast?_append_of_ne_nil _ (cased_ne_nil inner c)] at hd
      exact isBlank_of_mem_cased (hlast c (by simp)) (List.mem_of_mem_getLast? hd)

end Scorecard.Text
