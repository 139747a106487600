import Mathlib.Data.List.Nodup
import Scorecard.Form.Validation
import Scorecard.Proofs.Form.Lines
import Scorecard.Proofs.Text.TitleCase
import Scorecard.Report.Scoring

/-!
# Finding equations by their names

A report knows an equation by its title, and finds it by a name when the two are the same but for
the case of ASCII letters.  The validator compares titles exactly.

* Without warnings about names, all titles are different (`Form.HasClearNames.nodup_titles`).
* An author's own name finds his equation exactly if title case changes the case of ASCII letters
  only in it, and no earlier title is the same but for the case of ASCII letters
  (`Form.equationIndex?_name_eq_some_iff`).  Different titles that are the same but for the case of ASCII
  letters need a word that starts with a letter like `ß`, which grows by a capital
  (`Equation.title_eq_of_sameIgnoringAsciiCase`).
-/

namespace Scorecard

open Text

/-! ## Names without warnings -/

/-- Whether a warning is about the name of an equation. -/
def Warning.isAboutName : Warning → Bool
  | namelessEquation _ | repeatedName _ => true
  | _ => false

/-- The validator has no warning about the name of an equation. -/
def Form.HasClearNames (form : Form) : Prop := ∀ w ∈ form.warnings, w.isAboutName = false

theorem Field.isAboutName_of_mem_warnings {f : Field} {w : Warning} (h : w ∈ f.warnings) :
    w.isAboutName = false := by
  unfold Field.warnings at h
  split at h
  · simp at h
  · rcases List.mem_append.mp h with h | h
    · split at h
      · simp at h
      · obtain rfl := List.mem_singleton.mp h
        rfl
    · split at h
      · obtain rfl := List.mem_singleton.mp h
        split <;> rfl
      · simp at h

/-- Only what the validator says about equations can be about their names. -/
theorem Form.hasClearNames_iff (form : Form) : form.HasClearNames ↔
    ∀ w ∈ equationWarnings form.schema [] form.equations, w.isAboutName = false := by
  refine ⟨fun h w hw => h w (List.mem_append_right _ hw), fun h w hw => ?_⟩
  simp only [Form.warnings, List.mem_append] at hw
  rcases hw with ((hfield | hkey) | hcolumn) | hequation
  · obtain ⟨f, -, hw⟩ := List.mem_flatMap.mp hfield
    exact Field.isAboutName_of_mem_warnings hw
  · obtain ⟨key, -, hw⟩ := List.mem_filterMap.mp hkey
    split at hw
    · obtain rfl := Option.some.inj hw
      rfl
    · simp at hw
  · obtain ⟨column, -, rfl⟩ := List.mem_map.mp hcolumn
    rfl
  · exact h w hequation

theorem not_mem_of_nameWarnings {seen : List String} {e : Equation}
    (h : ∀ w ∈ nameWarnings seen e, w.isAboutName = false) : e.title ∉ seen := by
  intro hseen
  unfold nameWarnings at h
  split at h
  · exact Bool.noConfusion (h (.namelessEquation e) (by simp))
  · rw [if_pos (by simpa using hseen)] at h
    exact Bool.noConfusion (h (.repeatedName e.title) (by simp))

/-- Equations without warnings about their names have different titles, and none that was seen. -/
theorem nodup_titles_of_equationWarnings {schema : Schema} {seen : List String}
    {es : List Equation} (h : ∀ w ∈ equationWarnings schema seen es, w.isAboutName = false) :
    (es.map Equation.title).Nodup ∧ ∀ e ∈ es, e.title ∉ seen := by
  induction es generalizing seen with
  | nil => simp
  | cons e es ih =>
    simp only [equationWarnings, List.mem_append] at h
    have hname := not_mem_of_nameWarnings fun w hw => h w (.inl (.inl hw))
    obtain ⟨hnodup, hlater⟩ := ih fun w hw => h w (.inr hw)
    refine ⟨?_, ?_⟩
    · rw [List.map_cons, List.nodup_cons]
      refine ⟨fun hmem => ?_, hnodup⟩
      obtain ⟨e', he', heq⟩ := List.mem_map.mp hmem
      exact hlater e' he' (by simp [heq])
    · rw [List.forall_mem_cons]
      exact ⟨hname, fun e' he' hseen => hlater e' he' (List.mem_cons_of_mem _ hseen)⟩

theorem Form.HasClearNames.nodup_titles {form : Form} (h : form.HasClearNames) :
    (form.equations.map Equation.title).Nodup :=
  (nodup_titles_of_equationWarnings (form.hasClearNames_iff.mp h)).1

/-! ## Names and titles -/

theorem Equation.trim_name_of_parse {line : List Char} {e : Equation}
    (h : Equation.parse line = .ok e) : trim e.name = e.name := by
  unfold Equation.parse at h
  split at h
  · cases h
  · next name formula _ =>
    obtain rfl := Except.ok.inj h
    simp [trim, trimmed_trimmed]

/-- The equations of a form that has been read have no blanks at the ends of their names. -/
theorem Form.trim_name {text : String} {e : Equation} (he : e ∈ (parse text).equations) :
    trim e.name = e.name := by
  obtain ⟨line, -, hline⟩ := mem_equations_parse_iff.mp he
  exact Equation.trim_name_of_parse (Entry.ofLine?_eq_equation_iff.mp hline).2

/-- A name is the title of its equation, but for the case of ASCII letters, exactly if title case
changes the case of ASCII letters only. -/
theorem Equation.sameIgnoringAsciiCase_title_name (e : Equation) :
    sameIgnoringAsciiCase e.title e.name = true ↔ KeepsCase true e.name.toList := by
  rw [sameIgnoringAsciiCase, beq_iff_eq, Equation.title, toList_titleCase,
    asciiLowered_titledFrom_iff]

/-- Texts that are the same but for the case of ASCII letters compare alike with any text. -/
theorem sameIgnoringAsciiCase_of_right {s t : String} (h : sameIgnoringAsciiCase s t = true)
    (other : String) : sameIgnoringAsciiCase other s = sameIgnoringAsciiCase other t := by
  rw [sameIgnoringAsciiCase, beq_iff_eq] at h
  rw [sameIgnoringAsciiCase, sameIgnoringAsciiCase, h]

theorem Equation.title_eq_of_sameIgnoringAsciiCase {d e : Equation}
    (hd : StartsPlainly true d.name.toList) (he : StartsPlainly true e.name.toList)
    (h : sameIgnoringAsciiCase d.title e.title = true) : d.title = e.title := by
  rw [sameIgnoringAsciiCase, beq_iff_eq, Equation.title, Equation.title, toList_titleCase,
    toList_titleCase] at h
  have htitles := titledFrom_eq_of_asciiLowered_eq hd he h
  rwa [← toList_titleCase, ← toList_titleCase, String.toList_inj] at htitles

/-! ## Equations found by their names -/

namespace Form

/-- Without warnings about names, titles that begin their words plainly differ by more than the case
of ASCII letters. -/
theorem HasClearNames.sameIgnoringAsciiCase_eq_false {form : Form} (h : form.HasClearNames)
    {i j : Nat} (hj : j < i) (hi : i < form.equations.length)
    (hplain : ∀ k (hk : k ≤ i), StartsPlainly true (form.equations[k]).name.toList) :
    sameIgnoringAsciiCase (form.equations[j]).title (form.equations[i]).title = false := by
  by_contra hsame
  rw [Bool.not_eq_false] at hsame
  have htitles := Equation.title_eq_of_sameIgnoringAsciiCase (hplain j (Nat.le_of_lt hj))
    (hplain i (Nat.le_refl i)) hsame
  have hlength : i < (form.equations.map Equation.title).length := by simpa using hi
  have hequal : (form.equations.map Equation.title)[j] =
      (form.equations.map Equation.title)[i] := by simpa using htitles
  have hindices : j = i := h.nodup_titles.getElem_inj_iff.mp hequal
  omega

section

variable {text : String} (teams : List Team) (id : Identifier) (createdAt : Timestamp)
  (milliseconds : UInt64) {i : Nat} (hi : i < (parse text).equations.length)

/-- The first title that is an author's name, but for the case of ASCII letters, is his own title
exactly if it is such a title at all and no earlier title is one. -/
theorem equationIndex?_name_eq_some_iff :
    ((parse text).report teams id createdAt milliseconds).equationIndex?
        ((parse text).equations[i]).name = some i ↔
      KeepsCase true ((parse text).equations[i]).name.toList ∧
        ∀ j (hj : j < i), sameIgnoringAsciiCase ((parse text).equations[j]).title
          ((parse text).equations[i]).title = false := by
  have hkeeps := Equation.sameIgnoringAsciiCase_title_name ((parse text).equations[i])
  rw [Report.equationIndex?, trim_name (List.getElem_mem hi), List.findIdx?_eq_some_iff_getElem]
  simp only [report, List.getElem_map, List.length_map, Bool.not_eq_true]
  rw [← hkeeps]
  constructor
  · rintro ⟨_, hown, hearlier⟩
    refine ⟨hown, fun j hj => ?_⟩
    rw [sameIgnoringAsciiCase_of_right hown]
    exact hearlier j hj
  · rintro ⟨hown, hearlier⟩
    refine ⟨hi, hown, fun j hj => ?_⟩
    rw [← sameIgnoringAsciiCase_of_right hown]
    exact hearlier j hj

/-- Let the validator have no warning about the names of a form's equations.  In a report on the
form, the name that its author wrote finds an equation exactly if title case changes the case of
ASCII letters only in that name, and no earlier title is the same as this one but for the case of ASCII
letters.  There is no such earlier title if in none of the names a word starts with a letter that
grows by a capital when it is made upper case. -/
theorem equationIndex?_name_iff (h : (parse text).HasClearNames) :
    (((parse text).report teams id createdAt milliseconds).equationIndex?
        ((parse text).equations[i]).name = some i ↔
      KeepsCase true ((parse text).equations[i]).name.toList ∧
        ∀ j (hj : j < i), sameIgnoringAsciiCase ((parse text).equations[j]).title
          ((parse text).equations[i]).title = false) ∧
    ((∀ k (hk : k ≤ i), StartsPlainly true ((parse text).equations[k]).name.toList) →
      (((parse text).report teams id createdAt milliseconds).equationIndex?
          ((parse text).equations[i]).name = some i ↔
        KeepsCase true ((parse text).equations[i]).name.toList)) := by
  have hiff := equationIndex?_name_eq_some_iff teams id createdAt milliseconds hi
  refine ⟨hiff, fun hplain => hiff.trans ⟨fun hfound => hfound.1, fun hkeeps => ⟨hkeeps, ?_⟩⟩⟩
  exact fun j hj => h.sameIgnoringAsciiCase_eq_false hj hi hplain

/-- Names in ASCII find their equations. -/
theorem equationIndex?_name_of_ascii (h : (parse text).HasClearNames)
    (hascii : ∀ e ∈ (parse text).equations, ∀ c ∈ e.name.toList, c.toNat < 128) :
    ((parse text).report teams id createdAt milliseconds).equationIndex?
      ((parse text).equations[i]).name = some i := by
  refine (equationIndex?_name_eq_some_iff teams id createdAt milliseconds hi).mpr
    ⟨keepsCase_of_ascii true (hascii _ (List.getElem_mem hi)), fun j hj => ?_⟩
  refine h.sameIgnoringAsciiCase_eq_false hj hi fun k hk => ?_
  exact startsPlainly_of_ascii true (hascii _ (List.getElem_mem _))

end

end Form

/-- A form whose second equation has a capital beyond ASCII at the start of its name. -/
def schoolText : String := "Auto = 1\nÉcole Total = 2"

/-- The name finds the second equation. -/
theorem equationIndex?_name_schoolText :
    (Form.parse schoolText).HasClearNames ∧
      (Form.parse schoolText).equations[1]? = some ⟨"École Total", "2"⟩ ∧
      ((Form.parse schoolText).report [] ⟨0⟩ ⟨⟨2024, 1, 2, by decide⟩, 0, 0, 0⟩ 0).equationIndex?
        "École Total" = some 1 := by
  have hclear : (Form.parse schoolText).HasClearNames :=
    (Form.hasClearNames_iff _).mpr (by decide +kernel)
  have hequation : (Form.parse schoolText).equations[1]? = some ⟨"École Total", "2"⟩ := by
    decide +kernel
  obtain ⟨hi, hname⟩ := List.getElem?_eq_some_iff.mp hequation
  obtain ⟨hiff, -⟩ := Form.equationIndex?_name_iff [] ⟨0⟩ ⟨⟨2024, 1, 2, by decide⟩, 0, 0, 0⟩ 0 hi
    hclear
  rw [hname] at hiff
  refine ⟨hclear, hequation, hiff.mpr ⟨by decide +kernel, fun j hj => ?_⟩⟩
  obtain rfl : j = 0 := by omega
  have hfirst : (Form.parse schoolText).equations[0]? = some ⟨"Auto", "1"⟩ := by decide +kernel
  obtain ⟨_, hfirst⟩ := List.getElem?_eq_some_iff.mp hfirst
  rw [hfirst]
  decide +kernel

/-- The title of `été` begins with another letter, so the name does not find its equation although
the validator has nothing to say about it. -/
theorem not_equationIndex?_name :
    ¬ ∀ text teams id createdAt milliseconds, (Form.parse text).HasClearNames →
      ∀ i (hi : i < (Form.parse text).equations.length),
        ((Form.parse text).report teams id createdAt milliseconds).equationIndex?
          ((Form.parse text).equations[i]).name = some i := by
  intro h
  have hfound := h "été = 1" [] ⟨0⟩ ⟨⟨2024, 1, 2, by decide⟩, 0, 0, 0⟩ 0
    ((Form.hasClearNames_iff _).mpr (by decide +kernel)) 0 (by decide +kernel)
  exact absurd hfound (by decide +kernel)

end Scorecard
