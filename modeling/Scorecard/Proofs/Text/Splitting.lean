import Scorecard.Text.Split

/-!
# Pieces between marks

`splitAt` cuts a text at every occurrence of a character.

* Texts joined by the mark are cut into the pieces of the one and the pieces of the other
  (`splitAt_append_cons`).
* A piece has no mark (`not_mem_of_mem_splitAt`), and texts without the mark are the pieces of the
  text that joins them by it (`splitAt_join`).
-/

namespace Scorecard.Text

theorem splitAt_append_cons (mark : Char) (cs ds : List Char) :
    splitAt mark (cs ++ mark :: ds) = splitAt mark cs ++ splitAt mark ds := by
  induction cs with
  | nil => simp [splitAt]
  | cons c cs ih =>
    rw [List.cons_append, splitAt, splitAt, ih]
    split
    · rfl
    · cases hpieces : splitAt mark cs with
      | nil => exact absurd hpieces (splitAt_ne_nil mark cs)
      | cons p ps => rfl

theorem length_splitAt (mark : Char) (cs : List Char) :
    (splitAt mark cs).length = cs.count mark + 1 := by
  induction cs with
  | nil => rfl
  | cons c cs ih =>
    rw [splitAt, List.count_cons]
    split
    · next hc => simp [hc, ih]
    · next hc => simp [hc, ih]

/-- A piece between marks has no mark. -/
theorem not_mem_of_mem_splitAt {mark : Char} {cs piece : List Char} (h : piece ∈ splitAt mark cs) :
    mark ∉ piece := by
  induction cs generalizing piece with
  | nil => simp_all [splitAt]
  | cons c cs ih =>
    rw [splitAt] at h
    split at h
    · rcases List.mem_cons.mp h with rfl | h
      · simp
      · exact ih h
    · next hc =>
      cases hpieces : splitAt mark cs with
      | nil => exact absurd hpieces (splitAt_ne_nil mark cs)
      | cons p ps =>
        rw [hpieces] at h ih
        rcases List.mem_cons.mp h with rfl | h
        · have hp := ih (List.mem_cons_self (a := p) (l := ps))
          simp [hp, Ne.symm hc]
        · exact ih (List.mem_cons_of_mem p h)

theorem splitAt_eq_splitOn (mark : Char) (cs : List Char) : splitAt mark cs = cs.splitOn mark := by
  induction cs with
  | nil => rfl
  | cons c cs ih => simp [splitAt, List.splitOn_cons_eq_if_modifyHead, ih]

/-- Texts without the mark are read back from the text with marks between them. -/
theorem splitAt_join {mark : String} {c : Char} (hmark : mark.toList = [c]) {ss : List String}
    (hss : ss ≠ []) (h : ∀ s ∈ ss, c ∉ s.toList) :
    splitAt c (join mark ss).toList = ss.map String.toList := by
  rw [splitAt_eq_splitOn, join, String.toList_intercalate, hmark]
  refine List.splitOn_intercalate c (fun cs hcs => ?_) (by simpa using hss)
  obtain ⟨s, hs, rfl⟩ := List.mem_map.mp hcs
  exact h s hs

end Scorecard.Text
