import Scorecard.Proofs.Text.Settled
import Scorecard.Proofs.Text.Splitting

/-!
# Titles of titles

A title is made word by word, and its words are the titles of the words (`splitAt_titleCase`).  So
making a title of a title is making it of each word once more, and only the first letter of a word
can be in the way: if it grows, as `ß` grows to `SS`, the capitals behind the first one are inside
the word when the title is made again, and become small there.

* A title is its own title exactly if no word starts with a letter that grows by a capital
  (`titleCase_titleCase_iff`).
* Making a title three times is always the same as making it twice.
-/

namespace Scorecard

namespace Text

/-! ## Words -/

/-- Whether the upper case of a character has a character behind its first one that is not its own
lower case. -/
def growsCased (c : Char) : Bool := (upperChar c).tail.any fun d => lowerChar d != [d]

theorem exists_upperChar_eq_cons (c : Char) : ∃ d ds, upperChar c = d :: ds := by
  rcases cased_cases true c with h | ⟨d, ds, h, -⟩
  · exact ⟨c, [], h⟩
  · exact ⟨d, ds, h⟩

theorem growsCased_eq_false_iff {c d : Char} {ds : List Char} (h : upperChar c = d :: ds) :
    growsCased c = false ↔ ds.flatMap lowerChar = ds := by
  rw [growsCased, h, List.tail_cons, List.any_eq_false, flatMap_lowerChar_eq_self_iff]
  simp

/-- Lower case made once more, one character at a time, changes nothing. -/
theorem flatMap_lowerChar_flatMap (cs : List Char) :
    (cs.flatMap lowerChar).flatMap lowerChar = cs.flatMap lowerChar := by
  refine flatMap_lowerChar_eq_self_iff.mpr fun d hd => ?_
  obtain ⟨c, -, hd⟩ := List.mem_flatMap.mp hd
  exact lowerChar_of_mem_lowerChar hd

/-- A word in title case, given the upper case of its first character. -/
theorem titledWord_of_upperChar {c d : Char} {ds : List Char} (h : upperChar c = d :: ds)
    (cs : List Char) : titledWord true (c :: cs) = d :: (ds ++ cs.flatMap lowerChar) := by
  rw [titledWord, cased, if_pos rfl, h, List.cons_append]

/-- What was behind the first character of the upper case is lower case in the title of the title. -/
theorem titledWord_titledWord {c d : Char} {ds : List Char} (h : upperChar c = d :: ds)
    (cs : List Char) : titledWord true (titledWord true (c :: cs)) =
      d :: (ds.flatMap lowerChar ++ cs.flatMap lowerChar) := by
  rw [titledWord_of_upperChar h, titledWord_of_upperChar (upperChar_of_head h), List.nil_append,
    List.flatMap_append, flatMap_lowerChar_flatMap]

theorem titledWord_titledWord_iff (word : List Char) :
    titledWord true (titledWord true word) = titledWord true word ↔
      ∀ c ∈ word.head?, growsCased c = false := by
  cases word with
  | nil => simp [titledWord]
  | cons c cs =>
    obtain ⟨d, ds, h⟩ := exists_upperChar_eq_cons c
    rw [titledWord_titledWord h, titledWord_of_upperChar h, List.cons_inj_right,
      List.append_cancel_right_eq, ← growsCased_eq_false_iff h]
    simp

theorem titledWord_titledWord_titledWord (word : List Char) :
    titledWord true (titledWord true (titledWord true word)) =
      titledWord true (titledWord true word) := by
  cases word with
  | nil => rfl
  | cons c cs =>
    obtain ⟨d, ds, h⟩ := exists_upperChar_eq_cons c
    have hagain := titledWord_titledWord (upperChar_of_head h) (ds ++ cs.flatMap lowerChar)
    rw [← titledWord_of_upperChar h] at hagain
    rw [hagain, titledWord_titledWord h, List.flatMap_append, flatMap_lowerChar_flatMap]
    rfl

theorem not_mem_titledWord {word : List Char} (h : ' ' ∉ word) : ' ' ∉ titledWord true word := by
  cases word with
  | nil => exact h
  | cons c cs =>
    obtain ⟨hc, hcs⟩ := List.ne_and_not_mem_of_not_mem_cons h
    rw [titledWord, List.mem_append, List.mem_flatMap]
    rintro (hmem | ⟨d, hd, hmem⟩)
    · exact hc ((of_mem_upperChar hmem).1 rfl).symm
    · obtain rfl := (of_mem_lowerChar hmem).1 rfl
      exact hcs hd

end Text

open Text

/-! ## Names -/

/-- The words of a title are those of the name in title case. -/
theorem splitAt_titleCase (name : String) :
    splitAt ' ' (titleCase name).toList = (splitAt ' ' name.toList).map (titledWord true) := by
  rw [titleCase_eq, splitAt_join rfl (by simpa using splitAt_ne_nil ' ' name.toList)]
  · simp
  · intro s hs
    obtain ⟨word, hword, rfl⟩ := List.mem_map.mp hs
    rw [String.toList_ofList]
    exact not_mem_titledWord (not_mem_of_mem_splitAt hword)

/-- Names have one title exactly if their words do. -/
theorem titleCase_eq_iff (s t : String) : titleCase s = titleCase t ↔
    (splitAt ' ' s.toList).map (titledWord true) =
      (splitAt ' ' t.toList).map (titledWord true) := by
  constructor
  · intro h
    rw [← splitAt_titleCase, ← splitAt_titleCase, h]
  · intro h
    have hwords := congrArg (List.map String.ofList) h
    rw [List.map_map, List.map_map] at hwords
    rw [titleCase_eq, titleCase_eq]
    exact congrArg (join " ") hwords

/-- The title of a title is that title exactly if no word of the name starts with a character whose
upper case has a character behind its first one that lower case changes.  The third title is always
the second one. -/
theorem titleCase_titleCase_iff (name : String) :
    (titleCase (titleCase name) = titleCase name ↔
      ∀ word ∈ splitAt ' ' name.toList, ∀ c ∈ word.head?, growsCased c = false) ∧
    titleCase (titleCase (titleCase name)) = titleCase (titleCase name) := by
  constructor
  · rw [titleCase_eq_iff, splitAt_titleCase, List.map_map, List.map_inj_left]
    exact forall₂_congr fun word _ => titledWord_titledWord_iff word
  · simp only [titleCase_eq_iff, splitAt_titleCase, List.map_map]
    exact List.map_congr_left fun word _ => titledWord_titledWord_titledWord word

/-- The title of `ß` is `SS`, and that of `SS` is `Ss`. -/
theorem not_titleCase_titleCase : ¬ ∀ name, titleCase (titleCase name) = titleCase name := by
  intro h
  exact absurd (h "ß") (by decide +kernel)

end Scorecard
