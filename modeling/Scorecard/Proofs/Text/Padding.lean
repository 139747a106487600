import Mathlib.Data.List.Forall2
import Scorecard.Text.Split

/-!
# Blanks at the ends of a text

Blanks added at the ends of a text stay at the ends of the pieces it is cut into.  `Padded cs ds`
says that `ds` is `cs` with such blanks.

* `padded_trimmed`: every text is its trimmed text with blanks at the ends, and `Padded.trimmed_eq`:
  trimming removes them.
* `Padded.cut`, `Padded.splitAt`, `Padded.segments`: a mark that is not blank cuts a text and the
  padded text in the same places, and corresponding pieces are padded.
* `Padded.items`: the items of a list are the same.
-/

namespace Scorecard.Text

/-- The second text is the first one with blanks at its ends. -/
def Padded (cs ds : List Char) : Prop :=
  ∃ front back, (∀ c ∈ front, isBlank c) ∧ (∀ c ∈ back, isBlank c) ∧ ds = front ++ cs ++ back

/-! ## Trimming -/

section

variable {blanks : List Char}

theorem trimmed_blanks_append (h : ∀ c ∈ blanks, isBlank c) (cs : List Char) :
    trimmed (blanks ++ cs) = trimmed cs := by
  rw [trimmed, dropBlanks_append_blanks h, trimmed]

theorem trimmed_append_blanks (h : ∀ c ∈ blanks, isBlank c) (cs : List Char) :
    trimmed (cs ++ blanks) = trimmed cs := by
  unfold trimmed
  rw [dropBlanks, dropBlanks, List.dropWhile_append]
  split
  · next hempty =>
    have hcs : cs.dropWhile isBlank = [] := List.isEmpty_iff.mp hempty
    have hblanks : blanks.dropWhile isBlank = [] := by
      simpa [dropBlanks] using dropBlanks_append_blanks h []
    rw [hcs, hblanks]
  · exact dropTrailingBlanks_append_blanks h _

end

variable {cs ds : List Char}

theorem Padded.trimmed_eq (h : Padded cs ds) : trimmed ds = trimmed cs := by
  obtain ⟨front, back, hfront, hback, rfl⟩ := h
  rw [trimmed_append_blanks hback, trimmed_blanks_append hfront]

/-- Every text is its trimmed text with blanks at the ends. -/
theorem padded_trimmed (cs : List Char) : Padded (trimmed cs) cs := by
  refine ⟨cs.takeWhile isBlank, ((dropBlanks cs).reverse.takeWhile isBlank).reverse,
    fun c hc => ?_, fun c hc => ?_, ?_⟩
  · exact List.all_eq_true.mp List.all_takeWhile c hc
  · exact List.all_eq_true.mp List.all_takeWhile c (List.mem_reverse.mp hc)
  · have hback : trimmed cs ++ ((dropBlanks cs).reverse.takeWhile isBlank).reverse =
        dropBlanks cs := by
      rw [trimmed, dropTrailingBlanks, dropBlanks, ← List.reverse_append,
        List.takeWhile_append_dropWhile, List.reverse_reverse]
    rw [List.append_assoc, hback, dropBlanks, List.takeWhile_append_dropWhile]

theorem trimmed_trimmed (cs : List Char) : trimmed (trimmed cs) = trimmed cs :=
  (padded_trimmed cs).trimmed_eq.symm

theorem mem_of_mem_trimmed {c : Char} (h : c ∈ trimmed cs) : c ∈ cs := by
  obtain ⟨front, back, -, -, hcs⟩ := padded_trimmed cs
  rw [hcs]
  simp [h]

/-- Trimming removes only blanks. -/
theorem mem_trimmed {c : Char} (h : c ∈ cs) (hc : isBlank c = false) : c ∈ trimmed cs := by
  obtain ⟨front, back, hfront, hback, hcs⟩ := padded_trimmed cs
  have hnot : ∀ blanks : List Char, (∀ d ∈ blanks, isBlank d) → c ∉ blanks := by
    intro blanks hblanks hmem
    rw [hblanks c hmem] at hc
    exact absurd hc (by decide)
  rw [hcs, List.mem_append, List.mem_append] at h
  rcases h with (h | h) | h
  · exact absurd h (hnot front hfront)
  · exact h
  · exact absurd h (hnot back hback)

theorem head?_trimmed_cons {c : Char} (hc : isBlank c = false) (cs : List Char) :
    (trimmed (c :: cs)).head? = some c := by
  obtain ⟨front, back, hfront, -, hcs⟩ := padded_trimmed (c :: cs)
  have hmem : c ∈ trimmed (c :: cs) := mem_trimmed (by simp) hc
  generalize trimmed (c :: cs) = middle at hcs hmem
  cases front with
  | cons d front =>
    obtain ⟨rfl, -⟩ := List.cons.inj hcs
    have hblank := hfront c (by simp)
    rw [hc] at hblank
    exact absurd hblank (by decide)
  | nil =>
    obtain ⟨d, ds, rfl⟩ := List.exists_cons_of_ne_nil (List.ne_nil_of_mem hmem)
    obtain ⟨rfl, -⟩ := List.cons.inj hcs
    rfl

/-- A text with a mark in it begins with what stands in front of the mark, or with the mark. -/
theorem head?_trimmed_append_cons {mark : Char} (hmark : isBlank mark = false) (cs ds : List Char) :
    (trimmed (cs ++ mark :: ds)).head? = some ((trimmed cs).head?.getD mark) := by
  induction cs with
  | nil => exact head?_trimmed_cons hmark ds
  | cons c cs ih =>
    cases hc : isBlank c with
    | true =>
      have hblank : ∀ d ∈ [c], isBlank d := by simpa using hc
      have hdrop := trimmed_blanks_append hblank
      rw [← List.singleton_append, List.append_assoc, hdrop, hdrop, ih]
    | false => rw [List.cons_append, head?_trimmed_cons hc, head?_trimmed_cons hc, Option.getD_some]

/-! ## Pieces -/

/-- The second text is the first one with blanks behind it.  Unlike `Padded`, this is kept when a
character is put in front of both texts. -/
def Trailed (cs ds : List Char) : Prop := ∃ back, (∀ c ∈ back, isBlank c) ∧ ds = cs ++ back

theorem Trailed.cons (c : Char) (h : Trailed cs ds) : Trailed (c :: cs) (c :: ds) := by
  obtain ⟨back, hback, rfl⟩ := h
  exact ⟨back, hback, rfl⟩

theorem Trailed.padded (h : Trailed cs ds) {front : List Char} (hfront : ∀ c ∈ front, isBlank c) :
    Padded cs (front ++ ds) := by
  obtain ⟨back, hback, rfl⟩ := h
  exact ⟨front, back, hfront, hback, by simp⟩

theorem forall₂_modifyHead {R S : List Char → List Char → Prop} {f g : List Char → List Char}
    {xs ys : List (List Char)} (h : List.Forall₂ R xs ys) (hhead : ∀ x y, R x y → S (f x) (g y))
    (htail : ∀ x y, R x y → S x y) : List.Forall₂ S (xs.modifyHead f) (ys.modifyHead g) := by
  cases h with
  | nil => exact .nil
  | cons hxy hrest => exact .cons (hhead _ _ hxy) (hrest.imp htail)

/-- Pieces with blanks behind them are padded when blanks are put in front of the first one. -/
theorem forall₂_padded {xs ys : List (List Char)} (h : List.Forall₂ Trailed xs ys)
    {front : List Char} (hfront : ∀ c ∈ front, isBlank c) :
    List.Forall₂ Padded xs (ys.modifyHead (front ++ ·)) := by
  cases h with
  | nil => exact .nil
  | cons hxy hrest =>
    refine .cons (hxy.padded hfront) (hrest.imp fun x y hlast => ?_)
    obtain ⟨back, hback, rfl⟩ := hlast
    exact ⟨[], back, by simp, hback, by simp⟩

section

variable {mark : Char} {blanks : List Char}

theorem ne_of_isBlank (hmark : isBlank mark = false) {c : Char} (hc : isBlank c = true) :
    c ≠ mark := by
  rintro rfl
  rw [hmark] at hc
  exact absurd hc (by decide)

theorem cut_cons (mark c : Char) (cs : List Char) : cut [mark] (c :: cs) =
    if c = mark then some ([], cs) else (cut [mark] cs).map fun (x, y) => (c :: x, y) := by
  by_cases h : c = mark
  · simp [cut, h]
  · have hne : ¬ mark = c := fun heq => h heq.symm
    simp [cut, h, hne]

theorem cut_blanks_append (hmark : isBlank mark = false) (h : ∀ c ∈ blanks, isBlank c)
    (cs : List Char) :
    cut [mark] (blanks ++ cs) = (cut [mark] cs).map fun (x, y) => (blanks ++ x, y) := by
  induction blanks with
  | nil => simp
  | cons c blanks ih =>
    have hc : c ≠ mark := ne_of_isBlank hmark (h c (by simp))
    rw [List.cons_append, cut_cons, if_neg hc, ih fun d hd => h d (by simp [hd]), Option.map_map]
    rfl

theorem cut_append_blanks (hmark : isBlank mark = false) (h : ∀ c ∈ blanks, isBlank c)
    (cs : List Char) :
    cut [mark] (cs ++ blanks) = (cut [mark] cs).map fun (x, y) => (x, y ++ blanks) := by
  induction cs with
  | nil =>
    have hnone := cut_blanks_append hmark h []
    rw [List.append_nil] at hnone
    simpa [cut] using hnone
  | cons c cs ih =>
    rw [List.cons_append, cut_cons, cut_cons, ih]
    split
    · rfl
    · simp [Option.map_map, Function.comp_def]

/-- A padded text is cut in the same place. -/
theorem Padded.cut (hmark : isBlank mark = false) (h : Padded cs ds) :
    ∃ front back, (∀ c ∈ front, isBlank c) ∧ (∀ c ∈ back, isBlank c) ∧
      Text.cut [mark] ds =
        (Text.cut [mark] cs).map fun (x, y) => (front ++ x, y ++ back) := by
  obtain ⟨front, back, hfront, hback, rfl⟩ := h
  refine ⟨front, back, hfront, hback, ?_⟩
  rw [cut_append_blanks hmark hback, cut_blanks_append hmark hfront, Option.map_map]
  rfl

theorem splitAt_blanks_append (hmark : isBlank mark = false) (h : ∀ c ∈ blanks, isBlank c)
    (cs : List Char) :
    splitAt mark (blanks ++ cs) = (splitAt mark cs).modifyHead (blanks ++ ·) := by
  induction blanks with
  | nil =>
    rw [List.nil_append]
    cases splitAt mark cs <;> rfl
  | cons c blanks ih =>
    have hc : c ≠ mark := ne_of_isBlank hmark (h c (by simp))
    rw [List.cons_append, splitAt, if_neg hc, ih fun d hd => h d (by simp [hd])]
    cases splitAt mark cs <;> rfl

theorem splitAt_append_blanks (hmark : isBlank mark = false) (h : ∀ c ∈ blanks, isBlank c)
    (cs : List Char) :
    List.Forall₂ Trailed (splitAt mark cs) (splitAt mark (cs ++ blanks)) := by
  induction cs with
  | nil =>
    have hone := splitAt_blanks_append hmark h []
    simp only [List.append_nil, splitAt, List.modifyHead_cons] at hone
    rw [List.nil_append, hone]
    exact .cons ⟨blanks, h, rfl⟩ .nil
  | cons c cs ih =>
    rw [List.cons_append, splitAt, splitAt]
    split
    · exact .cons ⟨[], by simp, rfl⟩ ih
    · exact forall₂_modifyHead ih (fun _ _ => Trailed.cons c) fun _ _ => id

/-- The pieces of a padded text are padded. -/
theorem Padded.splitAt (hmark : isBlank mark = false) (h : Padded cs ds) :
    List.Forall₂ Padded (Text.splitAt mark cs) (Text.splitAt mark ds) := by
  obtain ⟨front, back, hfront, hback, rfl⟩ := h
  rw [List.append_assoc, splitAt_blanks_append hmark hfront]
  exact forall₂_padded (splitAt_append_blanks hmark hback cs) hfront

theorem segments_cons {c : Char} (hc : c ≠ ';') (cs : List Char) :
    segments (c :: cs) = (segments cs).modifyHead (c :: ·) := by
  rw [segments]
  rintro _ rfl
  exact absurd rfl hc

theorem segments_blanks_append (h : ∀ c ∈ blanks, isBlank c) (cs : List Char) :
    segments (blanks ++ cs) = (segments cs).modifyHead (blanks ++ ·) := by
  induction blanks with
  | nil =>
    rw [List.nil_append]
    cases segments cs <;> rfl
  | cons c blanks ih =>
    have hc : c ≠ ';' := ne_of_isBlank (by decide) (h c (by simp))
    rw [List.cons_append, segments_cons hc, ih fun d hd => h d (by simp [hd])]
    cases segments cs <;> rfl

theorem segments_append_blanks (h : ∀ c ∈ blanks, isBlank c) (cs : List Char) :
    List.Forall₂ Trailed (segments cs) (segments (cs ++ blanks)) := by
  fun_induction segments cs with
  | case1 =>
    have hone := segments_blanks_append h []
    simp only [List.append_nil, segments, List.modifyHead_cons] at hone
    rw [List.nil_append, hone]
    exact .cons ⟨blanks, h, rfl⟩ .nil
  | case2 cs ih => exact .cons ⟨[], by simp, rfl⟩ ih
  | case3 c cs hnot ih =>
    -- a semicolon at the end of `cs` is followed by a blank, so it begins no mark
    have hcons : segments (c :: (cs ++ blanks)) =
        (segments (cs ++ blanks)).modifyHead (c :: ·) := by
      rw [segments]
      rintro rest rfl hrest
      cases cs with
      | nil =>
        have hmem : ';' ∈ blanks := by
          rw [List.nil_append] at hrest
          simp [hrest]
        exact absurd (h _ hmem) (by decide)
      | cons d ds =>
        obtain ⟨rfl, _⟩ := List.cons.inj hrest
        exact hnot ds rfl rfl
    rw [List.cons_append, hcons]
    exact forall₂_modifyHead ih (fun _ _ => Trailed.cons c) fun _ _ => id

/-- The segments of a padded text are padded. -/
theorem Padded.segments (h : Padded cs ds) :
    List.Forall₂ Padded (Text.segments cs) (Text.segments ds) := by
  obtain ⟨front, back, hfront, hback, rfl⟩ := h
  rw [List.append_assoc, segments_blanks_append hfront]
  exact forall₂_padded (segments_append_blanks hback cs) hfront

end

theorem map_trimmed_eq {xs ys : List (List Char)} (h : List.Forall₂ Padded xs ys) :
    ys.map trimmed = xs.map trimmed := by
  induction h with
  | nil => rfl
  | cons hxy _ ih => rw [List.map_cons, List.map_cons, hxy.trimmed_eq, ih]

/-- A padded list has the same items. -/
theorem Padded.items (h : Padded cs ds) : Text.items ds = Text.items cs := by
  rw [Text.items, Text.items, map_trimmed_eq (h.splitAt (by decide))]

end Scorecard.Text
