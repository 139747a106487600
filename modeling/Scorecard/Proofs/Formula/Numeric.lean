import Scorecard.Formula.Function
import Scorecard.Proofs.Formula.Lexing
import Scorecard.Proofs.Formula.Rewriting

/-!
# Runs of text without words

Where no word is left in a formula, each run of text consists of literals and points.  Such a run is
a double to the evaluator, or else an identifier that is no function.

* `IsNumeric` is the shape of these runs, `isNumeric_withPoint` and `IsNumeric.append` build them.
  `IsRun` also has the letters before an exponent.
* `ofText?_of_isRun` and `function?_of_isRun` say how the evaluator reads them.
* `exists_ofText?_withPoint_number`: a literal alone is a double.
-/

namespace Scorecard.Formula

open Number (Numeral isDigit)

/-! ## Their shape -/

/-- The runs of text of numbers and of what is left of exponents: digits, points, the word for
infinity and the letters before an exponent, with at least one character that no function has. -/
structure IsRun (cs : List Char) : Prop where
  all : ∀ c ∈ cs, isDigit c = true ∨ c ∈ ".infeE".toList
  marked : ∃ c ∈ cs, c ∈ ".neE".toList

/-- The runs of text that literals and points make: digits, points and the word for infinity, with
at least one character of the latter two. -/
structure IsNumeric (cs : List Char) : Prop where
  all : ∀ c ∈ cs, isDigit c = true ∨ c ∈ ".inf".toList
  marked : ∃ c ∈ cs, c ∈ ".n".toList

theorem IsNumeric.isRun {cs : List Char} (h : IsNumeric cs) : IsRun cs where
  all c hc := by
    have hletters : ∀ d ∈ ".inf".toList, d ∈ ".infeE".toList :=
      forall_mem_of_all (by decide)
    exact (h.all c hc).imp id (hletters c)
  marked := by
    have hmarks : ∀ d ∈ ".n".toList, d ∈ ".neE".toList := forall_mem_of_all (by decide)
    obtain ⟨c, hc, hmark⟩ := h.marked
    exact ⟨c, hc, hmarks c hmark⟩

theorem IsNumeric.append {cs ds : List Char} (hcs : IsNumeric cs) (hds : IsNumeric ds) :
    IsNumeric (cs ++ ds) where
  all c hc := (List.mem_append.mp hc).elim (hcs.all c) (hds.all c)
  marked := by
    obtain ⟨c, hc, hmark⟩ := hcs.marked
    exact ⟨c, by simp [hc], hmark⟩

theorem IsRun.isTextChar {cs : List Char} (h : IsRun cs) : ∀ c ∈ cs, isTextChar c = true := by
  have hletters : ∀ d ∈ ".infeE".toList, Formula.isTextChar d = true :=
    forall_mem_of_all (by decide)
  exact fun c hc => (h.all c hc).elim isTextChar_of_isDigit (hletters c)

theorem IsRun.exists_not_isDigit {cs : List Char} (h : IsRun cs) :
    ∃ c ∈ cs, isDigit c = false := by
  have hmarks : ∀ d ∈ ".neE".toList, isDigit d = false := forall_mem_of_all (by decide)
  obtain ⟨c, hc, hmark⟩ := h.marked
  exact ⟨c, hc, hmarks c hmark⟩

/-- A literal that has been written with a point. -/
theorem isNumeric_withPoint_number (n : Numeral) : IsNumeric (withPoint (.number n)) := by
  rcases withPoint_number n with ⟨m, hm, hpoint, htext⟩ | hinf
  · obtain ⟨ds, hparts, hwhole, hds⟩ := text_of_isPlain hm hpoint
    rw [htext, hparts]
    refine ⟨fun c hc => ?_, '.', by simp, by decide⟩
    rcases List.mem_append.mp hc with h | h
    · exact .inl (hwhole c h)
    · rcases List.mem_cons.mp h with rfl | h
      · exact .inr (by decide)
      · exact .inl (hds c h)
  · rw [hinf]
    exact ⟨forall_mem_of_all (by decide), 'n', by simp, by decide⟩

/-- The text of a token that is text but no word. -/
theorem isNumeric_withPoint {t : Token} (htext : t.isText = true) (hword : t.isWord = false)
    (ht : t.IsCut) : IsNumeric (withPoint t) := by
  cases t with
  | number n => exact isNumeric_withPoint_number n
  | word w => exact absurd hword (by simp [Token.isWord])
  | other c =>
    have hc : isWordChar c = false := ht
    simp only [Token.isText, isTextChar, hc, Bool.false_or, beq_iff_eq] at htext
    rw [htext]
    exact ⟨forall_mem_of_all (by decide), '.', by simp [withPoint, Token.text], by decide⟩

/-! ## How they are read -/

/-- A run of text that is not all digits is no integer. -/
theorem readInt64_eq_none {cs : List Char} (hall : ∀ c ∈ cs, isTextChar c = true)
    (h : ∃ c ∈ cs, isDigit c = false) : Number.readInt64 cs = none := by
  obtain ⟨c, hc, hdigit⟩ := h
  obtain ⟨a, as, rfl⟩ := List.exists_cons_of_ne_nil (List.ne_nil_of_mem hc)
  have hno : (a :: as).all isDigit = false := by
    rw [List.all_eq_false]
    exact ⟨c, hc, by simp [hdigit]⟩
  unfold Number.readInt64 Number.readInt
  rw [takeSign_of_isTextChar (hall a (by simp))]
  simp [hno]

theorem readInteger_eq_none {cs : List Char} (h : IsRun cs) : readInteger cs = none := by
  have hread := readInt64_eq_none h.isTextChar h.exists_not_isDigit
  unfold readInteger
  split
  · next digits =>
    have hx := h.all 'x' (by simp)
    exact absurd hx (by decide)
  · exact hread

/-- Such a run has no other letters. -/
theorem IsRun.ne {cs w : List Char} (h : IsRun cs)
    (hw : ∃ c ∈ w, isDigit c = false ∧ c ∉ ".infeE".toList) : cs ≠ w := by
  obtain ⟨c, hc, hdigit, hno⟩ := hw
  rintro rfl
  rcases h.all c hc with hc | hc
  · rw [hdigit] at hc
    exact absurd hc (by decide)
  · exact hno hc

/-- Such a run is read as a double or not at all. -/
theorem ofText?_of_isRun {cs : List Char} (h : IsRun cs) :
    Value.ofText? cs = (Number.readFloat cs).map .float := by
  have htrue : cs ≠ "true".toList := h.ne ⟨'t', by decide, by decide, by decide⟩
  have hfalse : cs ≠ "false".toList := h.ne ⟨'a', by decide, by decide, by decide⟩
  unfold Value.ofText?
  rw [readInteger_eq_none h]
  cases Number.readFloat cs with
  | some x => rfl
  | none => exact (if_neg htrue).trans (if_neg hfalse)

theorem ofText?_of_isNumeric {cs : List Char} (h : IsNumeric cs) :
    Value.ofText? cs = (Number.readFloat cs).map .float :=
  ofText?_of_isRun h.isRun

/-- Such a run names no function. -/
theorem function?_of_isRun {cs : List Char} (h : IsRun cs) :
    function? (String.ofList cs) = none := by
  have hnames : ∀ name ∈ functions.map Prod.fst,
      (name.toList.any fun c => !isDigit c && !".infeE".toList.contains c) = true ∨
        (name.toList.all fun c => !".neE".toList.contains c) = true := by
    decide +kernel
  refine List.lookup_eq_none_iff.mpr fun entry hentry => ?_
  rw [bne_iff_ne]
  intro heq
  have hname := hnames entry.1 (List.mem_map_of_mem hentry)
  rw [← heq, String.toList_ofList] at hname
  rcases hname with hother | hunmarked
  · obtain ⟨c, hc, hno⟩ := List.any_eq_true.mp hother
    simp only [Bool.and_eq_true, Bool.not_eq_true', List.contains_eq_mem,
      decide_eq_false_iff_not] at hno
    exact h.ne ⟨c, hc, hno⟩ rfl
  · obtain ⟨c, hc, hmark⟩ := h.marked
    have hno := List.all_eq_true.mp hunmarked c hc
    simp only [Bool.not_eq_true', List.contains_eq_mem, decide_eq_false_iff_not] at hno
    exact hno hmark

theorem function?_of_isNumeric {cs : List Char} (h : IsNumeric cs) :
    function? (String.ofList cs) = none :=
  function?_of_isRun h.isRun

/-- A digit or a point occurs in none of the words that stand for numbers. -/
theorem not_mem_numberWords {c : Char} (h : isDigit c = true ∨ c = '.') :
    c ∉ "inf".toList ∧ c ∉ "infinity".toList ∧ c ∉ "nan".toList := by
  have hnot : ∀ w : List Char, (w.all fun d => !isDigit d && d != '.') = true → c ∉ w := by
    intro w hw hmem
    have hletter := List.all_eq_true.mp hw c hmem
    rcases h with h | h <;> simp [h] at hletter
  exact ⟨hnot _ (by decide), hnot _ (by decide), hnot _ (by decide)⟩

/-- A literal is read as its value. -/
theorem readFloat_text {n : Numeral} (hn : n.IsLiteral) :
    Number.readFloat n.text = some (n.toFloat false) := by
  obtain ⟨c, cs, htext, hhead⟩ := head_of_isLiteral hn
  have hc : isDigit c = true ∨ c = '.' := hhead.imp id And.left
  have hmem : c ∈ n.text := by simp [htext]
  have hlower : Text.asciiLowerChar c = c := by
    rcases hc with hdigit | rfl
    · exact asciiLowerChar_of_isDigit hdigit
    · decide
  have hplain : isTextChar c = true := by
    rcases hc with hdigit | rfl
    · exact isTextChar_of_isDigit hdigit
    · decide
  have hsign : Number.takeSign n.text = (false, n.text) := by
    rw [htext]
    exact takeSign_of_isTextChar hplain cs
  have hscan : Numeral.scan n.text = (n, []) := by
    simpa using Numeral.scan_text_append hn.toHasParts (Numeral.stopsBefore_nil n)
  obtain ⟨hinf, hinfinity, hnan⟩ := not_mem_numberWords hc
  unfold Number.readFloat
  rw [hsign]
  simp only
  rw [if_neg (not_or.mpr ⟨asciiLowered_ne hlower hmem hinf, asciiLowered_ne hlower hmem hinfinity⟩),
    if_neg (asciiLowered_ne hlower hmem hnan), hscan]
  simp [hn.digits_ne]

/-- A literal that has been written with a point is read as a double. -/
theorem exists_ofText?_withPoint_number (n : Numeral) :
    ∃ x, Value.ofText? (withPoint (.number n)) = some (.float x) := by
  rw [ofText?_of_isNumeric (isNumeric_withPoint_number n)]
  rcases withPoint_number n with ⟨m, hm, -, htext⟩ | hinf
  · exact ⟨_, by rw [htext, readFloat_text hm.toIsLiteral]; rfl⟩
  · rw [hinf]
    exact ⟨_, rfl⟩

end Scorecard.Formula
