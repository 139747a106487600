import Scorecard.Proofs.Formula.Answering

/-!
# How the evaluator reads a name

A name that stays in a formula is cut a second time, and then the evaluator reads it.  It may take
the name for a constant: it reads hexadecimal integers, and words for infinity and for what is no
number, which are names to the first cut.

* `StaysWord` is the condition that the second cut finds the name again.  Every name that begins
  with a letter meets it (`staysWord_of_letter`), while `2e` does not: in front of `-5` it is part
  of a literal.
* `isNumberWord` lists the names that are constants (`isSome_ofText?_word`).
-/

namespace Scorecard.Formula

open Number (Numeral isDigit)

/-- The evaluator takes the run of text for a constant or for a function. -/
def IsRead (cs : List Char) : Prop :=
  (Value.ofText? cs).isSome = true ∨ (function? (String.ofList cs)).isSome = true

/-- The word is cut as a word in front of any separator. -/
def StaysWord (w : List Char) : Prop :=
  ∀ after, BeginsApart after → tokens (w ++ after) = .word w :: tokens after

/-- The words that the evaluator takes for numbers: hexadecimal integers of 64 bits, and the words
for infinity and for what is no number, in any case. -/
def isNumberWord (w : List Char) : Bool :=
  (w.take 2 == "0x".toList && (readHex (w.drop 2)).any fun n : Nat => Number.fitsInt64 n) ||
    ["inf".toList, "infinity".toList, "nan".toList].contains (Text.asciiLowered w)

/-! ## The second cut -/

/-- A word that begins with a letter is cut as a word in front of any separator. -/
theorem staysWord_of_letter {c : Char} {cs : List Char} (hdigit : isDigit c = false)
    (hall : ∀ d ∈ c :: cs, isWordChar d = true) : StaysWord (c :: cs) := by
  intro after hafter
  have hnone : ∀ d ∈ after.head?, isWordChar d = false := fun d hd =>
    isWordChar_of_separates (hafter d hd)
  have htail : ∀ d ∈ cs, isWordChar d = true := fun d hd => hall d (by simp [hd])
  have hafter' : after.takeWhile isWordChar = [] ∧ after.dropWhile isWordChar = after := by
    cases after with
    | nil => simp
    | cons d ds => simp [hnone d rfl]
  rw [List.cons_append, tokens_cons, next_word_of_letter (hall c (by simp)) hdigit,
    List.takeWhile_append_of_pos htail, List.dropWhile_append_of_pos htail, hafter'.1, hafter'.2,
    List.append_nil]

theorem StaysWord.tokens_eq {w : List Char} (hw : StaysWord w) : tokens w = [.word w] := by
  simpa using hw [] beginsApart_nil

theorem staysWhole_of_staysWord {w : List Char} (hw : StaysWord w) (hcut : (Token.word w).IsCut) :
    StaysWhole w := by
  refine ⟨hcut.1, fun c hc => ?_, fun after hafter => ?_⟩
  · have hword := hcut.2.1 c hc
    constructor <;> rintro rfl <;> exact absurd hword (by decide)
  · rw [hw after hafter, hw.tokens_eq]
    rfl

/-! ## Constants -/

theorem ne_of_ofList_ne {cs : List Char}
    (h : String.ofList cs ≠ "true" ∧ String.ofList cs ≠ "false") :
    cs ≠ "true".toList ∧ cs ≠ "false".toList := by
  constructor
  · rintro rfl
    exact h.1 rfl
  · rintro rfl
    exact h.2 rfl

/-- The integers among the words are hexadecimal. -/
theorem isSome_readInteger_word {w : List Char} (hw : (Token.word w).IsCut) :
    (readInteger w).isSome =
      (w.take 2 == "0x".toList && (readHex (w.drop 2)).any fun n : Nat => Number.fitsInt64 n) := by
  have htext : ∀ c ∈ w, isTextChar c = true := fun c hc => by simp [isTextChar, hw.2.1 c hc]
  have hread := readInt64_eq_none htext hw.2.2
  unfold readInteger
  split
  · next digits =>
    have hmark : (('0' :: 'x' :: digits).take 2 == "0x".toList) = true := rfl
    rw [hmark, Bool.true_and, List.drop_succ_cons, List.drop_succ_cons, List.drop_zero]
    cases readHex digits with
    | none => rfl
    | some n =>
      rw [Option.map_some, Option.any_some, Option.filter_some]
      show _ = Number.fitsInt64 (Int.ofNat n)
      cases Number.fitsInt64 (Int.ofNat n) <;> rfl
  · next hno =>
    have hmark : (w.take 2 == "0x".toList) = false := by
      rw [beq_eq_false_iff_ne]
      intro hmark
      refine hno (w.drop 2) ?_
      calc w = w.take 2 ++ w.drop 2 := (List.take_append_drop 2 w).symm
        _ = '0' :: 'x' :: w.drop 2 := by rw [hmark]; rfl
    rw [hread, hmark]
    rfl

/-- A word is no decimal numeral. -/
theorem scan_word {w : List Char} (h : tokens w = [.word w]) :
    ¬ ((Numeral.scan w).2 = [] ∧ (Numeral.scan w).1.digits ≠ []) := by
  rintro ⟨hrest, hdigits⟩
  obtain ⟨c, cs, rest, rfl, hnext, -⟩ := exists_of_tokens_eq_cons h
  have hcut : (Token.word (c :: cs)).IsCut := isCut_of_mem_tokens (h ▸ List.mem_cons_self)
  have hword : isWordChar c = true := hcut.2.1 c (by simp)
  have hpoint : c ≠ '.' := by
    rintro rfl
    exact absurd hword (by decide)
  cases hdigit : isDigit c with
  | true =>
    have hnumber : (next c cs).1 = .number (Numeral.scan (c :: cs)).1 := by
      simp [next, hpoint, hword, hdigit, hrest]
    rw [hnext] at hnumber
    cases hnumber
  | false =>
    refine hdigits ?_
    have hfraction : Numeral.scanFraction (c :: cs) = (none, c :: cs) :=
      Numeral.scanFraction_eq_none (by simpa using hpoint)
    simp [Numeral.scan, Numeral.digits, hdigit, hfraction]

/-- The doubles among the words are those for infinity and for what is no number. -/
theorem isSome_readFloat_word {w : List Char} (h : tokens w = [.word w]) :
    (Number.readFloat w).isSome =
      ["inf".toList, "infinity".toList, "nan".toList].contains (Text.asciiLowered w) := by
  have hcut : (Token.word w).IsCut := isCut_of_mem_tokens (h ▸ List.mem_cons_self)
  obtain ⟨c, cs, rfl⟩ := List.exists_cons_of_ne_nil hcut.1
  have htext : isTextChar c = true := by simp [isTextChar, hcut.2.1 c (by simp)]
  unfold Number.readFloat
  rw [takeSign_of_isTextChar htext]
  simp only
  rw [if_neg (scan_word h)]
  generalize Text.asciiLowered (c :: cs) = lowered
  by_cases hinf : lowered = "inf".toList ∨ lowered = "infinity".toList
  · rw [if_pos hinf]
    rcases hinf with rfl | rfl <;> rfl
  · rw [if_neg hinf]
    by_cases hnan : lowered = "nan".toList
    · rw [if_pos hnan, hnan]
      rfl
    · rw [if_neg hnan, Option.isSome_none, eq_comm, List.contains_eq_mem, decide_eq_false_iff_not]
      simp only [List.mem_cons, List.not_mem_nil, or_false, not_or] at hinf ⊢
      exact ⟨hinf.1, hinf.2, hnan⟩

/-- The words that are constants, other than truth values. -/
theorem isSome_ofText?_word {w : List Char} (h : tokens w = [.word w])
    (htruth : String.ofList w ≠ "true" ∧ String.ofList w ≠ "false") :
    (Value.ofText? w).isSome = isNumberWord w := by
  obtain ⟨htrue, hfalse⟩ := ne_of_ofList_ne htruth
  have hcut : (Token.word w).IsCut := isCut_of_mem_tokens (h ▸ List.mem_cons_self)
  unfold Value.ofText?
  rw [isNumberWord, ← isSome_readInteger_word hcut, ← isSome_readFloat_word h]
  cases readInteger w with
  | some n => rfl
  | none =>
    cases Number.readFloat w with
    | some x => rfl
    | none =>
      simp only [if_neg htrue, if_neg hfalse]
      rfl

/-- A constant alone is its number. -/
theorem isOk_numberOf_constant {cs : List Char} {v : Value} (h : Value.ofText? cs = some v)
    (htruth : String.ofList cs ≠ "true" ∧ String.ofList cs ≠ "false") :
    (numberOf [.constant v]).isOk = true := by
  obtain ⟨htrue, hfalse⟩ := ne_of_ofList_ne htruth
  have hnumber : numberOf [.constant v] = v.toNumber := rfl
  rw [hnumber]
  unfold Value.ofText? at h
  split at h
  · obtain rfl := Option.some.inj h
    rfl
  · obtain rfl := Option.some.inj h
    rfl
  · rw [if_neg htrue, if_neg hfalse] at h
    cases h

end Scorecard.Formula
