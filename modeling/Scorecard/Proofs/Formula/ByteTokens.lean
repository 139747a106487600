import Scorecard.Formula.ByteScanner
import Scorecard.Proofs.Formula.Opening
import Scorecard.Proofs.Text.Utf8

/-!
# Tokens at offsets

At the offset of a cut between characters, the scanner of bytes finds the token that stands at the
front of the rest of the formula.

* The tests of bytes mirror those of characters, so a run of bytes is the run of characters
  (`skipBytes_utf8`), and a numeral is scanned to the same end (`scanNumber_utf8`).
* `literalAt_utf8`: what is found at a cut is the next token.
* `literalAt_of_le`: at a byte that is not ASCII nothing is found.
-/

namespace Scorecard.Formula

open Text
open Number (Numeral isDigit)

/-! ## Tests -/

theorem mirrors_digit : Mirrors isDigitByte isDigit where
  agree := by decide
  low := by decide
  ascii c hc := by
    rw [isDigit, Bool.and_eq_true, decide_eq_true_eq, decide_eq_true_eq] at hc
    exact Nat.lt_of_le_of_lt (UInt32.le_iff_toNat_le.mp hc.2) (by decide)

theorem mirrors_word : Mirrors isWordByte isWordChar where
  agree := by decide
  low := by decide
  ascii c hc := by
    rw [isWordChar_iff] at hc
    omega

theorem mirrors_point : Mirrors isPointByte fun c => c == '.' where
  agree := by decide
  low := by decide
  ascii c hc := by
    rw [beq_iff_eq.mp hc]
    decide

theorem mirrors_exponent : Mirrors isExponentByte fun c => c == 'e' || c == 'E' where
  agree := by decide
  low := by decide
  ascii c hc := by
    rw [Bool.or_eq_true, beq_iff_eq, beq_iff_eq] at hc
    rcases hc with rfl | rfl <;> decide

theorem mirrors_sign : Mirrors isSignByte fun c => c == '+' || c == '-' where
  agree := by decide
  low := by decide
  ascii c hc := by
    rw [Bool.or_eq_true, beq_iff_eq, beq_iff_eq] at hc
    rcases hc with rfl | rfl <;> decide

/-! ## Runs

In what follows the formula `cs` is cut into `done` and `rest`. -/

variable {p : UInt8 → Bool} {q : Char → Bool} {cs done rest : List Char}

/-- Whether a byte at a cut passes a test. -/
theorem byteAt_utf8 (h : Mirrors p q) (hcs : done ++ rest = cs) :
    byteAt p (utf8 cs) (utf8 done).length = rest.head?.any q := by
  rw [byteAt, ← hcs, utf8_append, List.getElem?_append_right (Nat.le_refl _), Nat.sub_self]
  cases rest with
  | nil => rfl
  | cons c rest =>
    obtain ⟨b, bs, hbytes⟩ := exists_utf8EncodeChar_eq_cons c
    rw [utf8_cons, hbytes]
    exact h.head hbytes

/-- The offset behind a character that passes a test. -/
theorem length_utf8_concat (h : Mirrors p q) {c : Char} (hc : q c = true) :
    (utf8 (done ++ [c])).length = (utf8 done).length + 1 := by
  rw [utf8_append, List.length_append, length_utf8_cons, h.utf8Size_eq_one hc]
  rfl

/-- A run of bytes at a cut is the run of characters there. -/
theorem skipBytes_utf8 (h : Mirrors p q) (hcs : done ++ rest = cs) :
    skipBytes p (utf8 cs) (utf8 done).length = (utf8 (done ++ rest.takeWhile q)).length := by
  induction rest generalizing done with
  | nil =>
    have hend : ¬ byteAt p (utf8 cs) (utf8 done).length = true := by
      rw [byteAt_utf8 h hcs]
      exact Bool.false_ne_true
    rw [skipBytes, dif_neg hend, List.takeWhile_nil, List.append_nil]
  | cons c rest ih =>
    have hfirst : byteAt p (utf8 cs) (utf8 done).length = q c := byteAt_utf8 h hcs
    rw [skipBytes, hfirst]
    cases hc : q c with
    | false =>
      rw [dif_neg Bool.false_ne_true,
        List.takeWhile_cons_of_neg (by rw [hc]; exact Bool.false_ne_true), List.append_nil]
    | true =>
      have hrest := ih ((List.append_assoc done [c] rest).trans hcs)
      rw [length_utf8_concat h hc, List.append_assoc] at hrest
      rw [dif_pos rfl, hrest, List.takeWhile_cons_of_pos hc]
      rfl

/-! ## Numerals -/

theorem skipFraction_utf8 (hcs : done ++ rest = cs) :
    skipFraction (utf8 cs) (utf8 done).length =
      (utf8 (done ++ (Numeral.scanFraction rest).1.elim [] ('.' :: ·))).length := by
  have hpoint := byteAt_utf8 mirrors_point hcs
  rw [skipFraction, hpoint]
  cases rest with
  | nil => simp [Numeral.scanFraction]
  | cons c rest =>
    by_cases hc : c = '.'
    · subst hc
      have hdigits := skipBytes_utf8 mirrors_digit
        ((List.append_assoc done ['.'] rest).trans hcs)
      rw [length_utf8_concat mirrors_point rfl, List.append_assoc] at hdigits
      exact (if_pos rfl).trans hdigits
    · have hnone : Numeral.scanFraction (c :: rest) = (none, c :: rest) := by
        apply Numeral.scanFraction_eq_none
        simpa using hc
      rw [if_neg (by simpa using hc), hnone]
      simp

theorem skipSign_utf8 (hcs : done ++ rest = cs) :
    skipSign (utf8 cs) (utf8 done).length =
      (utf8 (done ++ (Numeral.scanSign rest).1.toList)).length := by
  have hsign := byteAt_utf8 mirrors_sign hcs
  rw [skipSign, hsign]
  cases rest with
  | nil => simp [Numeral.scanSign]
  | cons c rest =>
    by_cases hc : (c == '+' || c == '-') = true
    · have hscan : (Numeral.scanSign (c :: rest)).1 = some c := by
        rw [Bool.or_eq_true, beq_iff_eq, beq_iff_eq] at hc
        rcases hc with rfl | rfl <;> rfl
      rw [hscan]
      exact (if_pos hc).trans (length_utf8_concat mirrors_sign hc).symm
    · have hscan : (Numeral.scanSign (c :: rest)).1 = none := by
        rw [Bool.or_eq_true, beq_iff_eq, beq_iff_eq, not_or] at hc
        unfold Numeral.scanSign
        split <;> simp_all
      rw [hscan, Option.toList_none, List.append_nil]
      exact if_neg hc

theorem takeWhile_ne_nil_iff : rest.takeWhile q ≠ [] ↔ rest.head?.any q = true := by
  cases rest with
  | nil => simp
  | cons c rest => cases hc : q c <;> simp [hc]

theorem skipExponent_utf8 (hcs : done ++ rest = cs) :
    skipExponent (utf8 cs) (utf8 done).length =
      (utf8 (done ++ (Numeral.scanExponent rest).1.elim [] Number.Exponent.text)).length := by
  have hexponent := byteAt_utf8 mirrors_exponent hcs
  rw [skipExponent, hexponent]
  cases rest with
  | nil => simp [Numeral.scanExponent]
  | cons mark rest =>
    by_cases hmark : (mark == 'e' || mark == 'E') = true
    · have hsign := skipSign_utf8 ((List.append_assoc done [mark] rest).trans hcs)
      rw [length_utf8_concat mirrors_exponent hmark] at hsign
      have hbody : ((done ++ [mark]) ++ (Numeral.scanSign rest).1.toList) ++
          (Numeral.scanSign rest).2 = cs := by
        rw [List.append_assoc, Numeral.scanSign_text, List.append_assoc]
        exact hcs
      have hdigit := byteAt_utf8 mirrors_digit hbody
      have hdigits := skipBytes_utf8 mirrors_digit hbody
      have hmark' : mark = 'e' ∨ mark = 'E' := by simpa using hmark
      refine (if_pos hmark).trans ?_
      dsimp only
      rw [hsign, hdigit, hdigits]
      by_cases hany : (Numeral.scanSign rest).2.head?.any isDigit = true
      · have hscan : (Numeral.scanExponent (mark :: rest)).1 =
            some ⟨mark, (Numeral.scanSign rest).1, (Numeral.scanSign rest).2.takeWhile isDigit⟩ :=
          congrArg Prod.fst (if_pos ⟨hmark', takeWhile_ne_nil_iff.mpr hany⟩)
        rw [if_pos hany, hscan, Option.elim_some, Number.Exponent.text]
        simp only [List.append_assoc, List.cons_append, List.nil_append]
      · have hscan : (Numeral.scanExponent (mark :: rest)).1 = none :=
          congrArg Prod.fst (if_neg fun h => hany (takeWhile_ne_nil_iff.mp h.2))
        rw [if_neg hany, hscan, Option.elim_none, List.append_nil]
    · have hscan : (Numeral.scanExponent (mark :: rest)).1 = none :=
        congrArg Prod.fst (if_neg fun h => hmark (by simpa using h.1))
      rw [hscan, Option.elim_none, List.append_nil]
      exact if_neg hmark

/-- A numeral at a cut is scanned to its end. -/
theorem scanNumber_utf8 (hcs : done ++ rest = cs) :
    scanNumber (utf8 cs) (utf8 done).length =
      (utf8 (done ++ (Numeral.scan rest).1.text)).length := by
  have hwhole : (done ++ rest.takeWhile isDigit) ++ rest.dropWhile isDigit = cs := by
    rw [List.append_assoc, List.takeWhile_append_dropWhile, hcs]
  have hfraction := skipFraction_utf8 hwhole
  have hpoint : ((done ++ rest.takeWhile isDigit) ++
      (Numeral.scanFraction (rest.dropWhile isDigit)).1.elim [] ('.' :: ·)) ++
        (Numeral.scanFraction (rest.dropWhile isDigit)).2 = cs := by
    rw [List.append_assoc, Numeral.scanFraction_text, hwhole]
  rw [scanNumber, skipBytes_utf8 mirrors_digit hcs, hfraction, skipExponent_utf8 hpoint]
  simp only [Numeral.scan, Numeral.text, List.append_assoc]

/-! ## Tokens -/

/-- What is found where a token begins. -/
def Token.found (start : Nat) : Token → Found
  | .number n => .number (start + (utf8 n.text).length)
  | .word w => .word (start + (utf8 w).length)
  | .other _ => .other

/-- The numeral at the front of a text covers the run of word characters there, if what is left
behind it is no longer than what is left behind the run. -/
theorem length_utf8_run_le_iff {c : Char} (hc : isWordChar c = true) :
    (utf8 (done ++ (c :: rest).takeWhile isWordChar)).length ≤
        (utf8 (done ++ (Numeral.scan (c :: rest)).1.text)).length ↔
      (Numeral.scan (c :: rest)).2.length ≤ (rest.dropWhile isWordChar).length := by
  have hscan := Numeral.scan_text (c :: rest)
  have hprefixes := length_utf8_le_iff (List.takeWhile_prefix isWordChar (l := c :: rest))
    ⟨(Numeral.scan (c :: rest)).2, hscan⟩
  have hrun := length_takeWhile_add_length_dropWhile (c :: rest)
  have hlength := congrArg List.length hscan
  rw [List.dropWhile_cons_of_pos hc] at hrun
  rw [List.length_append] at hlength
  simp only [utf8_append, List.length_append]
  omega

/-- What is found at a cut is the next token. -/
theorem literalAt_utf8 {c : Char} (hcs : done ++ c :: rest = cs) :
    literalAt (utf8 cs) (utf8 done).length =
      some ((next c rest).1.found (utf8 done).length) := by
  obtain ⟨b, bs, hbytes⟩ := exists_utf8EncodeChar_eq_cons c
  have hb : (utf8 cs)[(utf8 done).length]? = some b := by
    rw [← hcs, utf8_append, List.getElem?_append_right (Nat.le_refl _), Nat.sub_self, utf8_cons,
      hbytes]
    rfl
  have hnumber : Found.number (scanNumber (utf8 cs) (utf8 done).length) =
      (Token.number (Numeral.scan (c :: rest)).1).found (utf8 done).length := by
    rw [scanNumber_utf8 hcs, utf8_append, List.length_append]
    rfl
  have hword := skipBytes_utf8 mirrors_word hcs
  rw [literalAt, hb, Option.map_some, mirrors_point.head hbytes, mirrors_word.head hbytes,
    mirrors_digit.head hbytes, hnumber]
  congr 1
  simp only [next]
  by_cases hpoint : c = '.'
  · subst hpoint
    have hdigit := byteAt_utf8 mirrors_digit ((List.append_assoc done ['.'] rest).trans hcs)
    rw [length_utf8_concat mirrors_point rfl] at hdigit
    rw [if_pos (beq_self_eq_true '.'), if_pos rfl, hdigit]
    split <;> rfl
  · rw [if_neg (by simpa using hpoint), if_neg hpoint]
    by_cases hc : isWordChar c = true
    · rw [if_pos hc, if_pos hc, hword, scanNumber_utf8 hcs]
      simp only [length_utf8_run_le_iff hc]
      split
      · rfl
      · rw [utf8_append, List.length_append, List.takeWhile_cons_of_pos hc]
        rfl
    · rw [if_neg hc, if_neg hc]
      rfl

/-- Nothing is found at a byte that is not ASCII. -/
theorem literalAt_of_le {bytes : List UInt8} {i : Nat} {b : UInt8} (hb : bytes[i]? = some b)
    (hle : 128 ≤ b.toNat) : literalAt bytes i = some .other := by
  rw [literalAt, hb, Option.map_some, mirrors_point.of_le hle, mirrors_word.of_le hle]
  rfl

end Scorecard.Formula
