import Mathlib
import Scorecard.Proofs.Number.Digits
import Scorecard.Report.Identifier
import Scorecard.Report.Timestamp

/-!
# Stamps are read back

A report is stamped with its identifier and with the time of its making.  Both are read from their
own text: `Identifier.parse_text` and `Timestamp.parse_text`.  The second holds for every timestamp,
with a year of any size and either sign, a leap second, and a fraction of up to nine digits.
-/

namespace Scorecard

open Number

/-! ## Identifiers -/

namespace Identifier

theorem mem_hexDigits {n : Nat} {c : Char} (h : c ∈ Text.hexDigits n) :
    ∃ d < 16, c = Nat.digitChar d := by
  induction n using Nat.strong_induction_on with
  | h n ih =>
    rw [Text.hexDigits, Nat.toDigits_eq_if (by decide)] at h
    split at h
    · next hsmall => exact ⟨n, hsmall, List.mem_singleton.mp h⟩
    · next hlarge =>
      rcases List.mem_append.mp h with h | h
      · exact ih (n / 16) (by omega) h
      · exact ⟨_, Nat.mod_lt _ (by decide), List.mem_singleton.mp h⟩

theorem length_hyphenated (ns : List Nat) (cs : List Char) :
    (hyphenated ns cs).length = cs.length + (ns.length - 1) := by
  fun_induction hyphenated ns cs with
  | case1 => rfl
  | case2 => rfl
  | case3 n ns cs hne ih =>
    have hpos : 0 < ns.length := List.length_pos_iff.mpr hne
    simp only [List.length_append, List.length_cons, ih, List.length_take, List.length_drop]
    omega

/-- The hyphens are found again where they were put. -/
theorem unhyphenated?_hyphenated {ns : List Nat} {cs : List Char} (h : ns.sum ≤ cs.length) :
    unhyphenated? ns (hyphenated ns cs) = some cs := by
  fun_induction hyphenated ns cs with
  | case1 => rfl
  | case2 => rfl
  | case3 n ns cs hne ih =>
    rw [List.sum_cons] at h
    have hlength : (cs.take n).length = n := by
      rw [List.length_take]
      omega
    have hhyphen : (cs.take n ++ '-' :: hyphenated ns (cs.drop n))[n]? = some '-' := by
      rw [List.getElem?_append_right (by omega), hlength, Nat.sub_self]
      rfl
    have hdrop : (cs.take n ++ '-' :: hyphenated ns (cs.drop n)).drop (n + 1) =
        hyphenated ns (cs.drop n) := by
      rw [List.drop_append, hlength, List.drop_eq_nil_of_le (by omega), Nat.add_sub_cancel_left]
      rfl
    have htake : (cs.take n ++ '-' :: hyphenated ns (cs.drop n)).take n = cs.take n :=
      List.take_left' hlength
    rw [unhyphenated?, if_pos hhyphen, hdrop, htake, ih, Option.map_some, List.take_append_drop]
    · rw [List.length_drop]
      omega
    · exact hne

/-- The digits of an identifier, with zeros before them. -/
def digits (i : Identifier) : List Char :=
  List.replicate (32 - (Text.hexDigits i.bits.toNat).length) '0' ++ Text.hexDigits i.bits.toNat

theorem length_digits (i : Identifier) : i.digits.length = 32 := by
  have hlength : (Text.hexDigits i.bits.toNat).length ≤ 32 :=
    (Nat.length_toDigits_le_iff (by decide) (by decide)).mpr i.bits.isLt
  rw [digits, List.length_append, List.length_replicate]
  omega

theorem ofDigits?_digits (i : Identifier) : ofDigits? i.digits = some i := by
  rw [ofDigits?, if_pos i.length_digits, digits, ofHexDigits?_zeros_append, ofHexDigits?_hexDigits,
    Option.map_some, BitVec.ofNat_toNat, BitVec.setWidth_eq]

theorem ofHyphenated?_text (i : Identifier) :
    ofHyphenated? (hyphenated groups i.digits) = some i := by
  rw [ofHyphenated?, unhyphenated?_hyphenated (by rw [length_digits]; decide), Option.bind_some,
    ofDigits?_digits]

/-- No identifier looks as if it stood after `urn:uuid:`. -/
theorem asciiLowered_take_ne (i : Identifier) :
    Text.asciiLowered ((hyphenated groups i.digits).take namespaceMark.length) ≠ namespaceMark := by
  have hall : ∀ d < 16, Text.asciiLowerChar (Nat.digitChar d) ≠ 'u' := by decide
  obtain ⟨c, cs, hcs⟩ := List.exists_cons_of_length_eq_add_one i.length_digits
  have hc : ∃ d < 16, c = Nat.digitChar d := by
    rcases List.mem_append.mp (hcs ▸ List.mem_cons_self : c ∈ i.digits) with h | h
    · exact ⟨0, by decide, List.eq_of_mem_replicate h⟩
    · exact mem_hexDigits h
  obtain ⟨d, hd, rfl⟩ := hc
  intro h
  rw [hcs] at h
  exact hall d hd (List.cons.inj h).1

/-- An identifier is read from its text. -/
theorem parse_text (i : Identifier) : Identifier.parse i.text.toList = some i := by
  have hlength : (hyphenated groups i.digits).length = 36 := by
    rw [length_hyphenated, length_digits]
    rfl
  show Identifier.parse (String.ofList (hyphenated groups i.digits)).toList = some i
  rw [String.toList_ofList, Identifier.parse, if_neg (by omega), if_neg (by omega),
    if_neg i.asciiLowered_take_ne, ofHyphenated?_text]

end Identifier

/-! ## Timestamps -/

namespace Timestamp

open Text (isBlank dropBlanks)

theorem isBlank_of_isDigit {c : Char} (h : isDigit c = true) : isBlank c = false := by
  simp only [isDigit, Bool.and_eq_true, decide_eq_true_eq, Char.le_def, UInt32.le_iff_toNat_le] at h
  have hcode : 48 ≤ c.toNat ∧ c.toNat ≤ 57 := h
  simp only [isBlank, Text.inRanges, Text.blankRanges, List.any_cons, List.any_nil, Bool.or_false,
    Bool.or_eq_false_iff, Bool.and_eq_false_iff, decide_eq_false_iff_not]
  omega

theorem dropBlanks_digits {ds : List Char} (hds : ∀ c ∈ ds, isDigit c = true) (hne : ds ≠ [])
    (after : List Char) : dropBlanks (ds ++ after) = ds ++ after := by
  refine Text.dropBlanks_of_head? fun c hc => ?_
  rw [List.head?_append_of_ne_nil _ hne] at hc
  exact isBlank_of_isDigit (hds c (List.mem_of_mem_head? hc))

/-! ### Padded numbers -/

theorem ofDigits_padded (width n : Nat) : ofDigits (padded width n) = n := by
  rw [padded, ofDigits_zeros_append, ofDigits_natDigits]

theorem isDigit_padded {width n : Nat} : ∀ c ∈ padded width n, isDigit c = true := by
  intro c hc
  exact (List.mem_append.mp hc).elim isDigit_of_mem_zeros isDigit_of_mem_natDigits

theorem padded_ne_nil (width n : Nat) : padded width n ≠ [] := by
  simp [padded, natDigits_ne_nil]

theorem length_padded {width n : Nat} (hwidth : 0 < width) (h : n < 10 ^ width) :
    (padded width n).length = width := by
  have hlength := (length_natDigits_le_iff hwidth).mpr h
  rw [padded, List.length_append, List.length_replicate]
  omega

/-! ### Scanners -/

/-- Digits are taken as a number if they are as many as may be taken or no digit follows them. -/
theorem takeNumber_append {most : Nat} {ds after : List Char} (hds : ∀ c ∈ ds, isDigit c = true)
    (hne : ds ≠ []) (hmost : ds.length ≤ most)
    (hafter : ds.length = most ∨ ∀ c ∈ after.head?, isDigit c = false) :
    takeNumber most (ds ++ after) = some (ofDigits ds, after) := by
  have htake : ((ds ++ after).take most).takeWhile isDigit = ds := by
    rw [List.take_append, List.take_of_length_le hmost]
    refine (span_digits hds ?_).1
    rcases hafter with h | h
    · simp [h]
    · intro c hc
      rw [List.head?_take] at hc
      split at hc
      · simp at hc
      · exact h c hc
  rw [takeNumber, dropBlanks_digits hds hne]
  simp only [htake, if_neg hne, List.drop_left]

/-- A padded number is taken with its width. -/
theorem takeNumber_padded (width : Nat) {n : Nat} (hwidth : 0 < width) (h : n < 10 ^ width)
    (after : List Char) : takeNumber width (padded width n ++ after) = some (n, after) := by
  have hlength := length_padded hwidth h
  rw [takeNumber_append isDigit_padded (padded_ne_nil _ _) hlength.le (.inl hlength),
    ofDigits_padded]

theorem afterMark_cons (mark : Char) (h : isBlank mark = false) (after : List Char) :
    afterMark mark (mark :: after) = some after := by
  rw [afterMark, Text.dropBlanks_of_head? (by simpa using h)]
  exact if_pos rfl

/-- A year with a sign takes all its digits. -/
theorem takeYear_signed {year : Int} {sign : Char} {ds after : List Char}
    (hsign : sign = '-' ∧ year = -(ofDigits ds : Int) ∨ sign = '+' ∧ year = ofDigits ds)
    (hds : ∀ c ∈ ds, isDigit c = true) (hne : ds ≠ [])
    (hafter : ∀ c ∈ after.head?, isDigit c = false) :
    takeYear (sign :: (ds ++ after)) = some (year, after) := by
  have hblank : isBlank sign = false := by
    rcases hsign with ⟨rfl, -⟩ | ⟨rfl, -⟩ <;> decide
  have hhead : (ds ++ after).head?.any isDigit = true := by
    obtain ⟨d, ds, rfl⟩ := List.exists_cons_of_ne_nil hne
    exact hds d (by simp)
  have hnumber : takeNumber (ds ++ after).length (ds ++ after) = some (ofDigits ds, after) :=
    takeNumber_append hds hne (by simp) (.inr hafter)
  rw [takeYear, Text.dropBlanks_of_head? (by simpa using hblank)]
  rcases hsign with ⟨rfl, rfl⟩ | ⟨rfl, rfl⟩ <;>
    simp only [hhead, if_true, hnumber, Option.map_some]

theorem takeYear_yearText (year : Int) (after : List Char)
    (hafter : ∀ c ∈ after.head?, isDigit c = false) :
    takeYear (yearText year ++ after) = some (year, after) := by
  have hdigits := @isDigit_padded 4 year.natAbs
  have hne := padded_ne_nil 4 year.natAbs
  have hvalue := ofDigits_padded 4 year.natAbs
  rw [yearText]
  split
  · next hfour =>
    have hnumber := takeNumber_padded 4 (by decide)
      (by omega : year.natAbs < 10 ^ 4) after
    have hdrop := dropBlanks_digits hdigits hne after
    obtain ⟨c, cs, hcs⟩ := List.exists_cons_of_ne_nil hne
    have hc : isDigit c = true := hdigits c (by simp [hcs])
    rw [takeYear, hdrop]
    split
    · next heq =>
      rw [hcs] at heq
      obtain rfl := (List.cons.inj heq).1
      exact absurd hc (by decide)
    · next heq =>
      rw [hcs] at heq
      obtain rfl := (List.cons.inj heq).1
      exact absurd hc (by decide)
    · simp only [hnumber, Option.map_some, Int.natAbs_of_nonneg hfour.1]
  · next hsigned =>
    refine takeYear_signed ?_ hdigits hne hafter
    rw [hvalue]
    split
    · exact .inl ⟨rfl, by omega⟩
    · exact .inr ⟨rfl, by omega⟩

theorem Date.month_le (d : Date) : d.month ≤ 12 ∧ d.day ≤ 31 := by
  have hvalid := d.valid
  have hdays : daysInMonth d.year d.month ≤ 31 := by
    unfold daysInMonth
    split_ifs <;> decide
  simp only [isDate, Bool.and_eq_true, decide_eq_true_eq] at hvalid
  omega

theorem takeDate_dateText (t : Timestamp) (after : List Char) :
    takeDate (t.dateText ++ after) = some (t.date, after) := by
  obtain ⟨hmonth, hday⟩ := Date.month_le t.date
  have hdate : Date.ofParts? t.date.year t.date.month t.date.day = some t.date :=
    dif_pos t.date.valid
  have hyear := fun rest => takeYear_yearText t.date.year ('-' :: rest) (by simp; decide)
  simp only [takeDate, dateText, List.append_assoc, List.cons_append, hyear,
    Option.bind_eq_bind, Option.bind_some, Option.pure_def, afterMark_cons '-' (by decide),
    takeNumber_padded 2 (by decide) (by omega : t.date.month < 10 ^ 2),
    takeNumber_padded 2 (by decide) (by omega : t.date.day < 10 ^ 2), hdate]

/-- A fraction of so many digits is taken as it was written. -/
theorem takeFraction_padded {width n : Nat} (hwidth : 0 < width) (hnine : width ≤ 9)
    (h : n < 10 ^ width) {after : List Char} (hafter : ∀ c ∈ after.head?, isDigit c = false) :
    takeFraction ('.' :: (padded width n ++ after)) = some (n * 10 ^ (9 - width), after) := by
  have hlength := length_padded hwidth h
  have htake : (padded width n ++ after).takeWhile isDigit = padded width n :=
    (span_digits isDigit_padded hafter).1
  rw [takeFraction]
  simp only [htake, if_neg (padded_ne_nil width n), List.drop_left]
  rw [ofFraction, List.take_of_length_le (by omega), ofDigits_padded, hlength]
  rfl

theorem takeFraction_fractionText {ns : Nat} (h : ns < 1000000000) {after : List Char}
    (hafter : ∀ c ∈ after.head?, isDigit c = false ∧ c ≠ '.') :
    takeFraction (fractionText ns ++ after) = some (ns, after) := by
  have hdigit : ∀ c ∈ after.head?, isDigit c = false := fun c hc => (hafter c hc).1
  unfold fractionText
  split
  · next hzero =>
    rw [hzero, List.nil_append]
    unfold takeFraction
    split
    · exact absurd rfl (hafter '.' rfl).2
    · rfl
  · split
    · rw [List.cons_append, takeFraction_padded (by decide) (by decide) (by omega) hdigit]
      congr 2
      omega
    · split
      · rw [List.cons_append, takeFraction_padded (by decide) (by decide) (by omega) hdigit]
        congr 2
        omega
      · rw [List.cons_append, takeFraction_padded (by decide) (by decide) (by omega) hdigit]
        congr 2
        omega

theorem takeTime_timeText (t : Timestamp) (after : List Char)
    (hafter : ∀ c ∈ after.head?, isDigit c = false ∧ c ≠ '.') :
    takeTime (t.timeText [':'] ++ (fractionText t.nanosecond ++ after)) =
      some ((t.minuteOfDay.val / 60, t.minuteOfDay.val % 60, t.second.val, t.nanosecond.val),
        after) := by
  have hminute := t.minuteOfDay.isLt
  have hsecond := t.second.isLt
  have htwo := fun {n : Nat} (h : n < 100) rest => takeNumber_padded 2 (by decide) h rest
  simp only [takeTime, timeText, List.append_assoc, List.cons_append, List.nil_append,
    Option.bind_eq_bind, Option.bind_some, Option.pure_def, afterMark_cons ':' (by decide),
    htwo (by omega : t.minuteOfDay.val / 60 < 100), htwo (by omega : t.minuteOfDay.val % 60 < 100),
    htwo (by omega : t.second.val < 100), takeFraction_fractionText t.nanosecond.isLt hafter]

/-- At no offset the local time is the time itself. -/
theorem ofLocal?_eq (t : Timestamp) : ofLocal? t.date (t.minuteOfDay.val / 60)
    (t.minuteOfDay.val % 60) t.second t.nanosecond 0 = some t := by
  have hminute := t.minuteOfDay.isLt
  have hminutes : ((t.minuteOfDay.val / 60 * 60 + t.minuteOfDay.val % 60 : Nat) : Int) - 0 =
      t.minuteOfDay.val := by omega
  have hsame : ((t.minuteOfDay.val : Int) % 1440).toNat = t.minuteOfDay.val := by omega
  have hday : (t.minuteOfDay.val : Int) / 1440 = 0 := by omega
  rw [ofLocal?, if_pos (by omega)]
  simp only [hminutes, hsame, hday]
  rw [dif_pos ⟨hminute, t.second.isLt, t.nanosecond.isLt⟩]
  rfl

/-- A timestamp is read from its text. -/
theorem parse_text (t : Timestamp) : Timestamp.parse t.text.toList = some t := by
  have htime := takeTime_timeText t ['Z'] (by simp; decide)
  have hoffset : takeOffset (dropBlanks ['Z']) = some (0, []) := by decide
  have hnothing : dropBlanks [] = [] := rfl
  simp only [text, String.toList_ofList, List.append_assoc, List.cons_append, Timestamp.parse,
    takeDate_dateText, Option.bind_eq_bind, Option.bind_some, List.head?_cons, List.tail_cons,
    htime, hoffset, hnothing, ne_eq, not_true_eq_false, false_and, if_false, ofLocal?_eq]

theorem isDate_leapDay : isDate 2024 2 29 = true := by decide

/-- The last moment of a leap second, on a day that only leap years have. -/
def leapSecond : Timestamp :=
  ⟨⟨2024, 2, 29, isDate_leapDay⟩, Fin.last _, Fin.last _, Fin.last _⟩

end Timestamp

end Scorecard
