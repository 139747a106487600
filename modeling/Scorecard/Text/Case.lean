import Scorecard.Text.Blank
import Scorecard.Text.CaseTable
import Scorecard.Text.CasedTable

/-!
# Letter case

`lowerChar` and `upperChar` are the default case mappings of one character, which may grow.
`lowered` maps a whole text and chooses the sigma at the end of a word.  `asciiLowered` touches the
letters A to Z only; field labels, formats and equation names are compared through it.
-/

namespace Scorecard.Text

/-- The lower case of one character, seen alone. -/
def lowerChar (c : Char) : List Char :=
  if c = 'İ' then ['i', '\u0307']
  else match mapRuns lowerRuns c.toNat with
    | some code => [Char.ofNat code]
    | none => [c]

/-- The upper case of one character. -/
def upperChar (c : Char) : List Char :=
  match upperExpansions.lookup c.toNat with
  | some codes => codes.map Char.ofNat
  | none => match mapRuns upperRuns c.toNat with
    | some code => [Char.ofNat code]
    | none => [c]

/-- The upper case of a text. -/
def upper (s : String) : String := String.ofList (s.toList.flatMap upperChar)

/-- Whether the character is a letter with case. -/
def isCased (c : Char) : Bool := inRanges casedRanges c

/-- Whether the character is passed over when the end of a word is looked for. -/
def isCaseIgnorable (c : Char) : Bool := inRanges caseIgnorableRanges c

/-- Whether a cased letter comes first, case-ignorable characters aside. -/
def startsCased (cs : List Char) : Bool :=
  match cs.dropWhile isCaseIgnorable with
  | [] => false
  | c :: _ => isCased c

/-- The lower case of the text that follows `before`, which is given last character first.  A
capital sigma that ends a word becomes the final sigma. -/
def loweredAfter (before : List Char) : List Char → List Char
  | [] => []
  | c :: cs =>
      (if c = 'Σ' then [if startsCased before && !startsCased cs then 'ς' else 'σ']
        else lowerChar c) ++ loweredAfter (c :: before) cs

/-- The lower case of a text. -/
def lowered (cs : List Char) : List Char := loweredAfter [] cs

/-- The lower case of a text. -/
def lower (s : String) : String := String.ofList (lowered s.toList)

@[simp] theorem toList_lower (s : String) : (lower s).toList = lowered s.toList := by
  simp [lower]

/-- The lower case of one of the letters A to Z; any other character is kept. -/
def asciiLowerChar (c : Char) : Char :=
  if 'A' ≤ c ∧ c ≤ 'Z' then Char.ofNat (c.toNat + 32) else c

/-- The text with the letters A to Z in lower case. -/
def asciiLowered (cs : List Char) : List Char := cs.map asciiLowerChar

/-- Whether two texts differ at most in the case of the letters A to Z. -/
def sameIgnoringAsciiCase (s t : String) : Bool :=
  asciiLowered s.toList == asciiLowered t.toList

end Scorecard.Text
