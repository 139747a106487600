import Scorecard.Number.Numeral
import Scorecard.Number.Text

/-!
# Words and literals of a formula

A formula is cut into numeric literals, words, and single other characters.  A run of word
characters that starts with a digit is a literal only if the literal covers the whole run, so `1e5`
and `2.5` are literals while `2nd_gear` is a word; a signed exponent takes a literal past its run.

The words are the identifiers.  Everything done to a formula before it is evaluated goes through
this one list of tokens, and the tokens put together are the formula again (`tokens_text`).

The evaluator tells whole numbers from fractional ones and divides the former without remainder.
Scores are always fractional, so each literal is first written with a point: `7 / 2` becomes
`7.0 / 2.0`, `.5` becomes `0.5`, and `1e-2` becomes `0.01`.
-/

namespace Scorecard.Formula

open Number (Numeral isDigit)

/-- A piece of a formula. -/
inductive Token where
  | number (literal : Numeral)
  | word (text : List Char)
  | other (c : Char)
  deriving DecidableEq, Repr

/-- The token as written. -/
def Token.text : Token → List Char
  | number literal => literal.text
  | word text => text
  | other c => [c]

/-- The ASCII letters and digits and the underscore. -/
def isWordChar (c : Char) : Bool := c.isAlphanum || c == '_'

/-- The token at the front of a text, and the rest. -/
def next (c : Char) (cs : List Char) : Token × List Char :=
  let (literal, rest) := Numeral.scan (c :: cs)
  if c = '.' then
    if cs.head?.any isDigit then (.number literal, rest) else (.other c, cs)
  else if isWordChar c then
    let afterWord := cs.dropWhile isWordChar
    if isDigit c ∧ rest.length ≤ afterWord.length then (.number literal, rest)
    else (.word (c :: cs.takeWhile isWordChar), afterWord)
  else (.other c, cs)

/-- A token and the rest are the text. -/
theorem next_text (c : Char) (cs : List Char) : (next c cs).1.text ++ (next c cs).2 = c :: cs := by
  have h := Numeral.scan_text (c :: cs)
  simp only [next]
  split
  · split <;> simp [Token.text, h]
  · split
    · split <;> simp [Token.text, h]
    · simp [Token.text]

theorem scan_length_lt {c : Char} {cs : List Char} (h : isDigit c ∨ (c = '.' ∧ cs.head?.any isDigit)) :
    (Numeral.scan (c :: cs)).2.length ≤ cs.length := by
  have key := congrArg List.length (Numeral.scan_text (c :: cs))
  have pos : 0 < (Numeral.scan (c :: cs)).1.text.length := by
    rcases h with h | ⟨rfl, h⟩
    · simp [Numeral.scan, Numeral.text, h]
    · have hdot : isDigit '.' = false := by decide
      simp [Numeral.scan, Numeral.text, hdot, Numeral.scanFraction]
  simp only [List.length_append, List.length_cons] at key
  omega

/-- A token is never empty. -/
theorem next_length (c : Char) (cs : List Char) : (next c cs).2.length ≤ cs.length := by
  simp only [next]
  split
  · next hc =>
    split
    · next hd => exact scan_length_lt (.inr ⟨hc, hd⟩)
    · simp
  · split
    · split
      · next hd => exact scan_length_lt (.inl hd.1)
      · exact (List.dropWhile_sublist _).length_le
    · simp

/-- The tokens of a formula from left to right. -/
def tokens : List Char → List Token
  | [] => []
  | c :: cs => (next c cs).1 :: tokens (next c cs).2
termination_by cs => cs.length
decreasing_by exact Nat.lt_succ_of_le (next_length c cs)

/-- The tokens put together are the formula. -/
theorem tokens_text (cs : List Char) : (tokens cs).flatMap Token.text = cs := by
  fun_induction tokens cs with
  | case1 => rfl
  | case2 c cs ih => rw [List.flatMap_cons, ih, next_text]

/-- The identifiers of a formula, in order of appearance. -/
def identifiers (formula : String) : List String :=
  (tokens formula.toList).filterMap fun
    | .word text => some (String.ofList text)
    | _ => none

/-- The formula with every token replaced by a text of its own. -/
def rewriteTokens (f : Token → List Char) (formula : String) : String :=
  String.ofList ((tokens formula.toList).flatMap f)

/-! ## Fractional literals -/

/-- Literals have a point and no exponent. -/
def literalStyle : Number.Style := { Number.Style.score with wholeHasPoint := true }

/-- What a token becomes: a literal its value with a point, anything else itself. -/
def withPoint : Token → List Char
  | .number literal => literalStyle.text (literal.toFloat false)
  | token => token.text

/-- The formula with every literal written with a point. -/
def fractional (formula : String) : String := rewriteTokens withPoint formula

end Scorecard.Formula
