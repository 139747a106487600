import Scorecard.Formula.Error

/-!
# Lexemes

The evaluator reads a formula in two steps.  `glyphs` turns characters into marks, blanks, strings
and runs of plain text, and drops comments.  `lexemes` turns glyphs into operators, parentheses,
constants and identifiers; blanks are gone after it, but they have kept runs of text apart.
-/

namespace Scorecard.Formula

/-- The first grouping of characters. -/
inductive Glyph where
  | text (cs : List Char)
  | string (cs : List Char)
  | blank
  | mark (c : Char)
  deriving DecidableEq, Repr

/-- How a message shows a glyph, and how it counts in a numeral. -/
def Glyph.shown : Glyph → List Char
  | text cs => cs
  | string cs => (Text.quoted (String.ofList cs)).toList
  | blank => [' ']
  | mark c => [c]

/-- The characters that are operators or parts of operators, and the other marks. -/
def isMark (c : Char) : Bool := "+-*/%^(),;=!><&|".toList.contains c

/-- The glyph of one character outside strings and comments. -/
def Glyph.ofChar (c : Char) : Glyph :=
  if isMark c then .mark c else if Text.isBlank c then .blank else .text [c]

/-- Puts a glyph in front of others; two runs of text become one. -/
def Glyph.joinFront : Glyph → List Glyph → List Glyph
  | .text cs, .text ds :: gs => .text (cs ++ ds) :: gs
  | g, gs => g :: gs

/-- Where the reader of glyphs is. -/
inductive Mode where
  | plain
  | string (reversed : List Char)
  | lineComment
  | blockComment

/-- The glyphs of the rest of a formula. -/
def glyphsFrom : Mode → List Char → Except EvalError (List Glyph)
  | .plain, [] => .ok []
  | .plain, '"' :: cs => glyphsFrom (.string []) cs
  | .plain, '/' :: '/' :: cs => glyphsFrom .lineComment cs
  | .plain, '/' :: '*' :: cs => glyphsFrom .blockComment cs
  | .plain, c :: cs => (glyphsFrom .plain cs).map (Glyph.ofChar c).joinFront
  | .string _, [] => .error .unmatchedQuote
  | .string reversed, '"' :: cs =>
      (glyphsFrom .plain cs).map (Glyph.string reversed.reverse :: ·)
  | .string _, ['\\'] => .error (.illegalEscape none)
  | .string reversed, '\\' :: c :: cs =>
      if c = '"' ∨ c = '\\' then glyphsFrom (.string (c :: reversed)) cs
      else .error (.illegalEscape (some c))
  | .string reversed, c :: cs => glyphsFrom (.string (c :: reversed)) cs
  | .lineComment, [] => .ok []
  | .lineComment, c :: cs => glyphsFrom (if c = '\n' then .plain else .lineComment) cs
  | .blockComment, [] => .error .unmatchedComment
  | .blockComment, '*' :: '/' :: cs => glyphsFrom .plain cs
  | .blockComment, _ :: cs => glyphsFrom .blockComment cs

/-- A text without a star does not end a comment. -/
theorem glyphsFrom_comment {cs : List Char} (h : ∀ c ∈ cs, c ≠ '*') (rest : List Char) :
    glyphsFrom .blockComment (cs ++ rest) = glyphsFrom .blockComment rest := by
  induction cs with
  | nil => rfl
  | cons c cs ih =>
    have hstar : c ≠ '*' := h c (by simp)
    rw [← ih fun d hd => h d (by simp [hd])]
    exact glyphsFrom.eq_15 c _ fun _ hc _ => hstar hc

/-- A star that no slash follows does not end a comment. -/
theorem glyphsFrom_star {rest : List Char} (h : ∀ d ∈ rest.head?, d ≠ '/') :
    glyphsFrom .blockComment ('*' :: rest) = glyphsFrom .blockComment rest := by
  refine glyphsFrom.eq_15 '*' rest ?_
  rintro cs - rfl
  exact h '/' (by simp) rfl

theorem glyphsFrom_lineComment {cs : List Char} (h : ∀ c ∈ cs, c ≠ '\n') :
    glyphsFrom .lineComment cs = .ok [] := by
  induction cs with
  | nil => rw [glyphsFrom]
  | cons c cs ih =>
    rw [glyphsFrom, if_neg (h c (by simp)), ih fun d hd => h d (by simp [hd])]

/-- The glyphs of a formula. -/
def glyphs (cs : List Char) : Except EvalError (List Glyph) := glyphsFrom .plain cs

/-- An operator, a parenthesis, a constant or an identifier. -/
inductive Lexeme where
  | operation (operation : Binary)
  | not
  | opening
  | closing
  | comma
  | semicolon
  | assign
  | assignWith (operation : Binary)
  | constant (value : Value)
  | identifier (name : String)

/-- The arithmetic operation of a mark. -/
def arithmetic? : Char → Option Binary
  | '+' => some .add
  | '-' => some .sub
  | '*' => some .mul
  | '/' => some .div
  | '%' => some .mod
  | '^' => some .exp
  | _ => none

/-- The comparison of a mark followed by an equals sign. -/
def comparison? : Char → Option Binary
  | '=' => some .eq
  | '!' => some .neq
  | '>' => some .geq
  | '<' => some .leq
  | _ => none

/-- The logical operation whose mark is written twice. -/
def logical? : Char → Option Binary
  | '&' => some .and
  | '|' => some .or
  | _ => none

/-- A mark that is a lexeme of its own. -/
def Lexeme.ofMark? : Char → Option Lexeme
  | '(' => some .opening
  | ')' => some .closing
  | ',' => some .comma
  | ';' => some .semicolon
  | '=' => some .assign
  | '!' => some .not
  | '>' => some (.operation .gt)
  | '<' => some (.operation .lt)
  | c => (arithmetic? c).map .operation

/-- A mark and the equals sign after it as one lexeme. -/
def Lexeme.beforeEquals? (c : Char) : Option Lexeme :=
  ((comparison? c).map .operation).or ((arithmetic? c).map .assignWith)

/-- The value of a hexadecimal digit. -/
def hexValue? (c : Char) : Option Nat :=
  if '0' ≤ c ∧ c ≤ '9' then some (c.toNat - '0'.toNat)
  else if 'a' ≤ c ∧ c ≤ 'f' then some (c.toNat - 'a'.toNat + 10)
  else if 'A' ≤ c ∧ c ≤ 'F' then some (c.toNat - 'A'.toNat + 10)
  else none

/-- The number that a row of hexadecimal digits stands for. -/
def readHex (cs : List Char) : Option Nat :=
  if cs = [] then none
  else cs.foldlM (fun n c => (hexValue? c).map (16 * n + ·)) 0

/-- The integer of a run of text: hexadecimal after `0x`, or decimal. -/
def readInteger (cs : List Char) : Option Int :=
  match cs with
  | '0' :: 'x' :: digits => ((readHex digits).map Int.ofNat).filter Number.fitsInt64
  | _ => Number.readInt64 cs

/-- The constant that a run of text stands for. -/
def Value.ofText? (cs : List Char) : Option Value :=
  match readInteger cs, Number.readFloat cs with
  | some n, _ => some (.int n)
  | none, some x => some (.float x)
  | none, none =>
      if cs = "true".toList then some (.boolean true)
      else if cs = "false".toList then some (.boolean false)
      else none

/-- The value of a numeral whose exponent sign is a mark between two glyphs. -/
def signedExponent? (cs : List Char) (c : Char) (g : Glyph) : Option Float :=
  if c = '+' ∨ c = '-' then Number.readFloat (cs ++ c :: g.shown) else none

/-- The constant or identifier that a run of text begins, and the count of further glyphs in it. -/
def textLexeme (cs : List Char) (gs : List Glyph) : Lexeme × Nat :=
  match Value.ofText? cs, gs with
  | some v, _ => (.constant v, 0)
  | none, .mark c :: g :: _ =>
      match signedExponent? cs c g with
      | some x => (.constant (.float x), 2)
      | none => (.identifier (String.ofList cs), 0)
  | none, _ => (.identifier (String.ofList cs), 0)

/-- The logical operation, or the assignment through one, that a mark begins when it is written
twice, and the count of further glyphs in it. -/
def logicalLexeme (c : Char) (operation : Binary) (gs : List Glyph) :
    Except EvalError (Lexeme × Nat) :=
  match gs with
  | [] => .error (.incomplete c none)
  | g :: rest =>
      if g = .mark c then
        if rest.head? = some (.mark '=') then .ok (.assignWith operation, 2)
        else .ok (.operation operation, 1)
      else .error (.incomplete c (some (String.ofList g.shown)))

/-- The lexeme that a glyph begins, if any, and the count of further glyphs in it. -/
def takeLexeme (g : Glyph) (gs : List Glyph) : Except EvalError (Option Lexeme × Nat) :=
  match g with
  | .blank => .ok (none, 0)
  | .string cs => .ok (some (.constant (.string (String.ofList cs))), 0)
  | .text cs => .ok ((textLexeme cs gs).map some id)
  | .mark c =>
      match logical? c with
      | some operation => (logicalLexeme c operation gs).map (·.map some id)
      | none =>
          match gs.head? = some (.mark '=') && (Lexeme.beforeEquals? c).isSome with
          | true => .ok (Lexeme.beforeEquals? c, 1)
          | false => .ok (Lexeme.ofMark? c, 0)

/-- The lexemes of a row of glyphs. -/
def lexemes : List Glyph → Except EvalError (List Lexeme)
  | [] => .ok []
  | g :: gs =>
      match takeLexeme g gs with
      | .error e => .error e
      | .ok (l, more) => (lexemes (gs.drop more)).map (l.toList ++ ·)
termination_by gs => gs.length
decreasing_by simp only [List.length_drop, List.length_cons]; omega

end Scorecard.Formula
