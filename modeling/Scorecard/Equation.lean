import Scorecard.Form.Schema
import Scorecard.Text.Utf8

/-!
# Equations

An equation is a name and a formula, such as `Total Score = auto_points + climbed_yes*5`.  To score
a team, every word of the formula that the schema binds is replaced by the team's answer, and the
result is evaluated.  Evaluation never fails: what went wrong is listed, and the score is then `0`.

The words can also be replaced by offsets into the bytes of the formula, without taking it apart:
`Splicing` goes from one word to the next, and `Equation.substituteSpans?` is the whole loop.
-/

namespace Scorecard

/-- The text with the first letter of each word in upper case and the others in lower case.  Words
end at single spaces. -/
def titleCase (name : String) : String :=
  Text.join " " ((Text.splitAt ' ' name.toList).map fun
    | [] => ""
    | c :: cs => String.ofList (Text.upperChar c ++ cs.flatMap Text.lowerChar))

/-- A named formula. -/
structure Equation where
  name : String
  formula : String
  deriving DecidableEq, Repr

/-- A formula with the answers of a team in place. -/
structure Substitution where
  expression : String
  /-- The answers that are not numeric, each once, in order of first appearance. -/
  badAnswers : List BadAnswer
  deriving DecidableEq, Repr

/-- The score of a team under an equation. -/
structure Evaluation where
  score : Float
  expression : String
  problems : List Problem

namespace Equation

/-- Reads `Name = formula`, divided at the first equals sign. -/
def parse (line : List Char) : Except Problem Equation :=
  match Text.cut ['='] line with
  | none => .error (.malformedEquation (String.ofList (Text.trimmed line)))
  | some (name, formula) =>
      .ok ⟨String.ofList (Text.trimmed name), String.ofList (Text.trimmed formula)⟩

/-- The name as the head of a column. -/
def title (e : Equation) : String := titleCase e.name

/-- The equation as a line of a form. -/
def text (e : Equation) : String := e.name ++ " = " ++ e.formula

/-- The identifiers of the formula, in order of appearance. -/
def identifiers (e : Equation) : List String := Formula.identifiers e.formula

/-- What a token of a formula becomes for a team: a bound word becomes its operand, any other token
stays as written. -/
def substituteToken (schema : Schema) (team : Team) : Formula.Token → List Char
  | .word text =>
      match schema.wordBinding? (String.ofList text) with
      | some b => (b.resolve team).1.toList
      | none => text
  | token => token.text

/-- The answer that an identifier reads for a team, if it is not numeric where it should be. -/
def badAnswer? (schema : Schema) (team : Team) (identifier : String) : Option BadAnswer := do
  ((← schema.wordBinding? identifier).resolve team).2

/-- The formula with every bound word replaced. -/
def substitute (e : Equation) (schema : Schema) (team : Team) : Substitution where
  expression := Formula.rewriteTokens (substituteToken schema team) e.formula
  badAnswers := (e.identifiers.filterMap (badAnswer? schema team)).eraseDups

/-- The score of a team. -/
def evaluate (e : Equation) (schema : Schema) (team : Team) : Evaluation :=
  let s := e.substitute schema team
  let bad := s.badAnswers.map Problem.notNumeric
  match Formula.evaluate s.expression with
  | .ok score => ⟨score, s.expression, bad⟩
  | .error failure => ⟨0, s.expression, bad ++ [.formula failure]⟩

end Equation

/-! ## Substitution by offsets -/

/-- A substitution on the way through the words of a formula. -/
structure Splicing where
  /-- The end of the last word that was replaced. -/
  last : Nat := 0
  written : List Char := []
  badAnswers : List BadAnswer := []
  deriving DecidableEq, Repr

/-- Lists an answer that is not numeric, unless it is listed already. -/
def Splicing.note (answers : List BadAnswer) (bad : BadAnswer) : List BadAnswer :=
  if answers.contains bad then answers else answers ++ [bad]

/-- One turn, at the word between two offsets.  A word that the schema does not bind is left for
later, with the text around it.  There is no result where a slice is not there. -/
def Splicing.turn (schema : Schema) (team : Team) (cs : List Char) (l : Splicing)
    (span : Nat × Nat) : Option Splicing := do
  let word ← Text.slice? span.1 span.2 cs
  match schema.wordBinding? (String.ofList word) with
  | none => return l
  | some b =>
      let (answer, bad?) := b.resolve team
      let between ← Text.slice? l.last span.1 cs
      return {
        last := span.2
        written := l.written ++ between ++ answer.toList
        badAnswers := bad?.elim l.badAnswers (note l.badAnswers) }

/-- The formula with every bound word replaced, if its words are between the offsets. -/
def Equation.substituteSpans? (e : Equation) (schema : Schema) (team : Team)
    (spans : List (Nat × Nat)) : Option Substitution := do
  let cs := e.formula.toList
  let mut l : Splicing := {}
  for span in spans do
    l ← l.turn schema team cs span
  let rest ← Text.slice? l.last (Text.utf8 cs).length cs
  return ⟨String.ofList (l.written ++ rest), l.badAnswers⟩

end Scorecard
