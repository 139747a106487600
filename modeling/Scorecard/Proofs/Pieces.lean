import Mathlib.Data.List.Forall2
import Scorecard.Proofs.Form.Dependence
import Scorecard.Proofs.Formula.Opening

/-!
# What substitution changes

A formula is cut into tokens, and every word that the schema binds is replaced.  The tokens are the
only cut of the formula (`cut_iff`).

* `Schema.Replaces` is the text that takes the place of a token, and the expression is these texts
  one after the other (`Equation.replaces_substituteToken`, `Equation.expression_eq_flatten`).
* Only the whole words of the formula are looked up, so a key inside a longer word or inside a
  literal changes nothing.

`Equation.substitute_pieces` puts the parts together.
-/

namespace Scorecard

open Formula

/-- What stands in the place of a token for a team: the answer in the place of a word whose lower
case is bound, and the token itself in any other place. -/
inductive Schema.Replaces (schema : Schema) (team : Team) : Token → List Char → Prop where
  | bound {w : List Char} {b : Binding}
      (hb : schema.binding? (Text.lower (String.ofList w)) = some b) :
      Replaces schema team (.word w) (b.resolve team).1.toList
  | unbound {w : List Char} (hw : schema.binding? (Text.lower (String.ofList w)) = none) :
      Replaces schema team (.word w) w
  | number (n : Number.Numeral) : Replaces schema team (.number n) n.text
  | other (c : Char) : Replaces schema team (.other c) [c]

namespace Equation

variable {schema : Schema} {team : Team}

theorem replaces_substituteToken (schema : Schema) (team : Team) (t : Token) :
    schema.Replaces team t (substituteToken schema team t) := by
  cases t with
  | number n => exact .number n
  | other c => exact .other c
  | word w =>
    cases hb : schema.wordBinding? (String.ofList w) with
    | none =>
      have hkept : substituteToken schema team (.word w) = w := by simp only [substituteToken, hb]
      rw [hkept]
      exact .unbound hb
    | some b =>
      have hanswer : substituteToken schema team (.word w) = (b.resolve team).1.toList := by
        simp only [substituteToken, hb]
      rw [hanswer]
      exact .bound hb

/-- A token that is not a bound word stays as it is. -/
theorem substituteToken_eq_text {t : Token}
    (h : ∀ w, t = .word w → schema.binding? (Text.lower (String.ofList w)) = none) :
    substituteToken schema team t = t.text := by
  cases t with
  | number _ | other _ => rfl
  | word w => simp only [substituteToken, Schema.wordBinding?, h w rfl, Token.text]

theorem expression_eq_flatten (e : Equation) (schema : Schema) (team : Team) :
    (e.substitute schema team).expression.toList =
      ((tokens e.formula.toList).map (substituteToken schema team)).flatten := by
  rw [substitute, rewriteTokens, String.toList_ofList, List.flatMap_def]

/-- Substitution changes bound words and nothing else.  A formula is cut into tokens in exactly one
way.  The expression is made of one piece for each token, in order: the answer for a word that is
bound, and the token itself for any other.  It is the same for a schema that binds other
identifiers, as long as the whole words of the formula are bound alike, and it is the formula if
none of them is bound. -/
theorem substitute_pieces (e : Equation) (schema : Schema) (team : Team) :
    ∃ (ts : List Token) (pieces : List (List Char)),
      (∀ us, Cut e.formula.toList us ↔ us = ts) ∧
      List.Forall₂ (schema.Replaces team) ts pieces ∧
      (e.substitute schema team).expression.toList = pieces.flatten ∧
      (∀ other : Schema, (∀ w, .word w ∈ ts → other.binding? (Text.lower (String.ofList w)) =
          schema.binding? (Text.lower (String.ofList w))) →
        (e.substitute other team).expression = (e.substitute schema team).expression) ∧
      ((∀ w, .word w ∈ ts → schema.binding? (Text.lower (String.ofList w)) = none) →
        (e.substitute schema team).expression = e.formula) := by
  refine ⟨tokens e.formula.toList, (tokens e.formula.toList).map (substituteToken schema team),
    fun us => cut_iff, ?_, expression_eq_flatten e schema team, fun other hother => ?_,
    fun hnone => ?_⟩
  · rw [List.forall₂_map_right_iff, List.forall₂_same]
    exact fun t _ => replaces_substituteToken schema team t
  · have hsame : e.substitute other team = e.substitute schema team := by
      refine substitute_congr fun name hname => ?_
      obtain ⟨t, ht, hname⟩ := List.mem_filterMap.mp hname
      cases t with
      | number _ | other _ => exact absurd hname (by simp)
      | word w =>
        obtain rfl := Option.some.inj hname
        simp only [Schema.wordBinding?, hother w ht]
    rw [hsame]
  · have hkept : (tokens e.formula.toList).map (substituteToken schema team) =
        (tokens e.formula.toList).map Token.text := by
      refine List.map_congr_left fun t ht => substituteToken_eq_text ?_
      rintro w rfl
      exact hnone w ht
    apply String.toList_injective
    rw [expression_eq_flatten, hkept, ← List.flatMap_def, tokens_text]

/-- A formula with a key inside a literal, inside a word and in front of a word. -/
def nestedFormula : Equation := ⟨"Total", "1e5+2e5x*SCORE2-score22é"⟩

/-- The keys `e5` and `score` change nothing: only the word `SCORE2` is replaced.  Without its key
the formula stays as it is. -/
theorem substitute_pieces_nested :
    Cut nestedFormula.formula.toList
      [.number ⟨['1'], none, some ⟨'e', none, ['5']⟩⟩, .other '+', .word "2e5x".toList, .other '*',
        .word "SCORE2".toList, .other '-', .word "score22".toList, .other 'é'] ∧
    (nestedFormula.substitute
      (.ofFields [.stepper ⟨[], [], ["e5", "score"]⟩, .stepper ⟨[], [], ["Score2"]⟩])
      ⟨"254", [("e5", "1"), ("score", "3"), ("score2", "-4")]⟩).expression =
        "1e5+2e5x*(-4)-score22é" ∧
    (nestedFormula.substitute (.ofFields [.stepper ⟨[], [], ["e5", "score"]⟩])
      ⟨"254", [("e5", "1"), ("score", "3"), ("score2", "-4")]⟩).expression =
        nestedFormula.formula := by
  have hcut : Cut nestedFormula.formula.toList
      [.number ⟨['1'], none, some ⟨'e', none, ['5']⟩⟩, .other '+', .word "2e5x".toList, .other '*',
        .word "SCORE2".toList, .other '-', .word "score22".toList, .other 'é'] :=
    cut_iff.mpr (by decide +kernel)
  have hwords : ∀ w : List Char, .word w ∈ ([.number ⟨['1'], none, some ⟨'e', none, ['5']⟩⟩,
      .other '+', .word "2e5x".toList, .other '*', .word "SCORE2".toList, .other '-',
      .word "score22".toList, .other 'é'] : List Token) →
        w ∈ ["2e5x".toList, "SCORE2".toList, "score22".toList] := by
    intro w hw
    simpa using hw
  refine ⟨hcut, ?_, ?_⟩
  · obtain ⟨ts, pieces, hunique, -, -, hsame, -⟩ := substitute_pieces nestedFormula
      (.ofFields [.stepper ⟨[], [], ["Score2"]⟩])
      ⟨"254", [("e5", "1"), ("score", "3"), ("score2", "-4")]⟩
    obtain rfl := (hunique _).mp hcut
    have halike : ∀ w ∈ ["2e5x".toList, "SCORE2".toList, "score22".toList],
        (Schema.ofFields [.stepper ⟨[], [], ["e5", "score"]⟩,
          .stepper ⟨[], [], ["Score2"]⟩]).binding? (Text.lower (String.ofList w)) =
        (Schema.ofFields [.stepper ⟨[], [], ["Score2"]⟩]).binding?
          (Text.lower (String.ofList w)) := by decide +kernel
    rw [hsame _ fun w hw => halike w (hwords w hw)]
    decide +kernel
  · obtain ⟨ts, pieces, hunique, -, -, -, hnone⟩ := substitute_pieces nestedFormula
      (.ofFields [.stepper ⟨[], [], ["e5", "score"]⟩])
      ⟨"254", [("e5", "1"), ("score", "3"), ("score2", "-4")]⟩
    obtain rfl := (hunique _).mp hcut
    have hunbound : ∀ w ∈ ["2e5x".toList, "SCORE2".toList, "score22".toList],
        (Schema.ofFields [.stepper ⟨[], [], ["e5", "score"]⟩]).binding?
          (Text.lower (String.ofList w)) = none := by decide +kernel
    exact hnone fun w hw => hunbound w (hwords w hw)

end Equation

end Scorecard
