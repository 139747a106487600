import Scorecard.Equation
import Scorecard.Proofs.Formula.ByteLoops

/-!
# Substitution by offsets

The words of a formula are replaced where they stand, from the first to the last.  A cursor marks
the end of the last word that was replaced.  A word that is not bound leaves it where it is, so the
text between two words that are replaced is copied in one piece.

* `Splicing.Inv` is what holds when some tokens lie behind: what has been written, with the text
  from the cursor on, is what these tokens become, and their bad answers are listed once each.
  Every turn keeps it (`Splicing.Inv.step_word`), and so does a token that is no word
  (`Splicing.Inv.step_kept`).
* So the loop over the words that the search finds never asks for a slice that is not there, and
  yields the substitution (`Equation.exists_substituteSpans?_eq`).
-/

namespace Scorecard

open Formula Text

namespace Splicing

/-- A search before every note leaves out what has been noted. -/
theorem eraseDups_append_singleton (answers : List BadAnswer) (bad : BadAnswer) :
    (answers ++ [bad]).eraseDups = note answers.eraseDups bad := by
  rw [List.eraseDups_append, note]
  by_cases hlisted : bad ∈ answers
  · simp [List.removeAll, hlisted]
  · simp [List.removeAll, hlisted, List.eraseDups_cons]

/-- The answer that a token asks for, if it is not numeric where it should be. -/
def badAnswer? (schema : Schema) (team : Team) : Token → Option BadAnswer
  | .word text => Equation.badAnswer? schema team (String.ofList text)
  | _ => none

/-- The answers that tokens ask for and that are not numeric, each once. -/
def noted (schema : Schema) (team : Team) (ts : List Token) : List BadAnswer :=
  (ts.filterMap (badAnswer? schema team)).eraseDups

theorem noted_append_singleton (schema : Schema) (team : Team) (ts : List Token) (t : Token) :
    noted schema team (ts ++ [t]) = (badAnswer? schema team t).elim
      (noted schema team ts) (note (noted schema team ts)) := by
  rw [noted, List.filterMap_append]
  cases hbad : badAnswer? schema team t with
  | none =>
    rw [List.filterMap_cons_none hbad, List.filterMap_nil, List.append_nil]
    rfl
  | some bad =>
    rw [List.filterMap_cons_some hbad, List.filterMap_nil, eraseDups_append_singleton]
    rfl

theorem noted_tokens (e : Equation) (schema : Schema) (team : Team) :
    noted schema team (tokens e.formula.toList) = (e.substitute schema team).badAnswers := by
  rw [noted, Equation.substitute, Equation.identifiers, identifiers, List.filterMap_filterMap]
  congr 2
  funext t
  cases t <;> rfl

/-! ## Turns -/

variable {schema : Schema} {team : Team} {ts : List Token} {l : Splicing} {cs after w : List Char}
  {start stop : Nat} {b : Binding}

theorem turn_of_unbound (hword : slice? start stop cs = some w)
    (hb : schema.wordBinding? (String.ofList w) = none) :
    l.turn schema team cs (start, stop) = some l := by
  simp [turn, hword, hb]

theorem turn_of_bound {between : List Char} (hword : slice? start stop cs = some w)
    (hb : schema.wordBinding? (String.ofList w) = some b)
    (hbetween : slice? l.last start cs = some between) :
    l.turn schema team cs (start, stop) = some ⟨stop,
      l.written ++ between ++ (b.resolve team).1.toList,
      (b.resolve team).2.elim l.badAnswers (note l.badAnswers)⟩ := by
  simp [turn, hword, hb, hbetween]

/-- What has been gathered when some tokens lie behind.  Of their text, some is kept between the
cursor and the end. -/
def Inv (schema : Schema) (team : Team) (ts : List Token) (l : Splicing) : Prop :=
  ∃ before kept, before ++ kept = texts ts ∧ l.last = (utf8 before).length ∧
    l.written ++ kept = ts.flatMap (Equation.substituteToken schema team) ∧
    l.badAnswers = noted schema team ts

theorem inv_start (schema : Schema) (team : Team) : Inv schema team [] {} :=
  ⟨[], [], rfl, rfl, rfl, rfl⟩

/-- A token that stays as it is, and asks for no answer, needs no turn. -/
theorem Inv.step_kept (h : l.Inv schema team ts) {t : Token}
    (htext : Equation.substituteToken schema team t = t.text)
    (hanswer : badAnswer? schema team t = none) : l.Inv schema team (ts ++ [t]) := by
  obtain ⟨before, kept, htexts, hlast, hwritten, hbad⟩ := h
  refine ⟨before, kept ++ t.text, ?_, hlast, ?_, ?_⟩
  · rw [texts_append_singleton, ← htexts, List.append_assoc]
  · rw [← List.append_assoc, hwritten, List.flatMap_append, List.flatMap_singleton, htext]
  · rw [noted_append_singleton, hanswer]
    exact hbad

/-- A turn at a bound word copies the text before it, and replaces it. -/
theorem Inv.step_bound (h : l.Inv schema team ts) (hcs : texts ts ++ (w ++ after) = cs)
    (hb : schema.wordBinding? (String.ofList w) = some b) :
    ∃ l', l.turn schema team cs
        ((utf8 (texts ts)).length, (utf8 (texts ts)).length + (utf8 w).length) = some l' ∧
      l'.Inv schema team (ts ++ [.word w]) := by
  obtain ⟨before, kept, htexts, hlast, hwritten, hbad⟩ := h
  have hword := slice?_utf8 hcs
  have hkept : slice? l.last (utf8 (texts ts)).length cs = some kept := by
    rw [← htexts, List.append_assoc] at hcs
    have hslice := slice?_utf8 hcs
    rwa [← List.length_append, ← utf8_append, htexts, ← hlast] at hslice
  have hanswer : badAnswer? schema team (.word w) = (b.resolve team).2 := by
    simp [badAnswer?, Equation.badAnswer?, hb]
  refine ⟨_, turn_of_bound hword hb hkept, texts (ts ++ [.word w]), [], List.append_nil _,
    ?_, ?_, ?_⟩
  · rw [texts_append_singleton, utf8_append, List.length_append, Token.text]
  · simp [hwritten, Equation.substituteToken, hb]
  · rw [noted_append_singleton, hanswer, ← hbad]

/-- A turn at a word succeeds, whether the word is bound or not. -/
theorem Inv.step_word (h : l.Inv schema team ts) (hcs : texts ts ++ (w ++ after) = cs) :
    ∃ l', l.turn schema team cs
        ((utf8 (texts ts)).length, (utf8 (texts ts)).length + (utf8 w).length) = some l' ∧
      l'.Inv schema team (ts ++ [.word w]) := by
  cases hb : schema.wordBinding? (String.ofList w) with
  | none =>
    refine ⟨l, turn_of_unbound (slice?_utf8 hcs) hb, h.step_kept ?_ ?_⟩
    · simp [Equation.substituteToken, hb, Token.text]
    · simp [badAnswer?, Equation.badAnswer?, hb]
  | some b => exact h.step_bound hcs hb

/-- The turns at the words among the tokens that follow succeed. -/
theorem Inv.run (h : l.Inv schema team ts) {us : List Token}
    (hcs : texts ts ++ (texts us ++ after) = cs) :
    ∃ l', (wordSpans (utf8 (texts ts)).length us).foldlM (turn schema team cs) l = some l' ∧
      l'.Inv schema team (ts ++ us) := by
  induction us generalizing ts l with
  | nil => exact ⟨l, rfl, by rwa [List.append_nil]⟩
  | cons u us ih =>
    have htext : texts ts ++ (u.text ++ (texts us ++ after)) = cs := by
      rw [← hcs]
      simp [texts]
    have hnext {l' : Splicing} (hinv : l'.Inv schema team (ts ++ [u])) :
        ∃ l'', (wordSpans ((utf8 (texts ts)).length + (utf8 u.text).length) us).foldlM
            (turn schema team cs) l' = some l'' ∧ l''.Inv schema team (ts ++ u :: us) := by
      have hrest : texts (ts ++ [u]) ++ (texts us ++ after) = cs := by
        rw [texts_append_singleton, List.append_assoc, htext]
      have hrun := ih hinv hrest
      rwa [texts_append_singleton, utf8_append, List.length_append, List.append_assoc,
        List.singleton_append] at hrun
    cases u with
    | number n => exact hnext (h.step_kept rfl rfl)
    | other c => exact hnext (h.step_kept rfl rfl)
    | word w =>
      have hword : texts ts ++ (w ++ (texts us ++ after)) = cs := htext
      obtain ⟨l', hturn, hinv⟩ := h.step_word hword
      rw [wordSpans, List.foldlM_cons, hturn]
      exact hnext hinv

end Splicing

/-! ## The loop -/

theorem Equation.substituteSpans?_eq_foldlM (e : Equation) (schema : Schema) (team : Team)
    (spans : List (Nat × Nat)) : e.substituteSpans? schema team spans =
      (spans.foldlM (Splicing.turn schema team e.formula.toList) {}).bind fun l =>
        (slice? l.last (utf8 e.formula.toList).length e.formula.toList).map fun rest =>
          ⟨String.ofList (l.written ++ rest), l.badAnswers⟩ := by
  simp only [substituteSpans?, bind_pure_comp, List.forIn_yield_eq_foldlM, id_map']
  rfl

/-- The loop over the words of a formula yields the substitution. -/
theorem Equation.substituteSpans?_eq (e : Equation) (schema : Schema) (team : Team) :
    e.substituteSpans? schema team (wordSpans 0 (tokens e.formula.toList)) =
      some (e.substitute schema team) := by
  have htext : texts (tokens e.formula.toList) = e.formula.toList := tokens_text _
  have hcs : texts [] ++ (texts (tokens e.formula.toList) ++ []) = e.formula.toList := by
    rw [List.append_nil]
    exact htext
  obtain ⟨l, hrun, before, kept, htexts, hlast, hwritten, hbad⟩ :=
    (Splicing.inv_start schema team).run hcs
  rw [List.nil_append] at htexts hwritten hbad
  have hrest : slice? l.last (utf8 e.formula.toList).length e.formula.toList = some kept := by
    have hall : before ++ (kept ++ []) = e.formula.toList := by
      rw [List.append_nil, htexts, htext]
    have hslice := slice?_utf8 hall
    rwa [← List.length_append, ← utf8_append, htexts, htext, ← hlast] at hslice
  have hfound : (wordSpans 0 (tokens e.formula.toList)).foldlM
      (Splicing.turn schema team e.formula.toList) {} = some l := hrun
  rw [substituteSpans?_eq_foldlM, hfound, Option.bind_some, hrest, Option.map_some, hwritten, hbad,
    Splicing.noted_tokens]
  rfl

/-- The loop over the words that the search finds in a formula asks for no slice that is not there,
and yields the substitution. -/
theorem Equation.exists_substituteSpans?_eq (e : Equation) (schema : Schema) (team : Team) :
    ∃ l, WordSearch.Reached e.formula l ∧ l.offset = e.formula.utf8ByteSize ∧
      e.substituteSpans? schema team l.spans = some (e.substitute schema team) := by
  obtain ⟨l, hl, hinv, hend⟩ :=
    (WordSearch.advances e.formula).exists_end {} (WordSearch.inv_start e.formula.toList)
  rw [← length_utf8_toList] at hend
  obtain ⟨hoffset, hspans⟩ := hinv.spans_at_end hend
  refine ⟨l, hl, hoffset.trans (length_utf8_toList e.formula), ?_⟩
  rw [hspans]
  exact e.substituteSpans?_eq schema team

end Scorecard
