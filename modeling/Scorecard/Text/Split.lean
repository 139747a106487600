import Scorecard.Text.Blank

/-!
# Cutting a text

`cut` divides a text at the first occurrence of a mark, `splitAt` at every occurrence of a
character, `segments` at every `;;`, and `lines` at line feeds.  Joining the pieces with the mark
gives the text back.
-/

namespace Scorecard.Text

/-- The texts before and after the first occurrence of `mark`. -/
def cut (mark : List Char) : List Char → Option (List Char × List Char)
  | [] => if mark = [] then some ([], []) else none
  | c :: cs =>
      if mark.isPrefixOf (c :: cs) then some ([], (c :: cs).drop mark.length)
      else (cut mark cs).map fun (before, after) => (c :: before, after)

/-- The pieces between the occurrences of the character `mark`. -/
def splitAt (mark : Char) : List Char → List (List Char)
  | [] => [[]]
  | c :: cs =>
      if c = mark then [] :: splitAt mark cs
      else (splitAt mark cs).modifyHead (c :: ·)

/-- The pieces between the occurrences of `;;`, found from left to right. -/
def segments : List Char → List (List Char)
  | [] => [[]]
  | ';' :: ';' :: cs => [] :: segments cs
  | c :: cs => (segments cs).modifyHead (c :: ·)

/-- The texts put one after the other with `mark` between them. -/
def join (mark : String) (parts : List String) : String := mark.intercalate parts

/-- The items of a comma-separated list, trimmed and without the empty ones. -/
def items (cs : List Char) : List String :=
  (((splitAt ',' cs).map trimmed).filter (· ≠ [])).map String.ofList

/-- A line that a line feed ended, without the carriage return right before it. -/
def dropReturn : List Char → List Char
  | [] => []
  | ['\r'] => []
  | c :: cs => c :: dropReturn cs

/-- The lines among pieces between line feeds: an empty last piece is no line. -/
def linesOf : List (List Char) → List (List Char)
  | [] => []
  | [last] => if last = [] then [] else [last]
  | line :: rest => dropReturn line :: linesOf rest

/-- The lines of a text: each line feed ends one, with the carriage return before it. -/
def lines (cs : List Char) : List (List Char) := linesOf (splitAt '\n' cs)

/-! ## Nothing is lost -/

theorem cut_eq {mark cs before after : List Char} (h : cut mark cs = some (before, after)) :
    cs = before ++ mark ++ after := by
  induction cs generalizing before after with
  | nil =>
      by_cases hm : mark = [] <;> simp_all [cut]
  | cons c cs ih =>
      unfold cut at h
      split at h
      · next hm =>
        obtain ⟨rest, hrest⟩ := List.isPrefixOf_iff_prefix.mp hm
        simp only [Option.some.injEq, Prod.mk.injEq] at h
        rw [← h.1, ← h.2, ← hrest]
        simp
      · next =>
        obtain ⟨⟨b, a⟩, hb, heq⟩ := Option.map_eq_some_iff.mp h
        simp only [Prod.mk.injEq] at heq
        rw [← heq.1, ← heq.2, ih hb]
        simp

theorem splitAt_ne_nil (mark : Char) (cs : List Char) : splitAt mark cs ≠ [] := by
  induction cs with
  | nil => simp [splitAt]
  | cons c cs ih =>
      unfold splitAt
      split
      · simp
      · cases h : splitAt mark cs with
        | nil => exact absurd h ih
        | cons p ps => simp

theorem segments_ne_nil (cs : List Char) : segments cs ≠ [] := by
  fun_induction segments cs with
  | case1 => simp
  | case2 => simp
  | case3 c cs _ ih =>
      cases h : segments cs with
      | nil => exact absurd h ih
      | cons p ps => simp

end Scorecard.Text
