import Scorecard.Proofs.Form.Lines

/-!
# Blanks at the ends of lines

Neither the indentation of a form nor its line ends matter.

* `Respaced` relates two texts whose lines differ at most in the blanks at their ends, so it holds
  exactly if the trimmed lines are the same (`respaced_iff`).  A line feed ends a line and is never
  one of these blanks; a carriage return in front of it is.
* `respaced_withReturns` and `respaced_withoutReturns`: the two conventions for line ends differ in
  this way only.
* `Entry.ofText_eq_of_respaced`: such texts yield the same entries with the same numbers, line by
  line.
-/

namespace Scorecard

namespace Text

/-- The lines have the same text between the blanks at their ends. -/
def SameBody (line line' : List Char) : Prop := ∃ body, Padded body line ∧ Padded body line'

/-- The second text is the first one with blanks added or removed at the ends of its lines. -/
def Respaced (cs ds : List Char) : Prop :=
  List.Forall₂ SameBody (splitAt '\n' cs) (splitAt '\n' ds)

/-- The text with a carriage return in front of each line feed. -/
def withReturns (cs : List Char) : List Char :=
  cs.flatMap fun c => if c = '\n' then ['\r', '\n'] else [c]

/-- The text without a carriage return in front of any line feed. -/
def withoutReturns : List Char → List Char
  | [] => []
  | '\r' :: '\n' :: cs => '\n' :: withoutReturns cs
  | c :: cs => c :: withoutReturns cs

theorem sameBody_iff {line line' : List Char} :
    SameBody line line' ↔ trimmed line = trimmed line' := by
  constructor
  · rintro ⟨body, h, h'⟩
    rw [h.trimmed_eq, h'.trimmed_eq]
  · intro h
    exact ⟨trimmed line, padded_trimmed line, h ▸ padded_trimmed line'⟩

/-- Texts differ at most in the blanks at the ends of their lines exactly if their trimmed lines are
the same. -/
theorem respaced_iff {cs ds : List Char} :
    Respaced cs ds ↔ (splitAt '\n' cs).map trimmed = (splitAt '\n' ds).map trimmed := by
  have hbody : SameBody = fun line line' => trimmed line = trimmed line' :=
    funext₂ fun _ _ => propext sameBody_iff
  rw [← List.forall₂_eq_eq_eq, List.forall₂_map_left_iff, List.forall₂_map_right_iff, Respaced,
    hbody]

instance (cs ds : List Char) : Decidable (Respaced cs ds) := decidable_of_iff _ respaced_iff.symm

theorem Respaced.symm {cs ds : List Char} (h : Respaced cs ds) : Respaced ds cs :=
  respaced_iff.mpr (respaced_iff.mp h).symm

/-! ## Line ends -/

theorem Trailed.refl (cs : List Char) : Trailed cs cs := ⟨[], by simp, by simp⟩

theorem trailed_return : Trailed [] ['\r'] := by
  refine ⟨['\r'], fun c hc => ?_, rfl⟩
  obtain rfl := List.mem_singleton.mp hc
  decide

theorem respaced_of_trailed {cs ds : List Char}
    (h : List.Forall₂ Trailed (splitAt '\n' cs) (splitAt '\n' ds)) : Respaced cs ds := by
  refine h.imp fun line line' htrailed => ⟨line, ?_, ?_⟩
  · exact (Trailed.refl line).padded (List.forall_mem_nil _)
  · exact htrailed.padded (List.forall_mem_nil _)

theorem respaced_withReturns (cs : List Char) : Respaced cs (withReturns cs) := by
  refine respaced_of_trailed ?_
  induction cs with
  | nil => exact .cons (Trailed.refl []) .nil
  | cons c cs ih =>
    by_cases hc : c = '\n'
    · subst hc
      exact .cons trailed_return ih
    · have hcons : withReturns (c :: cs) = c :: withReturns cs := by simp [withReturns, hc]
      rw [hcons, splitAt, splitAt, if_neg hc, if_neg hc]
      exact forall₂_modifyHead ih (fun _ _ => Trailed.cons c) fun _ _ => id

theorem respaced_withoutReturns (cs : List Char) : Respaced cs (withoutReturns cs) := by
  refine (respaced_of_trailed (?_ : List.Forall₂ Trailed (splitAt '\n' (withoutReturns cs)) _)).symm
  fun_induction withoutReturns cs with
  | case1 => exact .cons (Trailed.refl []) .nil
  | case2 cs ih => exact .cons trailed_return ih
  | case3 c cs _ ih =>
    rw [splitAt, splitAt]
    split
    · exact .cons (Trailed.refl []) ih
    · exact forall₂_modifyHead ih (fun _ _ => Trailed.cons c) fun _ _ => id

end Text

open Text

/-! ## Entries -/

namespace Entry

/-- Entries depend only on what each line yields. -/
theorem numbered_congr {ls ms : List (List Char)}
    (h : List.Forall₂ (fun l m => ofLine? l = ofLine? m) ls ms) (first : Nat) :
    numbered first ls = numbered first ms := by
  induction h generalizing first with
  | nil => rfl
  | cons hline _ ih => rw [numbered_cons, numbered_cons, hline, ih]

theorem ofLine?_eq_of_sameBody {line line' : List Char} (h : SameBody line line') :
    ofLine? line = ofLine? line' := by
  obtain ⟨body, hline, hline'⟩ := h
  rw [ofLine?_eq_of_padded hline, ofLine?_eq_of_padded hline']

/-- Blanks at the ends of lines change no entry and no line number. -/
theorem ofText_eq_of_respaced {a b : String} (h : Respaced a.toList b.toList) :
    ofText a = ofText b := by
  rw [ofText_eq_numbered, ofText_eq_numbered, lines, lines, numbered_linesOf, numbered_linesOf]
  refine numbered_congr ?_ 1
  rw [List.forall₂_map_left_iff, List.forall₂_map_right_iff]
  refine h.imp fun line line' hline => ?_
  rw [ofLine?_dropReturn, ofLine?_dropReturn, ofLine?_eq_of_sameBody hline]

end Entry

namespace Form

/-- Indentation and line ends never matter.  Texts that differ only in the blanks at the ends of
their lines make the same form: the same fields, the same equations and the same rejected lines
with the same numbers.  So it is the same with a carriage return in front of every line feed, and
with none. -/
theorem parse_eq_of_respaced :
    (∀ a b : String, Respaced a.toList b.toList → parse a = parse b) ∧
      ∀ text : String, parse (.ofList (withReturns text.toList)) = parse text ∧
        parse (.ofList (withoutReturns text.toList)) = parse text := by
  have hparse : ∀ a b : String, Respaced a.toList b.toList → parse a = parse b := by
    intro a b h
    rw [parse, parse, Entry.ofText_eq_of_respaced h]
  refine ⟨hparse, fun text => ⟨(hparse _ _ ?_).symm, (hparse _ _ ?_).symm⟩⟩
  · rw [String.toList_ofList]
    exact respaced_withReturns text.toList
  · rw [String.toList_ofList]
    exact respaced_withoutReturns text.toList

/-- A field, a rejected line and an equation, all indented, with line ends of both kinds. -/
def indentedText : String :=
  "\t\u3000STEPPER<0, 9> ;; Gears ;; gears \r\n\r\n\r DIAL ;; Dial\n\x0b Total = 2 * gears \u2028"

/-- The same lines without blanks at their ends. -/
def flushText : String := "STEPPER<0, 9> ;; Gears ;; gears\n\nDIAL ;; Dial\nTotal = 2 * gears"

/-- The indented text makes the form of the other one. -/
theorem parse_eq_of_respaced_indented :
    Respaced indentedText.toList flushText.toList ∧ parse indentedText = parse flushText ∧
      (parse flushText).rejected = [(3, .unknownType "DIAL")] ∧
      (parse indentedText).equations = [⟨"Total", "2 * gears"⟩] := by
  have hrespaced : Respaced indentedText.toList flushText.toList := by decide +kernel
  have hparse := parse_eq_of_respaced.1 indentedText flushText hrespaced
  refine ⟨hrespaced, hparse, rfl, ?_⟩
  rw [hparse]
  rfl

end Form

end Scorecard
