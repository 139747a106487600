import Scorecard.Text.Onset

/-!
# Widths of texts

How many places of a terminal line a text takes.  A character takes one place, a wide one two, and a
mark on the character before it none; characters that are drawn as one take the places of the whole.
A text is measured from its end, so that the characters which a character may join are known.

A variation selector decides how the character before it is drawn: an emoji as a picture or as a
plain character, and a quotation mark wide.
-/

namespace Scorecard.Text

/-- The places that a character takes on its own. -/
def charWidth (c : Char) : Nat :=
  if c = '\u17d8' then 3
  else if inRanges zeroRanges c then 0
  else if inRanges wideRanges c then 2
  else 1

/-! ## Variation selectors -/

/-- How a measured text begins: the variation selectors at its very beginning, and the onset after
them. -/
structure Measured where
  onset : Onset
  asPicture : Bool
  asText : Bool
  asWide : Bool
  deriving DecidableEq, Repr

namespace Measured

/-- A text with nothing that the character before could join. -/
def plain : Measured := ⟨.plain, false, false, false⟩

/-- A text with an onset and no selector. -/
def ofOnset (o : Onset) : Measured := ⟨o, false, false, false⟩

/-- The settled places and the measured text when a selector comes first.  The onset stays after it
only if `keeps`. -/
def select (selector : Measured → Measured) (keeps : Bool) (m : Measured) : Nat × Measured :=
  if keeps then (0, selector m) else (m.onset.held, selector plain)

/-- The measured text without the picture selector at its beginning, when the character before it is
no emoji.  Only a ligature can still form across it. -/
def withoutPicture (m : Measured) : Measured :=
  if !m.asPicture then m
  else if m.onset.isLigand then { m with asPicture := false }
  else plain

end Measured

/-- The emoji that the text selector makes narrow: pictures, ideographs in squares aside. -/
def isNarrowAsText (c : Char) : Bool :=
  inRanges selectableRanges c && inRanges pictureRanges c && !isBetween 0x1F200 0x1F2FF c

/-- The quotation marks that a selector makes wide. -/
def isQuotationMark (c : Char) : Bool :=
  c = '\u2018' || c = '\u2019' || c = '\u201c' || c = '\u201d'

/-! ## Measuring -/

/-- The settled places and the measured text when a character comes before an onset. -/
def advance (c : Char) (o : Onset) : Nat × Measured :=
  match o.join? c with
  | some (n, o) => (n, .ofOnset o)
  | none => (o.held + (charWidth c - (Onset.ofChar c).held), .ofOnset (.ofChar c))

/-- The settled places and the measured text when a character comes before a measured text. -/
def step (c : Char) (m : Measured) : Nat × Measured :=
  if m.asPicture ∧ inRanges selectableRanges c then
    (m.onset.held + (if m.onset.isLink then 0 else 2), .ofOnset .picture)
  else
    let m := m.withoutPicture
    let ligates := m.onset.isLigand
    if c ≤ '\u00a0' then (m.onset.held + 1, .plain)
    else if c = '\ufe0f' then
      m.select (fun m => { m with asPicture := true }) (ligates || m.onset.isLink)
    else if c = '\ufe0e' then m.select (fun m => { m with asText := true }) ligates
    else if c = '\ufe01' then m.select (fun m => { m with asWide := true }) ligates
    else if m.asText ∧ isNarrowAsText c then (m.onset.held + 1, .plain)
    else if m.asWide ∧ isQuotationMark c then (m.onset.held + 2, .plain)
    else advance c m.onset

/-- The settled places of a text, and how it begins. -/
def measure : List Char → Nat × Measured
  | [] => (0, .plain)
  | c :: cs =>
      let (n, m) := measure cs
      let (k, m) := step c m
      (n + k, m)

/-- The places that a text takes. -/
def width (cs : List Char) : Nat :=
  let (n, m) := measure cs
  n + m.onset.held

theorem measure_cons (c : Char) (cs : List Char) :
    measure (c :: cs) =
      ((measure cs).1 + (step c (measure cs).2).1, (step c (measure cs).2).2) := rfl

theorem step_space : step ' ' .plain = (1, .plain) := rfl

theorem measure_spaces (n : Nat) : measure (List.replicate n ' ') = (n, .plain) := by
  induction n with
  | zero => rfl
  | succ n ih => rw [List.replicate_succ, measure_cons, ih, step_space]

theorem measure_append_spaces (cs : List Char) (n : Nat) :
    measure (cs ++ List.replicate n ' ') = ((measure cs).1 + n, (measure cs).2) := by
  induction cs with
  | nil => simp [measure_spaces, measure]
  | cons c cs ih => simp only [List.cons_append, measure_cons, ih, Nat.add_right_comm]

/-- Blanks after a text take a place each. -/
theorem width_append_spaces (cs : List Char) (n : Nat) :
    width (cs ++ List.replicate n ' ') = width cs + n := by
  simp only [width, measure_append_spaces, Nat.add_right_comm]

end Scorecard.Text
