import Scorecard.Text.Blank
import Scorecard.Text.PictureTable
import Scorecard.Text.WidthTable

/-!
# Beginnings of texts

Some characters are drawn as one with those after them: the people of a family emoji, a hand and
the skin tone that colours it, the two letters of a flag, the ligatures of some scripts.  An `Onset`
is what there is to know about the beginning of a text to decide whether the character before it
becomes part of that beginning.  `Onset.join?` is the rule: the places that the new character
settles, and the beginning that it makes.

Some onsets have a place that is not settled, because the character before them can take it back.
`Onset.held` counts it.
-/

namespace Scorecard.Text

/-- A letter that forms a ligature with what precedes it. -/
inductive Ligand where
  /-- An Arabic alef, which joins a lam. -/
  | alef
  /-- The Hebrew lamed, which joins an alef. -/
  | lamed
  /-- The Buginese ya, which joins a vowel sign. -/
  | ya
  /-- The Buginese vowel sign before a ya, which joins a letter a. -/
  | vowelYa
  /-- A Tifinagh consonant, which joins another. -/
  | consonant
  /-- A Tifinagh consonant after the sign that joins it. -/
  | joinedConsonant
  /-- One of the Lisu tones that end a pair of tones. -/
  | tone
  /-- The Old Turkic i, which joins a letter ich. -/
  | orkhonI
  /-- A Khmer letter that can stand below another. -/
  | subscript
  deriving DecidableEq, Repr

/-- The beginning of a text. -/
inductive Onset where
  /-- Nothing that the character before could join. -/
  | plain
  /-- A picture. -/
  | picture
  /-- A skin tone. -/
  | skinTone
  /-- A regional indicator. -/
  | indicator
  /-- Several regional indicators. -/
  | indicators
  /-- A zero-width joiner and a picture. -/
  | link
  /-- A key cap that a link follows. -/
  | linkedKeycap
  /-- A single regional indicator that a link follows. -/
  | linkedIndicator
  /-- Pairs of regional indicators that a link follows. -/
  | linkedPairs
  /-- Pairs of regional indicators that a link follows, and half a pair before them. -/
  | linkedPairsAndHalf
  /-- The end of the tags of a flag, with so many letters, that a link follows. -/
  | linkedTags (letters : Nat)
  /-- The end of the tags of a flag, with so many digits first, that a link follows. -/
  | linkedDigitTags (digits : Nat)
  /-- The Kirat Rai vowel sign e. -/
  | vowelE
  /-- The Kirat Rai vowel sign ai. -/
  | vowelAi
  /-- A letter that forms a ligature, and whether a zero-width joiner precedes it. -/
  | ligand (letter : Ligand) (joined : Bool)
  deriving DecidableEq, Repr

/-! ## Characters -/

/-- The zero-width joiner. -/
def joiner : Char := '\u200d'

/-- Whether the code point of a character lies between two others. -/
def isBetween (first last : Nat) (c : Char) : Bool := first ≤ c.toNat && c.toNat ≤ last

/-- Whether the character is one of the two halves of a flag. -/
def isIndicator (c : Char) : Bool := isBetween 0x1F1E6 0x1F1FF c

/-- Whether the character is a skin tone. -/
def isSkinTone (c : Char) : Bool := isBetween 0x1F3FB 0x1F3FF c

/-- The flag that tags can follow. -/
def blackFlag : Char := Char.ofNat 0x1F3F4

/-- The tag that ends the tags of a flag. -/
def lastTag : Char := Char.ofNat 0xE007F

/-- Whether the character is a letter as a tag. -/
def isLetterTag (c : Char) : Bool := isBetween 0xE0061 0xE007A c

/-- Whether the character is a digit as a tag. -/
def isDigitTag (c : Char) : Bool := isBetween 0xE0030 0xE0039 c

/-- The Arabic letters of the form of alef. -/
def alefRanges : List (Nat × Nat) := [
  (0x622, 0x623), (0x625, 0x625), (0x627, 0x627), (0x671, 0x673), (0x675, 0x675), (0x773, 0x774),
  (0x870, 0x882)]

/-- The Arabic letters of the form of lam. -/
def lamRanges : List (Nat × Nat) := [
  (0x644, 0x644), (0x6B5, 0x6B8), (0x76A, 0x76A), (0x8A6, 0x8A6), (0x8C7, 0x8C7)]

/-- The Khmer letters that can stand below another. -/
def subscriptRanges : List (Nat × Nat) := [
  (0x1780, 0x1782), (0x1784, 0x1787), (0x1789, 0x178C), (0x178E, 0x1793), (0x1795, 0x1798),
  (0x179B, 0x179D), (0x17A0, 0x17A0), (0x17A2, 0x17A2), (0x17A7, 0x17A7), (0x17AB, 0x17AC),
  (0x17AF, 0x17AF)]

/-- Whether the character is a Tifinagh consonant. -/
def isTifinaghConsonant (c : Char) : Bool := isBetween 0x2D31 0x2D65 c || c = '\u2d6f'

/-- The sign that joins two Tifinagh consonants. -/
def consonantJoiner : Char := '\u2d7f'

/-- The marks that are ignored by default, and so do not part a ligature. -/
def ignoredMarkRanges : List (Nat × Nat) := [
  (0x34F, 0x34F), (0x17B4, 0x17B5), (0x180B, 0x180D), (0x180F, 0x180F), (0xFE00, 0xFE0F),
  (0xE0100, 0xE01EF)]

/-- Whether Arabic letters join across the character. -/
def isArabicTransparent (c : Char) : Bool := inRanges zeroRanges c && !inRanges partingRanges c

/-- The onset of a text that begins with the character and in which nothing joins it. -/
def Onset.ofChar (c : Char) : Onset :=
  if isIndicator c then .indicator
  else if isSkinTone c then .skinTone
  else if inRanges pictureRanges c then .picture
  else if inRanges alefRanges c then .ligand .alef false
  else if inRanges subscriptRanges c then .ligand .subscript false
  else if isTifinaghConsonant c then .ligand .consonant false
  else if c = '\u05dc' then .ligand .lamed false
  else if c = '\u1a10' then .ligand .ya false
  else if c = '\ua4fc' ∨ c = '\ua4fd' then .ligand .tone false
  else if c = Char.ofNat 0x10C03 then .ligand .orkhonI false
  else if c = Char.ofNat 0x16D67 then .vowelE
  else if c = Char.ofNat 0x16D68 then .vowelAi
  else .plain

/-! ## Joining -/

/-- The places at the beginning of a text that are not settled. -/
def Onset.held : Onset → Nat
  | linkedIndicator | linkedPairsAndHalf => 1
  | ligand .joinedConsonant _ | ligand .subscript _ => 1
  | _ => 0

/-- Whether a ligature can form with the onset. -/
def Onset.isLigand : Onset → Bool
  | ligand _ _ => true
  | _ => false

/-- Whether the onset continues a sequence of pictures, so that one more takes no place. -/
def Onset.isLink : Onset → Bool
  | link | linkedKeycap => true
  | _ => false

/-- What a letter that forms a ligature makes with the character before it: the places that are
settled and the new beginning. -/
def Ligand.join? (c : Char) (joined : Bool) : Ligand → Option (Nat × Onset)
  | alef =>
      if inRanges lamRanges c then some (0, .plain)
      else if isArabicTransparent c then some (0, .ligand .alef joined)
      else none
  | lamed => if joined ∧ c = '\u05d0' then some (0, .plain) else none
  | ya => if joined ∧ c = '\u1a17' then some (0, .ligand .vowelYa true) else none
  | vowelYa => if c = '\u1a15' then some (0, .plain) else none
  | consonant =>
      if c = consonantJoiner then some (0, .ligand .joinedConsonant true)
      else if joined ∧ isTifinaghConsonant c then some (0, .plain)
      else none
  | joinedConsonant => if isTifinaghConsonant c then some (0, .plain) else none
  | tone => if isBetween 0xA4F8 0xA4FB c then some (0, .plain) else none
  | orkhonI => if joined ∧ c = Char.ofNat 0x10C32 then some (0, .plain) else none
  | subscript => if c = '\u17d2' then some (0, .plain) else none

/-- What the beginning of a text makes with the character before it, if they are drawn as one: the
places that are settled and the new beginning. -/
def Onset.join? (c : Char) : Onset → Option (Nat × Onset)
  | plain | linkedKeycap => none
  | picture => if c = joiner then some (0, link) else none
  | skinTone =>
      if inRanges modifierBaseRanges c then some (0, picture)
      else if c = joiner then some (0, link)
      else none
  | indicator => if isIndicator c then some (1, indicators) else none
  | indicators =>
      if isIndicator c then some (1, indicators) else if c = joiner then some (0, link) else none
  | link =>
      if c = '\u20e3' then some (0, linkedKeycap)
      else if isIndicator c then some (0, linkedIndicator)
      else if isSkinTone c then some (0, skinTone)
      else if c = lastTag then some (0, linkedTags 0)
      else if inRanges pictureRanges c then some (0, picture)
      else none
  | linkedIndicator => if isIndicator c then some (0, linkedPairs) else none
  | linkedPairs =>
      if isIndicator c then some (2, linkedPairsAndHalf)
      else if c = joiner then some (0, link)
      else none
  | linkedPairsAndHalf =>
      if isIndicator c then some (0, linkedPairs)
      else if c = joiner then some (1, link)
      else none
  | linkedTags letters =>
      if isLetterTag c ∧ letters < 6 then some (0, linkedTags (letters + 1))
      else if isDigitTag c ∧ letters ≤ 4 then some (0, linkedDigitTags 1)
      else if c = blackFlag ∧ 3 ≤ letters then some (0, picture)
      else none
  | linkedDigitTags digits =>
      if isDigitTag c ∧ digits < 3 then some (0, linkedDigitTags (digits + 1))
      else if c = blackFlag ∧ digits = 3 then some (0, picture)
      else none
  | vowelE =>
      if c = Char.ofNat 0x16D63 ∨ c = Char.ofNat 0x16D69 then some (0, plain)
      else if c = Char.ofNat 0x16D67 then some (0, vowelAi)
      else if c = Char.ofNat 0x16D68 then some (1, vowelE)
      else none
  | vowelAi => if c = Char.ofNat 0x16D63 then some (0, plain) else none
  | ligand .alef joined => Ligand.alef.join? c joined
  | ligand letter joined =>
      if c = joiner then some (0, ligand letter true)
      else if inRanges ignoredMarkRanges c then some (0, ligand letter joined)
      else letter.join? c joined

end Scorecard.Text
