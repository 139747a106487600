import Scorecard.Formula.Token
import Scorecard.Text.Utf8

/-!
# Scanning by offsets

Tokens can be found without taking a formula apart: `literalAt` says what stands at an offset into
the bytes of the formula, and two loops go from one offset to the next.  `WordSearch` notes where
the words are, and `Rewriting` writes the literals with a point.  A turn of a loop yields `none`
where it would look at a byte or at a slice of the formula that is not there.
-/

namespace Scorecard.Formula

/-! ## Bytes -/

/-- Whether there is a byte at an offset, and it passes a test. -/
def byteAt (p : UInt8 → Bool) (bytes : List UInt8) (i : Nat) : Bool := bytes[i]?.any p

theorem lt_length_of_byteAt {p : UInt8 → Bool} {bytes : List UInt8} {i : Nat}
    (h : byteAt p bytes i = true) : i < bytes.length := by
  unfold byteAt at h
  cases hb : bytes[i]? with
  | none =>
    rw [hb] at h
    exact Bool.noConfusion h
  | some b => exact (List.getElem?_eq_some_iff.mp hb).1

/-- The first offset at which no byte passes a test. -/
def skipBytes (p : UInt8 → Bool) (bytes : List UInt8) (i : Nat) : Nat :=
  if _h : byteAt p bytes i = true then skipBytes p bytes (i + 1) else i
termination_by bytes.length - i
decreasing_by
  have := lt_length_of_byteAt _h
  omega

/-- One of the digits 0 to 9. -/
def isDigitByte (b : UInt8) : Bool := '0'.toUInt8 ≤ b && b ≤ '9'.toUInt8

/-- The ASCII letters and digits and the underscore. -/
def isWordByte (b : UInt8) : Bool :=
  'A'.toUInt8 ≤ b && b ≤ 'Z'.toUInt8 || 'a'.toUInt8 ≤ b && b ≤ 'z'.toUInt8 || isDigitByte b ||
    b == '_'.toUInt8

/-- The marks before the digits of an exponent. -/
def isExponentByte (b : UInt8) : Bool := b == 'e'.toUInt8 || b == 'E'.toUInt8

def isSignByte (b : UInt8) : Bool := b == '+'.toUInt8 || b == '-'.toUInt8

def isPointByte (b : UInt8) : Bool := b == '.'.toUInt8

/-! ## Tokens -/

/-- The end of the point and the digits after it that stand at an offset. -/
def skipFraction (bytes : List UInt8) (i : Nat) : Nat :=
  if byteAt isPointByte bytes i then skipBytes isDigitByte bytes (i + 1) else i

/-- The end of the sign that stands at an offset. -/
def skipSign (bytes : List UInt8) (i : Nat) : Nat :=
  if byteAt isSignByte bytes i then i + 1 else i

/-- The end of the exponent that stands at an offset, when digits follow its mark and sign. -/
def skipExponent (bytes : List UInt8) (i : Nat) : Nat :=
  if byteAt isExponentByte bytes i then
    let j := skipSign bytes (i + 1)
    if byteAt isDigitByte bytes j then skipBytes isDigitByte bytes j else i
  else i

/-- The end of the numeral that stands at an offset. -/
def scanNumber (bytes : List UInt8) (i : Nat) : Nat :=
  skipExponent bytes (skipFraction bytes (skipBytes isDigitByte bytes i))

/-- What stands at an offset: a number or a word, and where it ends, or anything else. -/
inductive Found where
  | number (stop : Nat)
  | word (stop : Nat)
  | other
  deriving DecidableEq, Repr

/-- What stands at an offset, if there is a byte. -/
def literalAt (bytes : List UInt8) (start : Nat) : Option Found :=
  bytes[start]?.map fun b =>
    if isPointByte b then
      if byteAt isDigitByte bytes (start + 1) then .number (scanNumber bytes start) else .other
    else if isWordByte b then
      let wordEnd := skipBytes isWordByte bytes start
      if isDigitByte b ∧ wordEnd ≤ scanNumber bytes start then .number (scanNumber bytes start)
      else .word wordEnd
    else .other

/-! ## Loops -/

/-- The search for words, before it looks at an offset. -/
structure WordSearch where
  offset : Nat := 0
  /-- Where the words begin and end that have been found. -/
  spans : List (Nat × Nat) := []
  deriving DecidableEq, Repr

/-- One turn of the search. -/
def WordSearch.turn (cs : List Char) (l : WordSearch) : Option WordSearch := do
  match ← literalAt (Text.utf8 cs) l.offset with
  | .word stop => return ⟨stop, l.spans ++ [(l.offset, stop)]⟩
  | .number stop => return ⟨stop, l.spans⟩
  | .other => return ⟨l.offset + 1, l.spans⟩

/-- The words that have been found. -/
def WordSearch.words? (cs : List Char) (l : WordSearch) : Option (List String) :=
  l.spans.mapM fun (start, stop) => (Text.slice? start stop cs).map String.ofList

/-- The rewriting of literals, before it looks at an offset. -/
structure Rewriting where
  offset : Nat := 0
  /-- The end of the last literal that was rewritten. -/
  last : Nat := 0
  written : List Char := []
  deriving DecidableEq, Repr

/-- One turn of the rewriting.  A number that cannot be read would stay as it is. -/
def Rewriting.turn (cs : List Char) (l : Rewriting) : Option Rewriting := do
  match ← literalAt (Text.utf8 cs) l.offset with
  | .number stop =>
      match Number.readFloat (← Text.slice? l.offset stop cs) with
      | some x =>
          let between ← Text.slice? l.last l.offset cs
          return ⟨stop, stop, l.written ++ between ++ literalStyle.text x⟩
      | none => return ⟨stop, l.last, l.written⟩
  | .word stop => return ⟨stop, l.last, l.written⟩
  | .other => return ⟨l.offset + 1, l.last, l.written⟩

/-- The formula with the literals rewritten, once the loop has come to its end. -/
def Rewriting.text? (cs : List Char) (l : Rewriting) : Option (List Char) :=
  (Text.slice? l.last (Text.utf8 cs).length cs).map (l.written ++ ·)

end Scorecard.Formula
