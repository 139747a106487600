/-!
# Bytes of a text

Texts are measured and cut in the bytes of their UTF-8 form.  Not every offset into the bytes stands
between two characters.  `sliceBytes` leaves a character that a cut would divide in the part before
the cut; `slice?` yields nothing there.
-/

namespace Scorecard.Text

/-- The bytes of a text. -/
def utf8 (cs : List Char) : List UInt8 := cs.flatMap String.utf8EncodeChar

/-! ## Cuts anywhere -/

/-- The first `n` bytes of a text, and the others. -/
def cutBytes : Nat → List Char → List Char × List Char
  | 0, cs => ([], cs)
  | _, [] => ([], [])
  | n, c :: cs => let (before, after) := cutBytes (n - c.utf8Size) cs; (c :: before, after)

/-- The bytes of a text from `start` up to `stop`. -/
def sliceBytes (start stop : Nat) (s : String) : String :=
  String.ofList (cutBytes (stop - start) (cutBytes start s.toList).2).1

/-- The two parts of a cut make up the text. -/
theorem cutBytes_append (n : Nat) (cs : List Char) :
    (cutBytes n cs).1 ++ (cutBytes n cs).2 = cs := by
  fun_induction cutBytes n cs <;> simp_all

/-! ## Cuts between characters -/

/-- The characters before an offset and those behind it, if it does not divide a character. -/
def splitOffset? : Nat → List Char → Option (List Char × List Char)
  | 0, cs => some ([], cs)
  | _ + 1, [] => none
  | n + 1, c :: cs =>
      if c.utf8Size ≤ n + 1 then
        (splitOffset? (n + 1 - c.utf8Size) cs).map fun (before, after) => (c :: before, after)
      else none

/-- The characters from one offset to another, if these are in order and divide no character. -/
def slice? (start stop : Nat) (cs : List Char) : Option (List Char) := do
  if stop < start then none
  let (_, rest) ← splitOffset? start cs
  let (slice, _) ← splitOffset? (stop - start) rest
  return slice

end Scorecard.Text
