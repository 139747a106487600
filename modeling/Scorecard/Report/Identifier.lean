import Scorecard.Json.Token
import Scorecard.Text.Case
import Scorecard.Text.Quoted

/-!
# Report identifiers

A report is identified by 128 bits, written as 32 hexadecimal digits in groups of 8, 4, 4, 4 and 12.
The groups may be left unmarked, and the marked form may stand in braces or after `urn:uuid:`, whose
letters may be capitals.
-/

namespace Scorecard

/-- The identifier of a report. -/
structure Identifier where
  bits : BitVec 128
  deriving DecidableEq, Repr

namespace Identifier

/-- The sizes of the groups of digits. -/
def groups : List Nat := [8, 4, 4, 4, 12]

/-- The digits divided into groups with hyphens between them. -/
def hyphenated : List Nat → List Char → List Char
  | [], cs => cs
  | [_], cs => cs
  | n :: ns, cs => cs.take n ++ '-' :: hyphenated ns (cs.drop n)

/-- The digits of a hyphenated form, if its hyphens stand where they should. -/
def unhyphenated? : List Nat → List Char → Option (List Char)
  | [], cs => some cs
  | [_], cs => some cs
  | n :: ns, cs =>
      if cs[n]? = some '-' then (unhyphenated? ns (cs.drop (n + 1))).map (cs.take n ++ ·) else none

/-- The identifier with these digits, if there are 32 of them. -/
def ofDigits? (cs : List Char) : Option Identifier :=
  if cs.length = 32 then (Json.ofHexDigits? cs).map fun n => ⟨BitVec.ofNat 128 n⟩ else none

/-- The identifier in the hyphenated form. -/
def ofHyphenated? (cs : List Char) : Option Identifier :=
  (unhyphenated? groups cs).bind ofDigits?

/-- What may stand before the hyphenated form. -/
def namespaceMark : List Char := "urn:uuid:".toList

/-- Reads any of the forms. -/
def parse (cs : List Char) : Option Identifier :=
  if cs.length = 32 then ofDigits? cs
  else if cs.length = 38 ∧ cs.head? = some '\x7b' ∧ cs.getLast? = some '\x7d' then
    ofHyphenated? (cs.drop 1).dropLast
  else if Text.asciiLowered (cs.take namespaceMark.length) = namespaceMark then
    ofHyphenated? (cs.drop namespaceMark.length)
  else ofHyphenated? cs

/-- The hyphenated form in lower case. -/
def text (i : Identifier) : String :=
  let digits := Text.hexDigits i.bits.toNat
  String.ofList (hyphenated groups (List.replicate (32 - digits.length) '0' ++ digits))

end Identifier

end Scorecard
