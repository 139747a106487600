import Scorecard.Number.Numeral

/-!
# Tokens of a JSON text

Blanks, which are the space, the tab and the two line ends, separate tokens and are dropped.  A
numeral keeps its digits and a quoted text its escapes: what they stand for, and whether they stand
for anything, is asked only of those that are used.
-/

namespace Scorecard.Json

open Number (Numeral)

/-- The two kinds of container. -/
inductive Bracket where
  | array
  | object
  deriving DecidableEq, Repr

/-- A character of a quoted text: itself, or a code unit written as four hexadecimal digits. -/
inductive StringUnit where
  | char (c : Char)
  | code (n : Nat)
  deriving DecidableEq, Repr

/-- A token. -/
inductive Token where
  | begins (b : Bracket)
  | ends (b : Bracket)
  | comma
  | colon
  | null
  | bool (b : Bool)
  | number (negative : Bool) (numeral : Numeral)
  | string (units : List StringUnit)
  deriving DecidableEq, Repr

/-- Whether the character separates tokens. -/
def isSeparator (c : Char) : Bool := c = ' ' || c = '\t' || c = '\n' || c = '\r'

/-- The value of a hexadecimal digit. -/
def hexDigit? (c : Char) : Option Nat :=
  if Number.isDigit c then some (Number.digitValue c)
  else if 'a' ≤ c ∧ c ≤ 'f' then some (c.toNat - 'a'.toNat + 10)
  else if 'A' ≤ c ∧ c ≤ 'F' then some (c.toNat - 'A'.toNat + 10)
  else none

/-- The number that a row of hexadecimal digits stands for. -/
def ofHexDigits? (cs : List Char) : Option Nat :=
  cs.foldlM (fun n c => (hexDigit? c).map (16 * n + ·)) 0

/-- The character that a backslash and a letter stand for. -/
def escaped? : Char → Option Char
  | '"' => some '"'
  | '\\' => some '\\'
  | '/' => some '/'
  | 'b' => some '\x08'
  | 'f' => some '\x0c'
  | 'n' => some '\n'
  | 'r' => some '\r'
  | 't' => some '\t'
  | _ => none

/-- The units up to the closing quote, and what follows it. -/
def scanString : List Char → Option (List StringUnit × List Char)
  | [] => none
  | '"' :: cs => some ([], cs)
  | '\\' :: 'u' :: a :: b :: c :: d :: cs => do
      let n ← ofHexDigits? [a, b, c, d]
      let (units, rest) ← scanString cs
      return (.code n :: units, rest)
  | '\\' :: e :: cs => do
      let c ← escaped? e
      let (units, rest) ← scanString cs
      return (.char c :: units, rest)
  | c :: cs =>
      if c.toNat < 0x20 ∨ c = '\\' then none
      else do
        let (units, rest) ← scanString cs
        return (.char c :: units, rest)

/-- Whether the digits of a numeral are there, and none of them needless. -/
def wellWritten (n : Numeral) : Bool :=
  n.whole ≠ [] && (n.whole.head? ≠ some '0' || n.whole.length = 1) && n.fraction ≠ some []

/-- A numeral in its place, and what follows it. -/
def scanNumber (negative : Bool) (cs : List Char) : Option (Token × List Char) :=
  let (n, rest) := Numeral.scan cs
  if wellWritten n then some (.number negative n, rest) else none

/-- The token for a word, if the word is there. -/
def scanWord (word : String) (token : Token) (cs : List Char) : Option (Token × List Char) :=
  if word.toList.isPrefixOf cs then some (token, cs.drop word.length) else none

/-- The token that starts with the given character, and what follows it. -/
def next? (c : Char) (cs : List Char) : Option (Token × List Char) :=
  match c with
  | '[' => some (.begins .array, cs)
  | ']' => some (.ends .array, cs)
  | '\x7b' => some (.begins .object, cs)
  | '\x7d' => some (.ends .object, cs)
  | ',' => some (.comma, cs)
  | ':' => some (.colon, cs)
  | '"' => (scanString cs).map fun (units, rest) => (.string units, rest)
  | '-' => scanNumber true cs
  | 'n' => scanWord "ull" .null cs
  | 't' => scanWord "rue" (.bool true) cs
  | 'f' => scanWord "alse" (.bool false) cs
  | c => scanNumber false (c :: cs)

/-! ## Every token takes a character -/

theorem scanString_length {cs rest : List Char} {units : List StringUnit}
    (h : scanString cs = some (units, rest)) : rest.length ≤ cs.length := by
  fun_induction scanString cs generalizing units rest with
  | case1 => simp at h
  | case2 cs => simp_all
  | case3 a b c d cs ih =>
      simp only [Option.bind_eq_bind, Option.pure_def, Option.bind_eq_some_iff] at h
      obtain ⟨n, -, ⟨us, r⟩, hr, h⟩ := h
      simp only [Option.some.injEq, Prod.mk.injEq] at h
      have := ih hr
      simp only [← h.2, List.length_cons]
      omega
  | case4 e cs _ ih =>
      simp only [Option.bind_eq_bind, Option.pure_def, Option.bind_eq_some_iff] at h
      obtain ⟨n, -, ⟨us, r⟩, hr, h⟩ := h
      simp only [Option.some.injEq, Prod.mk.injEq] at h
      have := ih hr
      simp only [← h.2, List.length_cons]
      omega
  | case5 => simp at h
  | case6 c cs _ _ _ _ ih =>
      simp only [Option.bind_eq_bind, Option.pure_def, Option.bind_eq_some_iff] at h
      obtain ⟨⟨us, r⟩, hr, h⟩ := h
      simp only [Option.some.injEq, Prod.mk.injEq] at h
      have := ih hr
      simp only [← h.2, List.length_cons]
      omega

theorem scanNumber_length {negative : Bool} {cs rest : List Char} {t : Token}
    (h : scanNumber negative cs = some (t, rest)) : rest.length < cs.length := by
  have key := congrArg List.length (Numeral.scan_text cs)
  simp only [scanNumber] at h
  split at h
  · next hw =>
    simp only [Option.some.injEq, Prod.mk.injEq] at h
    have pos : 0 < (Numeral.scan cs).1.whole.length := by
      simp only [wellWritten, Bool.and_eq_true, decide_eq_true_eq] at hw
      exact List.length_pos_iff.mpr hw.1.1
    rw [← h.2]
    simp only [Numeral.text, List.length_append] at key
    omega
  · simp at h

theorem scanWord_length {word : String} {token t : Token} {cs rest : List Char}
    (h : scanWord word token cs = some (t, rest)) : rest.length ≤ cs.length := by
  simp only [scanWord] at h
  split at h
  · simp only [Option.some.injEq, Prod.mk.injEq] at h
    simp [← h.2]
  · simp at h

theorem next?_length {c : Char} {cs rest : List Char} {t : Token} (h : next? c cs = some (t, rest)) :
    rest.length ≤ cs.length := by
  unfold next? at h
  split at h
  all_goals first
    | (simp only [Option.some.injEq, Prod.mk.injEq] at h; simp [← h.2])
    | exact scanWord_length h
    | exact Nat.le_of_lt (scanNumber_length h)
    | exact Nat.le_of_lt_succ (by simpa using scanNumber_length h)
    | (obtain ⟨⟨us, r⟩, hr, h⟩ := Option.map_eq_some_iff.mp h
       simp only [Prod.mk.injEq] at h
       exact h.2 ▸ scanString_length hr)

/-- The tokens of a text, unless some part of it is no token. -/
def tokens? (cs : List Char) : Option (List Token) :=
  match cs with
  | [] => some []
  | c :: cs =>
      if isSeparator c then tokens? cs
      else
        match _h : next? c cs with
        | none => none
        | some (t, rest) => (tokens? rest).map (t :: ·)
termination_by cs.length
decreasing_by
  · simp
  · exact Nat.lt_succ_of_le (next?_length (by assumption))

end Scorecard.Json
