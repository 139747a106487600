import Scorecard.Json.Token

/-!
# Texts in TOML

A text stands between double quotes, where a backslash starts an escape, or between single quotes,
where it does not.  Three quotes delimit a text of several lines: a line end right after the opening
quotes is dropped, one or two quotes may stand inside, and after a backslash at the end of a line
everything up to the next character that is not blank is dropped.
-/

namespace Scorecard.Toml

/-- Whether the character separates items on one line. -/
def isSpace (c : Char) : Bool := c = ' ' || c = '\t'

/-- Whether the character may stand in a comment or, quotes and backslashes aside, in a text. -/
def isPlain (c : Char) : Bool := c = '\t' || (' ' ≤ c && c ≤ '~') || 0x80 ≤ c.toNat

/-- What follows the spaces at the front. -/
def dropSpaces (cs : List Char) : List Char := cs.dropWhile isSpace

/-- What follows a line end. -/
def afterNewLine? : List Char → Option (List Char)
  | '\n' :: cs => some cs
  | '\r' :: '\n' :: cs => some cs
  | _ => none

/-- What follows the spaces and line ends at the front. -/
def dropSpaceAndLines : List Char → List Char
  | ' ' :: cs => dropSpaceAndLines cs
  | '\t' :: cs => dropSpaceAndLines cs
  | '\n' :: cs => dropSpaceAndLines cs
  | '\r' :: '\n' :: cs => dropSpaceAndLines cs
  | cs => cs

/-- The four kinds of text. -/
structure Delimiter where
  quote : Char
  escapes : Bool
  multiline : Bool
  deriving DecidableEq, Repr

/-- The character of a code point. -/
def charOf? (n : Nat) : Option Char := if n.isValidChar then some (Char.ofNat n) else none

/-- The character whose code point the first `n` hexadecimal digits give, and what follows. -/
def takeCode (n : Nat) (cs : List Char) : Option (Char × List Char) :=
  if n ≤ cs.length then
    ((Json.ofHexDigits? (cs.take n)).bind charOf?).map fun c => (c, cs.drop n)
  else none

/-- The character that is escaped by a backslash and what comes after it. -/
def takeEscape : List Char → Option (Char × List Char)
  | 'b' :: cs => some ('\x08', cs)
  | 't' :: cs => some ('\t', cs)
  | 'n' :: cs => some ('\n', cs)
  | 'f' :: cs => some ('\x0c', cs)
  | 'r' :: cs => some ('\r', cs)
  | '"' :: cs => some ('"', cs)
  | '\\' :: cs => some ('\\', cs)
  | 'u' :: cs => takeCode 4 cs
  | 'U' :: cs => takeCode 8 cs
  | _ => none

/-- What a backslash at the end of a line leads to. -/
def afterFold? (cs : List Char) : Option (List Char) :=
  (afterNewLine? (dropSpaces cs)).map dropSpaceAndLines

/-- The number of quotes at the front, as far as they matter: five end a text that ends in two. -/
def quoteRun (quote : Char) (cs : List Char) : Nat := ((cs.take 5).takeWhile (· = quote)).length

theorem length_dropSpaceAndLines (cs : List Char) : (dropSpaceAndLines cs).length ≤ cs.length := by
  fun_induction dropSpaceAndLines cs with
  | case1 => simp only [List.length_cons]; omega
  | case2 => simp only [List.length_cons]; omega
  | case3 => simp only [List.length_cons]; omega
  | case4 => simp only [List.length_cons]; omega
  | case5 => exact Nat.le_refl _

theorem length_afterNewLine? {cs rest : List Char} (h : afterNewLine? cs = some rest) :
    rest.length ≤ cs.length := by
  unfold afterNewLine? at h
  split at h
  all_goals simp_all
  all_goals omega

theorem length_afterFold? {cs rest : List Char} (h : afterFold? cs = some rest) :
    rest.length ≤ cs.length := by
  obtain ⟨mid, hmid, rfl⟩ := Option.map_eq_some_iff.mp h
  exact Nat.le_trans (length_dropSpaceAndLines mid)
    (Nat.le_trans (length_afterNewLine? hmid) (List.dropWhile_sublist _).length_le)

theorem length_takeEscape {c : Char} {cs rest : List Char} (h : takeEscape cs = some (c, rest)) :
    rest.length ≤ cs.length := by
  have code {n : Nat} {ds : List Char} (h : takeCode n ds = some (c, rest)) :
      rest.length ≤ ds.length := by
    unfold takeCode at h
    split at h
    · obtain ⟨d, -, h⟩ := Option.map_eq_some_iff.mp h
      simp only [Prod.mk.injEq] at h
      simp [← h.2]
    · simp at h
  unfold takeEscape at h
  split at h
  all_goals first
    | (simp only [Option.some.injEq, Prod.mk.injEq] at h; simp [← h.2])
    | exact Nat.le_succ_of_le (code h)
    | simp at h

/-- The characters of a text whose opening quotes have been read, and what follows its closing
quotes. -/
def takeText (d : Delimiter) (cs : List Char) : Option (List Char × List Char) :=
  match cs with
  | [] => none
  | c :: cs =>
      let andThen (rest : Option (List Char × List Char)) :=
        rest.map fun (text, after) => (c :: text, after)
      if c = d.quote then
        if !d.multiline then some ([], cs)
        else
          let run := quoteRun d.quote (c :: cs)
          if 3 ≤ run then some (List.replicate (run - 3) c, (c :: cs).drop run)
          else andThen (takeText d cs)
      else if c = '\\' ∧ d.escapes then
        match _hf : if d.multiline then afterFold? cs else none with
        | some rest => takeText d rest
        | none =>
            match _he : takeEscape cs with
            | some (e, rest) => (takeText d rest).map fun (text, after) => (e :: text, after)
            | none => none
      else if c = '\n' ∧ d.multiline then andThen (takeText d cs)
      else if c = '\r' ∧ d.multiline ∧ cs.head? = some '\n' then takeText d cs
      else if isPlain c then andThen (takeText d cs)
      else none
termination_by cs.length
decreasing_by
  · simp
  · split at _hf
    · exact Nat.lt_succ_of_le (length_afterFold? _hf)
    · simp at _hf
  · exact Nat.lt_succ_of_le (length_takeEscape (by assumption))
  · simp
  · simp
  · simp

/-- The characters of a text of one line. -/
def takeLineText : List Char → Option (String × List Char)
  | '"' :: cs => (takeText ⟨'"', true, false⟩ cs).map fun (s, rest) => (String.ofList s, rest)
  | '\'' :: cs => (takeText ⟨'\'', false, false⟩ cs).map fun (s, rest) => (String.ofList s, rest)
  | _ => none

/-- A text of any kind, and what follows it. -/
def takeAnyText (cs : List Char) : Option (String × List Char) :=
  match cs with
  | q :: r :: s :: body =>
      if (q = '"' ∨ q = '\'') ∧ r = q ∧ s = q then
        (takeText ⟨q, q = '"', true⟩ ((afterNewLine? body).getD body)).map fun (s, rest) =>
          (String.ofList s, rest)
      else takeLineText cs
  | _ => takeLineText cs

end Scorecard.Toml
