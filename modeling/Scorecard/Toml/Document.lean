import Scorecard.Toml.Scalar
import Scorecard.Toml.Table

/-!
# TOML documents

A document is a sequence of lines: a key with its value, the header of a table or of one more table
of an array, a comment, or nothing.  `members` reads off what it says, and `parse` makes a JSON
object of that.  Arrays may span lines, inline tables may not, and both may be nested less than 80
deep.
-/

namespace Scorecard.Toml

/-- Keys have fewer parts than this, and arrays and inline tables are nested less deep. -/
def nestingBound : Nat := 80

/-! ## Keys -/

/-- Whether the character may stand in a key without quotes. -/
def isKeyChar (c : Char) : Bool := c.isAlphanum || c = '-' || c = '_'

/-- One part of a key, and what follows. -/
def takeKeyPart (cs : List Char) : Option (String × List Char) :=
  match cs with
  | '"' :: _ | '\'' :: _ => takeLineText cs
  | _ =>
      let word := cs.takeWhile isKeyChar
      if word = [] then none else some (String.ofList word, cs.drop word.length)

/-- A key: at most `bound` parts with points between them, and what follows. -/
def takeKeyParts : Nat → List Char → Option (List String × List Char)
  | 0, _ => none
  | bound + 1, cs => do
      let (part, cs) ← takeKeyPart (dropSpaces cs)
      match dropSpaces cs with
      | '.' :: rest =>
          let (parts, rest) ← takeKeyParts bound rest
          return (part :: parts, rest)
      | rest => return ([part], rest)

/-- A key: the parts before the last, the last part, and what follows. -/
def takeKey (cs : List Char) : Option ((List String × String) × List Char) := do
  let (parts, rest) ← takeKeyParts (nestingBound - 1) cs
  return ((parts.dropLast, ← parts.getLast?), rest)

/-! ## Values -/

mutual

/-- What follows spaces, line ends and comments. -/
def dropTrivia : List Char → List Char
  | ' ' :: cs => dropTrivia cs
  | '\t' :: cs => dropTrivia cs
  | '\n' :: cs => dropTrivia cs
  | '\r' :: '\n' :: cs => dropTrivia cs
  | '#' :: cs => dropComment cs
  | cs => cs

/-- What follows the rest of a comment and its line end. -/
def dropComment : List Char → List Char
  | '\n' :: cs => dropTrivia cs
  | '\r' :: '\n' :: cs => dropTrivia cs
  | c :: cs => if isPlain c then dropComment cs else c :: cs
  | [] => []

end

mutual

/-- A value, and what follows.  `fuel` bounds the number of characters and containers that are read,
`depth` the nesting of containers. -/
def takeValue : Nat → Nat → List Char → Option (Json × List Char)
  | 0, _, _ => none
  | fuel + 1, depth, cs =>
      match cs, depth with
      | '[' :: rest, depth + 1 =>
          (takeItems fuel depth rest).map fun (items, rest) => (.array items, rest)
      | '\x7b' :: rest, depth + 1 =>
          match dropSpaces rest with
          | '\x7d' :: rest => some (.object [], rest)
          | rest => (takeMembers fuel depth (.empty .explicit) rest).map fun (t, rest) =>
              (t.toJson, rest)
      | '[' :: _, 0 | '\x7b' :: _, 0 => none
      | cs, _ => takeScalar cs

/-- The items of an array up to its end, and what follows. -/
def takeItems : Nat → Nat → List Char → Option (List Json × List Char)
  | 0, _, _ => none
  | fuel + 1, depth, cs =>
      match dropTrivia cs with
      | ']' :: rest => some ([], rest)
      | cs => do
          let (v, rest) ← takeValue fuel depth cs
          match dropTrivia rest with
          | ',' :: rest =>
              let (vs, rest) ← takeItems fuel depth rest
              return (v :: vs, rest)
          | ']' :: rest => return ([v], rest)
          | _ => none

/-- An inline table with the members up to its end, and what follows. -/
def takeMembers : Nat → Nat → Table → List Char → Option (Table × List Char)
  | 0, _, _, _ => none
  | fuel + 1, depth, table, cs => do
      let ((path, key), cs) ← takeKey cs
      let (v, rest) ← takeValue fuel depth (dropSpaces (← after '=' cs))
      let table ← table.addDotted path key v
      match dropSpaces rest with
      | ',' :: rest => takeMembers fuel depth table rest
      | '\x7d' :: rest => return (table, rest)
      | _ => none

end

/-! ## Lines -/

/-- A line of a document. -/
inductive Line where
  | blank
  | member (path : List String) (key : String) (v : Json)
  | header (path : List String) (key : String)
  | itemHeader (path : List String) (key : String)

/-- What follows the end of a line, which a comment may precede. -/
def afterLine (cs : List Char) : Option (List Char) :=
  let rest := match dropSpaces cs with
    | '#' :: comment => comment.dropWhile isPlain
    | rest => rest
  if rest = [] then some [] else afterNewLine? rest

/-- A line without its end, and what follows. -/
def takeLine (cs : List Char) : Option (Line × List Char) :=
  match dropSpaces cs with
  | [] => some (.blank, [])
  | '#' :: _ | '\n' :: _ | '\r' :: _ => some (.blank, cs)
  | '[' :: '[' :: body => do
      let ((path, key), rest) ← takeKey body
      return (.itemHeader path key, ← after ']' (← after ']' rest))
  | '[' :: body => do
      let ((path, key), rest) ← takeKey body
      return (.header path key, ← after ']' rest)
  | body => do
      let ((path, key), rest) ← takeKey body
      let value ← after '=' rest
      let (v, rest) ← takeValue (2 * value.length + 1) (nestingBound - 1) (dropSpaces value)
      return (.member path key v, rest)

/-- A document that is being read: the whole, and the path to the table that members go to. -/
structure Reading where
  whole : Table
  current : List String

/-- Takes in a line. -/
def Reading.next (r : Reading) : Line → Option Reading
  | .blank => some r
  | .member path key v =>
      (r.whole.change .implied (·.addDotted path key v) r.current).map fun whole =>
        ⟨whole, r.current⟩
  | .header path key => (r.whole.openTable path key).map fun whole => ⟨whole, path ++ [key]⟩
  | .itemHeader path key => (r.whole.openItem path key).map fun whole => ⟨whole, path ++ [key]⟩

/-- Takes in the lines of a text; there are no more than `fuel` of them. -/
def Reading.run : Nat → Reading → List Char → Option Reading
  | 0, r, cs => if cs = [] then some r else none
  | fuel + 1, r, cs =>
      if cs = [] then some r
      else do
        let (line, rest) ← takeLine cs
        run fuel (← r.next line) (← afterLine rest)

/-- The members of a document in its order.  A byte-order mark at its beginning does not count. -/
def members (cs : List Char) : Option (List (String × Json)) :=
  let body := if cs.head? = some '\ufeff' then cs.tail else cs
  (Reading.run body.length ⟨.empty .explicit, []⟩ body).map fun r => jsonMembers r.whole.members

/-- The value of a document. -/
def parse (cs : List Char) : Option Json :=
  ((members cs).bind datedMembers?).map fun ms => .object (Json.sortMembers ms)

end Scorecard.Toml
