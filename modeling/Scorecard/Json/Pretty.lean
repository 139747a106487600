import Scorecard.Json.Value
import Scorecard.Text.Quoted

/-!
# Written JSON

A value is written with one item or member a line, indented by two blanks for each container around
it.  Empty containers take no line.  Only quotes, backslashes and controls below the blank are
escaped in a text.
-/

namespace Scorecard.Json

/-- How a character is written between quotes. -/
def escapedChar (c : Char) : List Char :=
  if c = '"' then ['\\', '"']
  else if c = '\\' then ['\\', '\\']
  else if c = '\x08' then ['\\', 'b']
  else if c = '\x0c' then ['\\', 'f']
  else if c = '\n' then ['\\', 'n']
  else if c = '\r' then ['\\', 'r']
  else if c = '\t' then ['\\', 't']
  else if c.toNat < 0x20 then
    let digits := Text.hexDigits c.toNat
    ['\\', 'u'] ++ List.replicate (4 - digits.length) '0' ++ digits
  else [c]

/-- A text between quotes. -/
def quotedText (s : String) : List Char := '"' :: s.toList.flatMap escapedChar ++ ['"']

/-- A line end and the indentation of the next line. -/
def newLine (depth : Nat) : List Char := '\n' :: List.replicate (2 * depth) ' '

/-- A container around written items; `depth` containers are around it. -/
def enclosed (opening closing : Char) (depth : Nat) : List (List Char) → List Char
  | [] => [opening, closing]
  | item :: items =>
      opening :: newLine (depth + 1) ++ item ++
        items.flatMap (fun i => ',' :: newLine (depth + 1) ++ i) ++ newLine depth ++ [closing]

mutual

/-- A value with `depth` containers around it. -/
def pretty (depth : Nat) : Json → List Char
  | null => "null".toList
  | bool b => (if b then "true" else "false").toList
  | int n => Number.intText n
  | float x => Number.Style.json.text x
  | string s => quotedText s
  | array items => enclosed '[' ']' depth (prettyItems (depth + 1) items)
  | object members => enclosed '\x7b' '\x7d' depth (prettyMembers (depth + 1) members)

/-- The items of an array. -/
def prettyItems (depth : Nat) : List Json → List (List Char)
  | [] => []
  | v :: vs => pretty depth v :: prettyItems depth vs

/-- The members of an object. -/
def prettyMembers (depth : Nat) : List (String × Json) → List (List Char)
  | [] => []
  | (k, v) :: ms => (quotedText k ++ ':' :: ' ' :: pretty depth v) :: prettyMembers depth ms

end

/-- The text of a value. -/
def text (v : Json) : String := String.ofList (pretty 0 v)

end Scorecard.Json
