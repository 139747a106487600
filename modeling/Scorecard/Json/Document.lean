import Scorecard.Json.Token

/-!
# JSON documents

A document is the tree of a JSON text with its numerals and quoted texts as written, members in
order and repeated ones kept.  The tree is built from the tokens by a stack of the containers that
are still open, so the depth of a document has no bound here.
-/

namespace Scorecard.Json

open Number (Numeral)

/-- The text that units stand for, unless half of a surrogate pair stands alone among them. -/
def decodeUnits : List StringUnit → Option (List Char)
  | [] => some []
  | .char c :: us => (decodeUnits us).map (c :: ·)
  | .code high :: .code low :: us =>
      if 0xD800 ≤ high ∧ high < 0xDC00 then
        if 0xDC00 ≤ low ∧ low < 0xE000 then
          (decodeUnits us).map (Char.ofNat (0x10000 + (high - 0xD800) * 0x400 + (low - 0xDC00)) :: ·)
        else none
      else if 0xDC00 ≤ high ∧ high < 0xE000 then none
      else (decodeUnits (.code low :: us)).map (Char.ofNat high :: ·)
  | .code n :: us =>
      if 0xD800 ≤ n ∧ n < 0xE000 then none else (decodeUnits us).map (Char.ofNat n :: ·)

/-- The text that units stand for. -/
def textOf? (units : List StringUnit) : Option String := (decodeUnits units).map String.ofList

/-- The tree of a JSON text. -/
inductive Document where
  | null
  | bool (b : Bool)
  | number (negative : Bool) (numeral : Numeral)
  | string (units : List StringUnit)
  | array (items : List Document)
  | object (members : List (List StringUnit × Document))

namespace Document

/-- A container that is still open, with what it holds so far, last first. -/
inductive Frame where
  | array (before : List Document)
  | object (before : List (List StringUnit × Document)) (key : List StringUnit)

/-- What may come next. -/
inductive State where
  /-- A value. -/
  | value
  /-- A value, or the end of the array that has just begun. -/
  | first
  /-- A key; also the end of the object if it has no member yet. -/
  | key (before : List (List StringUnit × Document))
  /-- The colon after a key. -/
  | colon (before : List (List StringUnit × Document)) (key : List StringUnit)
  /-- Whatever may follow a value. -/
  | done (v : Document)

/-- Reads the token with which a value starts. -/
def start (stack : List Frame) : Token → Option (List Frame × State)
  | .null => some (stack, .done .null)
  | .bool b => some (stack, .done (.bool b))
  | .number negative n => some (stack, .done (.number negative n))
  | .string units => some (stack, .done (.string units))
  | .begins .array => some (.array [] :: stack, .first)
  | .begins .object => some (stack, .key [])
  | .ends _ | .comma | .colon => none

/-- Reads the next token. -/
def step : List Frame × State → Token → Option (List Frame × State)
  | (stack, .value), t => start stack t
  | (.array [] :: stack, .first), .ends .array => some (stack, .done (.array []))
  | (stack, .first), t => start stack t
  | (stack, .key []), .ends .object => some (stack, .done (.object []))
  | (stack, .key before), .string k => some (stack, .colon before k)
  | (_, .key _), _ => none
  | (stack, .colon before k), .colon => some (.object before k :: stack, .value)
  | (_, .colon _ _), _ => none
  | (.array before :: stack, .done v), .comma => some (.array (v :: before) :: stack, .value)
  | (.array before :: stack, .done v), .ends .array =>
      some (stack, .done (.array (v :: before).reverse))
  | (.object before k :: stack, .done v), .comma => some (stack, .key ((k, v) :: before))
  | (.object before k :: stack, .done v), .ends .object =>
      some (stack, .done (.object ((k, v) :: before).reverse))
  | (_, .done _), _ => none

/-- The document whose tokens these are. -/
def ofTokens? (tokens : List Token) : Option Document :=
  match tokens.foldlM step ([], .value) with
  | some ([], .done v) => some v
  | _ => none

/-- The document of a text. -/
def parse (cs : List Char) : Option Document := (tokens? cs).bind ofTokens?

end Document

end Scorecard.Json
