import Scorecard.Json.Value
import Scorecard.Report.Timestamp

/-!
# Dates and times in TOML

A date, a time of day, or both, and then perhaps an offset from universal time.  JSON has no such
value, so one is carried by an object with the single key `DateTime.key` and the text of the date
and time.  By the same rule any table inside a document that begins with this key has to be a date
and time: `dated?` refuses it otherwise, and drops what comes after the key.
-/

namespace Scorecard.Toml

open Number (isDigit)

/-- A day of the calendar. -/
structure Day where
  year : Nat
  month : Nat
  day : Nat
  deriving DecidableEq, Repr

/-- A time of day. -/
structure TimeOfDay where
  hour : Nat
  minute : Nat
  second : Nat
  nanosecond : Nat
  deriving DecidableEq, Repr

/-- An offset from universal time. -/
inductive Offset where
  | universal
  | minutes (n : Int)
  deriving DecidableEq, Repr

/-- A date, a time of day, or both with an offset. -/
structure DateTime where
  day : Option Day
  time : Option TimeOfDay
  offset : Option Offset
  deriving DecidableEq, Repr

open Timestamp (padded)

/-! ## Writing -/

/-- The day with hyphens. -/
def Day.text (d : Day) : List Char :=
  padded 4 d.year ++ '-' :: padded 2 d.month ++ '-' :: padded 2 d.day

/-- The time with colons, and with as many digits of the fraction as it takes. -/
def TimeOfDay.text (t : TimeOfDay) : List Char :=
  let fraction := ((padded 9 t.nanosecond).reverse.dropWhile (· = '0')).reverse
  padded 2 t.hour ++ ':' :: padded 2 t.minute ++ ':' :: padded 2 t.second ++
    if fraction = [] then [] else '.' :: fraction

/-- The offset in hours and minutes. -/
def Offset.text : Offset → List Char
  | universal => ['Z']
  | minutes n =>
      (if n < 0 then '-' else '+') :: padded 2 (n.natAbs / 60) ++ ':' :: padded 2 (n.natAbs % 60)

namespace DateTime

/-- The text of a date and time. -/
def text (d : DateTime) : List Char :=
  (d.day.map Day.text).getD [] ++ (if d.day.isSome ∧ d.time.isSome then ['T'] else []) ++
    (d.time.map TimeOfDay.text).getD [] ++ (d.offset.map Offset.text).getD []

/-- The key of an object that carries a date and time. -/
def key : String := "$__toml_private_datetime"

/-- The object that carries a date and time. -/
def toJson (d : DateTime) : Json := .object [(key, .string (String.ofList d.text))]

end DateTime

/-! ## Reading -/

/-- The greatest numbers that a time may have. -/
structure TimeBounds where
  hour : Nat
  offsetHour : Nat
  offsetMinute : Nat

/-- The bounds for dates and times of a document. -/
def TimeBounds.document : TimeBounds := ⟨23, 23, 59⟩

/-- The bounds for dates and times inside a text. -/
def TimeBounds.text : TimeBounds := ⟨24, 99, 99⟩

/-- A number of exactly `width` digits within bounds, and what follows. -/
def takeField (width low high : Nat) (cs : List Char) : Option (Nat × List Char) :=
  let digits := cs.take width
  let n := Number.ofDigits digits
  if digits.length = width ∧ digits.all isDigit ∧ low ≤ n ∧ n ≤ high then some (n, cs.drop width)
  else none

/-- What follows a character. -/
def after (c : Char) (cs : List Char) : Option (List Char) :=
  if cs.head? = some c then some cs.tail else none

/-- A day, and what follows. -/
def takeDay (cs : List Char) : Option (Day × List Char) := do
  let (year, cs) ← takeField 4 0 9999 cs
  let (month, cs) ← takeField 2 1 12 (← after '-' cs)
  let (day, cs) ← takeField 2 1 (daysInMonth year month) (← after '-' cs)
  return (⟨year, month, day⟩, cs)

/-- The fraction of a second in nanoseconds, and what follows.  Further digits do not count. -/
def takeNanosecond (cs : List Char) : Nat × List Char :=
  match cs with
  | '.' :: body =>
      if body.head?.any isDigit then
        let digits := body.takeWhile isDigit ++ List.replicate 9 '0'
        (Number.ofDigits (digits.take 9), body.dropWhile isDigit)
      else (0, cs)
  | _ => (0, cs)

/-- A time of day, and what follows. -/
def takeTime (bounds : TimeBounds) (cs : List Char) : Option (TimeOfDay × List Char) := do
  let (hour, cs) ← takeField 2 0 bounds.hour cs
  let (minute, cs) ← takeField 2 0 59 (← after ':' cs)
  let (second, cs) ← takeField 2 0 60 (← after ':' cs)
  let (nanosecond, cs) := takeNanosecond cs
  return (⟨hour, minute, second, nanosecond⟩, cs)

/-- An offset of at most a day, and what follows. -/
def takeOffset (bounds : TimeBounds) (cs : List Char) : Option (Offset × List Char) :=
  match cs with
  | 'Z' :: rest | 'z' :: rest => some (.universal, rest)
  | sign :: rest => do
      if sign ≠ '+' ∧ sign ≠ '-' then none
      let (hours, rest) ← takeField 2 0 bounds.offsetHour rest
      let (minutes, rest) ← takeField 2 0 bounds.offsetMinute (← after ':' rest)
      let n : Int := hours * 60 + minutes
      if 24 * 60 < n then none
      return (.minutes (if sign = '-' then -n else n), rest)
  | [] => none

/-- The time of day and the offset after a day, as far as they are there, and what follows. -/
def takeTimeOfDay (bounds : TimeBounds) (cs : List Char) :
    Option TimeOfDay × Option Offset × List Char :=
  let separated := cs.head?.any fun c => c = 'T' || c = 't' || c = ' '
  match if separated then takeTime bounds cs.tail else none with
  | none => (none, none, cs)
  | some (time, rest) =>
      match takeOffset bounds rest with
      | none => (some time, none, rest)
      | some (offset, rest) => (some time, some offset, rest)

/-- A date, a time of day or both, and what follows. -/
def takeDateTime (bounds : TimeBounds) (cs : List Char) : Option (DateTime × List Char) :=
  match takeDay cs with
  | some (day, rest) =>
      let (time, offset, rest) := takeTimeOfDay bounds rest
      some (⟨some day, time, offset⟩, rest)
  | none => (takeTime bounds cs).map fun (time, rest) => (⟨none, some time, none⟩, rest)

/-- The date and time that a text consists of. -/
def DateTime.ofText? (s : String) : Option DateTime :=
  match takeDateTime .text s.toList with
  | some (d, []) => some d
  | _ => none

/-! ## Values with dates -/

/-- The members of a value that begins with the key of dates and times. -/
def DateTime.ofMember? : Json → Option DateTime
  | .string s => ofText? s
  | _ => none

mutual

/-- A value whose tables have their members in the order of the document, with the dates and times
in it read and with its members sorted. -/
def dated? : Json → Option Json
  | .array items => (datedItems? items).map .array
  | .object ((key, v) :: members) =>
      if key = DateTime.key then (DateTime.ofMember? v).map DateTime.toJson
      else do
        let v ← dated? v
        let members ← datedMembers? members
        return .object (Json.sortMembers ((key, v) :: members))
  | v => some v

/-- Each of several values, with the dates and times in it read. -/
def datedItems? : List Json → Option (List Json)
  | [] => some []
  | v :: vs => do return (← dated? v) :: (← datedItems? vs)

/-- Members whose values have the dates and times in them read. -/
def datedMembers? : List (String × Json) → Option (List (String × Json))
  | [] => some []
  | (key, v) :: members => do return (key, ← dated? v) :: (← datedMembers? members)

end

end Scorecard.Toml
