import Scorecard.Number.Text
import Scorecard.Text.Blank

/-!
# Timestamps

A timestamp is a date of the proleptic Gregorian calendar and a time of day, in universal time and
to the nanosecond.  It is written as `2024-01-02T03:04:05Z`, with three, six or nine digits for the
fraction of the second when there is one.

What is read is more liberal: numbers need not be padded, blanks may stand around the marks, and the
time may be given at an offset from universal time of less than a day.
-/

namespace Scorecard

/-- Whether a year has a leap day. -/
def isLeapYear (year : Int) : Bool := year % 4 = 0 && (year % 100 ≠ 0 || year % 400 = 0)

/-- The number of days of a month. -/
def daysInMonth (year : Int) (month : Nat) : Nat :=
  if month = 2 then if isLeapYear year then 29 else 28
  else if month = 4 ∨ month = 6 ∨ month = 9 ∨ month = 11 then 30
  else 31

/-- The first and the last year that dates are kept for. -/
def yearRange : Int × Int := (-262143, 262142)

/-- Whether a date with these parts exists and is kept. -/
def isDate (year : Int) (month day : Nat) : Bool :=
  yearRange.1 ≤ year && year ≤ yearRange.2 && 1 ≤ month && month ≤ 12 && 1 ≤ day &&
    day ≤ daysInMonth year month

/-- A date. -/
structure Date where
  year : Int
  month : Nat
  day : Nat
  valid : isDate year month day = true
  deriving DecidableEq, Repr

namespace Date

/-- The date with these parts. -/
def ofParts? (year : Int) (month day : Nat) : Option Date :=
  if h : isDate year month day then some ⟨year, month, day, h⟩ else none

/-- The day after. -/
def next? (d : Date) : Option Date :=
  if d.day < daysInMonth d.year d.month then ofParts? d.year d.month (d.day + 1)
  else if d.month < 12 then ofParts? d.year (d.month + 1) 1
  else ofParts? (d.year + 1) 1 1

/-- The day before. -/
def previous? (d : Date) : Option Date :=
  if 1 < d.day then ofParts? d.year d.month (d.day - 1)
  else if 1 < d.month then ofParts? d.year (d.month - 1) (daysInMonth d.year (d.month - 1))
  else ofParts? (d.year - 1) 12 31

/-- The date so many days later, for the days that a shift by less than a day can reach. -/
def shift? (d : Date) (days : Int) : Option Date :=
  if days < 0 then d.previous? else if 0 < days then d.next? else some d

end Date

/-- A moment in universal time.  The second is 60 in a leap second. -/
structure Timestamp where
  date : Date
  minuteOfDay : Fin 1440
  second : Fin 61
  nanosecond : Fin 1000000000
  deriving DecidableEq, Repr

namespace Timestamp

/-! ## Writing -/

/-- The digits of a number with zeros before them, at least `width`. -/
def padded (width n : Nat) : List Char :=
  let digits := Number.natDigits n
  List.replicate (width - digits.length) '0' ++ digits

/-- The year, which carries a sign unless it has four digits. -/
def yearText (year : Int) : List Char :=
  if 0 ≤ year ∧ year ≤ 9999 then padded 4 year.natAbs
  else (if year < 0 then '-' else '+') :: padded 4 year.natAbs

/-- The date with hyphens. -/
def dateText (t : Timestamp) : List Char :=
  yearText t.date.year ++ '-' :: padded 2 t.date.month ++ '-' :: padded 2 t.date.day

/-- The time of day in hours, minutes and seconds, with the given mark between them. -/
def timeText (mark : List Char) (t : Timestamp) : List Char :=
  padded 2 (t.minuteOfDay / 60) ++ mark ++ padded 2 (t.minuteOfDay % 60) ++ mark ++ padded 2 t.second

/-- The fraction of the second in the fewest groups of three digits that are exact. -/
def fractionText (nanosecond : Nat) : List Char :=
  if nanosecond = 0 then []
  else if nanosecond % 1000000 = 0 then '.' :: padded 3 (nanosecond / 1000000)
  else if nanosecond % 1000 = 0 then '.' :: padded 6 (nanosecond / 1000)
  else '.' :: padded 9 nanosecond

/-- The timestamp as it is saved. -/
def text (t : Timestamp) : String :=
  String.ofList (t.dateText ++ 'T' :: t.timeText [':'] ++ fractionText t.nanosecond ++ ['Z'])

/-- The timestamp for a reader, to the second. -/
def display (t : Timestamp) : String :=
  String.ofList (t.dateText ++ ' ' :: t.timeText [':']) ++ " UTC"

/-- The timestamp as a part of a file name. -/
def compact (t : Timestamp) : String := String.ofList (t.dateText ++ 'T' :: t.timeText [])

/-! ## Reading -/

/-- A number of at most `most` digits after blanks. -/
def takeNumber (most : Nat) (cs : List Char) : Option (Nat × List Char) :=
  let body := Text.dropBlanks cs
  let digits := (body.take most).takeWhile Number.isDigit
  if digits = [] then none else some (Number.ofDigits digits, body.drop digits.length)

/-- A year: up to four digits, or a sign and any number of digits. -/
def takeYear (cs : List Char) : Option (Int × List Char) :=
  match Text.dropBlanks cs with
  | '-' :: body =>
      if body.head?.any Number.isDigit then
        (takeNumber body.length body).map fun (n, rest) => (-(n : Int), rest)
      else none
  | '+' :: body =>
      if body.head?.any Number.isDigit then
        (takeNumber body.length body).map fun (n, rest) => ((n : Int), rest)
      else none
  | body => (takeNumber 4 body).map fun (n, rest) => ((n : Int), rest)

/-- What follows a mark and the blanks before it. -/
def afterMark (mark : Char) (cs : List Char) : Option (List Char) :=
  match Text.dropBlanks cs with
  | c :: rest => if c = mark then some rest else none
  | [] => none

/-- A date. -/
def takeDate (cs : List Char) : Option (Date × List Char) := do
  let (year, cs) ← takeYear cs
  let (month, cs) ← takeNumber 2 (← afterMark '-' cs)
  let (day, cs) ← takeNumber 2 (← afterMark '-' cs)
  return (← Date.ofParts? year month day, cs)

/-- The number of nanoseconds that digits after a decimal point stand for; those after the ninth do
not count. -/
def ofFraction (digits : List Char) : Nat :=
  Number.ofDigits (digits.take 9) * Nat.pow 10 (9 - digits.length)

/-- The fraction of a second, if there is one. -/
def takeFraction : List Char → Option (Nat × List Char)
  | '.' :: cs =>
      let digits := cs.takeWhile Number.isDigit
      if digits = [] then none else some (ofFraction digits, cs.drop digits.length)
  | cs => some (0, cs)

/-- A time of day as hours, minutes, seconds and nanoseconds. -/
def takeTime (cs : List Char) : Option ((Nat × Nat × Nat × Nat) × List Char) := do
  let (hour, cs) ← takeNumber 2 cs
  let (minute, cs) ← takeNumber 2 (← afterMark ':' cs)
  let (second, cs) ← takeNumber 2 (← afterMark ':' cs)
  let (nanosecond, cs) ← takeFraction cs
  return ((hour, minute, second, nanosecond), cs)

/-- An offset from universal time in minutes. -/
def takeOffset (cs : List Char) : Option (Int × List Char) :=
  match cs with
  | 'Z' :: rest | 'z' :: rest => some (0, rest)
  | sign :: h :: g :: rest =>
      if Text.asciiLowered [sign, h, g] = ['u', 't', 'c'] then some (0, rest)
      else if (sign = '+' ∨ sign = '-' ∨ sign = '\u2212') ∧ Number.isDigit h ∧ Number.isDigit g then
        match rest.dropWhile fun c => c = ':' || Text.isBlank c with
        | m :: n :: rest =>
            let minutes := Number.ofDigits [h, g] * 60 + Number.ofDigits [m, n]
            if Number.isDigit m ∧ m < '6' ∧ Number.isDigit n ∧ minutes < 1440 then
              some (if sign = '+' then minutes else -minutes, rest)
            else none
        | _ => none
      else none
  | _ => none

/-- The moment at which clocks with an offset from universal time show the given date and time. -/
def ofLocal? (date : Date) (hour minute second nanosecond : Nat) (offset : Int) : Option Timestamp :=
  if hour < 24 ∧ minute < 60 then
    let minutes : Int := (hour * 60 + minute : Nat) - offset
    if h : (minutes % 1440).toNat < 1440 ∧ second < 61 ∧ nanosecond < 1000000000 then
      (date.shift? (minutes / 1440)).map fun d =>
        ⟨d, ⟨(minutes % 1440).toNat, h.1⟩, ⟨second, h.2.1⟩, ⟨nanosecond, h.2.2⟩⟩
    else none
  else none

/-- Reads a date, a time of day and an offset.  A `T` or a blank stands between date and time. -/
def parse (cs : List Char) : Option Timestamp := do
  let (date, cs) ← takeDate cs
  let separator ← cs.head?
  if separator ≠ 'T' ∧ separator ≠ 't' ∧ separator ≠ ' ' then none
  let ((hour, minute, second, nanosecond), cs) ← takeTime cs.tail
  let (offset, cs) ← takeOffset (Text.dropBlanks cs)
  if Text.dropBlanks cs ≠ [] then none
  ofLocal? date hour minute second nanosecond offset

end Timestamp

end Scorecard
