import Slideshow.Decimal.Binary
import Slideshow.Decimal.Reader
import Slideshow.Text.Blank

/-!
# Moments

A moment is a count of seconds since the start of 1970 in universal time, and nanoseconds; from 10⁹
on they belong to a leap second. Its text is that of RFC 3339.

* `text` writes a moment in universal time, with 0, 3, 6 or 9 digits of the second.
* `parse?` reads a date, a time and an offset; the parts may be short and have blanks before them.
* `compact` and `spaced` are date and time to the second.
-/

namespace Slideshow

/-- A moment in universal time. -/
structure Timestamp where
  seconds : Int
  nanos : Nat
deriving DecidableEq, Repr

namespace Timestamp

open Decimal (padded)

/-- The days from the start of 1970 to a date; years start in March. -/
def daysOfDate (year : Int) (month day : Nat) : Int :=
  let y := if month ≤ 2 then year - 1 else year
  let era := y.fdiv 400
  let yearOfEra := y - 400 * era
  let dayOfYear := (153 * ((month + 9) % 12) + 2) / 5 + day - 1
  let dayOfEra := 365 * yearOfEra + yearOfEra / 4 - yearOfEra / 100 + dayOfYear
  146097 * era + dayOfEra - 719468

/-- A date with its year, month and day. -/
structure Date where
  year : Int
  month : Nat
  day : Nat
deriving DecidableEq, Repr

/-- The date so many days after the start of 1970. -/
def dateOfDays (days : Int) : Date :=
  let z := days + 719468
  let era := z.fdiv 146097
  let dayOfEra := (z - 146097 * era).toNat
  let yearOfEra := (dayOfEra - dayOfEra / 1460 + dayOfEra / 36524 - dayOfEra / 146096) / 365
  let dayOfYear := dayOfEra - (365 * yearOfEra + yearOfEra / 4 - yearOfEra / 100)
  let shifted := (5 * dayOfYear + 2) / 153
  let month := if shifted < 10 then shifted + 3 else shifted - 9
  { year := (yearOfEra : Int) + 400 * era + (if month ≤ 2 then 1 else 0)
    month := month
    day := dayOfYear - (153 * shifted + 2) / 5 + 1 }

/-- A year: four digits, and a sign when they are not enough. -/
def yearText (year : Int) : String :=
  if 0 ≤ year && year ≤ 9999 then padded 4 year.toNat
  else (if year < 0 then "-" else "+") ++ padded 4 year.natAbs

def date (t : Timestamp) : Date := dateOfDays (t.seconds.fdiv 86400)

/-- The second of the day. -/
def secondOfDay (t : Timestamp) : Nat := (t.seconds - 86400 * t.seconds.fdiv 86400).toNat

/-- The fraction of a second, in groups of three digits as far as they are needed. -/
def fractionText (nanos : Nat) : String :=
  if nanos == 0 then ""
  else if nanos % 1000000 == 0 then "." ++ padded 3 (nanos / 1000000)
  else if nanos % 1000 == 0 then "." ++ padded 6 (nanos / 1000)
  else "." ++ padded 9 nanos

/-- Year, month and day with something between them. -/
def dateText (separator : String) (t : Timestamp) : String :=
  let d := t.date
  separator.intercalate [yearText d.year, padded 2 d.month, padded 2 d.day]

/-- Hour, minute and second with something between them; a leap second is the sixtieth. -/
def clockText (separator : String) (t : Timestamp) : String :=
  let s := t.secondOfDay
  separator.intercalate
    [padded 2 (s / 3600), padded 2 (s / 60 % 60), padded 2 (s % 60 + t.nanos / 1000000000)]

def text (t : Timestamp) : String :=
  t.dateText "-" ++ "T" ++ t.clockText ":" ++ fractionText (t.nanos % 1000000000) ++ "Z"

/-- Date and time to the second, with a blank between them. -/
def spaced (t : Timestamp) : String := t.dateText "-" ++ " " ++ t.clockText ":"

/-- The digits of date and time without separators. -/
def compact (t : Timestamp) : String := t.dateText "" ++ t.clockText ""

/-! ## Reading -/

open Decimal (isDigit natOfDigits)

def isLeapYear (y : Int) : Bool := y.emod 4 == 0 && (y.emod 100 != 0 || y.emod 400 == 0)

def daysInMonth (year : Int) (month : Nat) : Nat :=
  if month == 2 then (if isLeapYear year then 29 else 28)
  else if month == 4 || month == 6 || month == 9 || month == 11 then 30
  else 31

def skipBlanks (cs : List Char) : List Char := cs.dropWhile Text.isBlank

/-- Reads one to `width` digits. -/
def digits? (width : Nat) (cs : List Char) : Option (Nat × List Char) :=
  let ds := (cs.take width).takeWhile isDigit
  if ds.isEmpty then none else some (natOfDigits ds, cs.drop ds.length)

/-- Reads one to `width` digits after blanks. -/
def number? (width : Nat) (cs : List Char) : Option (Nat × List Char) :=
  digits? width (skipBlanks cs)

/-- Reads a year: four digits at most, or any number of them after a sign. -/
def year? (cs : List Char) : Option (Int × List Char) :=
  match skipBlanks cs with
  | '-' :: r => (digits? r.length r).map fun p => (-(p.1 : Int), p.2)
  | '+' :: r => (digits? r.length r).map fun p => (p.1, p.2)
  | r => (digits? 4 r).map fun p => (p.1, p.2)

/-- The text after blanks and a given character. -/
def mark? (c : Char) (cs : List Char) : Option (List Char) :=
  match skipBlanks cs with
  | d :: r => if c == d then some r else none
  | [] => none

/-- Reads the fraction of a second in nanoseconds; digits after the ninth do not count. -/
def fraction? (cs : List Char) : Option (Nat × List Char) :=
  match cs with
  | '.' :: r =>
    let ds := r.takeWhile isDigit
    if ds.isEmpty then none
    else some (natOfDigits ((ds.take 9) ++ List.replicate (9 - ds.length) '0'), r.dropWhile isDigit)
  | r => some (0, r)

/-- Whether the sign of an offset is a minus. -/
def offsetSign? (c : Char) : Option Bool :=
  if c == '-' || c == '\u2212' then some true else if c == '+' then some false else none

/-- Reads hours and minutes of two digits each as minutes. -/
def offsetMinutes? (cs : List Char) : Option (Nat × List Char) :=
  let hours := cs.take 2
  let r := (cs.drop 2).dropWhile fun c => c == ':' || Text.isBlank c
  let minutes := r.take 2
  if hours.length != 2 || !hours.all isDigit || minutes.length != 2 || !minutes.all isDigit ||
      natOfDigits minutes > 59 then none
  else some (60 * natOfDigits hours + natOfDigits minutes, r.drop 2)

/-- Reads an offset from universal time in seconds. -/
def offset? (cs : List Char) : Option (Int × List Char) :=
  if (cs.take 3).map Char.toUpper == ['U', 'T', 'C'] then some (0, cs.drop 3)
  else
    match cs with
    | [] => none
    | c :: r =>
      if c == 'Z' || c == 'z' then some (0, r)
      else do
        let negative ← offsetSign? c
        let (minutes, r) ← offsetMinutes? r
        return (if negative then -(60 * (minutes : Int)) else 60 * minutes, r)

/-- The first and the last year in which a moment may lie. -/
def firstYear : Int := -262143

def lastYear : Int := 262142

def isYear (year : Int) : Bool := firstYear ≤ year && year ≤ lastYear

/-- Reads what stands between a date and a time. -/
def separator? : List Char → Option (List Char)
  | c :: r => if c == 'T' || c == 't' || c == ' ' then some r else none
  | [] => none

/-- The numbers that tell a moment. -/
structure Reading where
  date : Date
  hour : Nat
  minute : Nat
  second : Nat
  nanos : Nat
  /-- The seconds by which the place of the moment is ahead of universal time. -/
  offset : Int
deriving DecidableEq, Repr

/-- Reads year, month and day. -/
def readDate? (cs : List Char) : Option (Date × List Char) := do
  let (year, r) ← year? cs
  let (month, r) ← number? 2 (← mark? '-' r)
  let (day, r) ← number? 2 (← mark? '-' r)
  return (⟨year, month, day⟩, r)

/-- Reads hour, minute and second. -/
def readClock? (cs : List Char) : Option ((Nat × Nat × Nat) × List Char) := do
  let (hour, r) ← number? 2 cs
  let (minute, r) ← number? 2 (← mark? ':' r)
  let (second, r) ← number? 2 (← mark? ':' r)
  return ((hour, minute, second), r)

/-- Reads the numbers that tell a moment. -/
def reading? (s : String) : Option Reading := do
  let (date, r) ← readDate? s.toList
  let ((hour, minute, second), r) ← readClock? (← separator? r)
  let (nanos, r) ← fraction? r
  let (offset, r) ← offset? (skipBlanks r)
  if (skipBlanks r).isEmpty then some ⟨date, hour, minute, second, nanos, offset⟩ else none

/-- Whether the numbers are those of a date and a time. -/
def Reading.isValid (r : Reading) : Bool :=
  isYear r.date.year && 1 ≤ r.date.month && r.date.month ≤ 12 && 1 ≤ r.date.day &&
    r.date.day ≤ daysInMonth r.date.year r.date.month && r.hour ≤ 23 && r.minute ≤ 59 && r.second ≤
      60 && r.offset.natAbs < 86400

/-- The moment that numbers tell. -/
def Reading.moment (r : Reading) : Timestamp :=
  let leap := r.second == 60
  let ofDay : Int := 3600 * r.hour + 60 * r.minute + (if leap then 59 else r.second)
  ⟨86400 * daysOfDate r.date.year r.date.month r.date.day + ofDay - r.offset,
    r.nanos + (if leap then 1000000000 else 0)⟩

/-- Reads a moment, whose year must be one both where it is told and in universal time. -/
def parse? (s : String) : Option Timestamp :=
  (reading? s).bind fun r => if r.isValid && isYear r.moment.date.year then some r.moment else none

end Timestamp

end Slideshow
