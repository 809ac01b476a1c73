import Slideshow.Decimal.Reader
import Slideshow.Document
import Slideshow.Json.Quoted

/-!
# TOML numbers and dates

* `integer?` reads decimal, hexadecimal, octal and binary integers of 64 bits.
* `float?` reads decimals with a point or an exponent, and the words `inf` and `nan`.
* `dateTime?` recognises dates, times and both together.
-/

namespace Slideshow.Toml

open Decimal

/-- Digits with single underscores between them, at the head of a text, without the underscores. -/
def digitRun (isDigit : Char → Bool) : List Char → List Char × List Char
  | c :: '_' :: d :: r =>
    if isDigit c then
      if isDigit d then
        let (ds, rest) := digitRun isDigit (d :: r)
        (c :: ds, rest)
      else ([c], '_' :: d :: r)
    else ([], c :: '_' :: d :: r)
  | c :: r =>
    if isDigit c then
      let (ds, rest) := digitRun isDigit r
      (c :: ds, rest)
    else ([], c :: r)
  | [] => ([], [])

/-- A decimal integer: zero, or digits that do not start with it. -/
def decimalInteger? (cs : List Char) : Option (List Char × List Char) :=
  match cs with
  | '0' :: r => some (['0'], r)
  | cs =>
    match digitRun isDigit cs with
    | ([], _) => none
    | p => some p

def isHexDigit (c : Char) : Bool := (Json.hexValue? c).isSome

/-- An integer in another base, after its mark. -/
def baseInteger? (base : Nat) (isDigit : Char → Bool) (cs : List Char) : Option (Int × List Char) :=
  match digitRun isDigit cs with
  | ([], _) => none
  | (ds, rest) =>
    some ((ds.foldl (fun n c => base * n + (Json.hexValue? c).getD 0) 0 : Nat), rest)

/-- Refuses an integer that does not fit in 64 bits. -/
def bounded? (p : Int × List Char) : Option (Int × List Char) :=
  if -Int.pow 2 63 ≤ p.1 && p.1 < Int.pow 2 63 then some p else none

def integer? (cs : List Char) : Option (Int × List Char) :=
  match cs with
  | '0' :: 'x' :: r => (baseInteger? 16 isHexDigit r).bind bounded?
  | '0' :: 'o' :: r => (baseInteger? 8 (fun c => '0' ≤ c && c ≤ '7') r).bind bounded?
  | '0' :: 'b' :: r => (baseInteger? 2 (fun c => c == '0' || c == '1') r).bind bounded?
  | cs => do
    let (negative, rest) := readSign cs
    let (ds, rest) ← decimalInteger? rest
    bounded? (if negative then -(natOfDigits ds : Int) else natOfDigits ds, rest)

/-- The exponent of a decimal at the head of a text. -/
def power? : List Char → Option (Int × List Char)
  | c :: r =>
    if c == 'e' || c == 'E' then
      let (negative, rest) := readSign r
      match digitRun isDigit rest with
      | ([], _) => none
      | (ds, rest) => some (if negative then -(natOfDigits ds : Int) else natOfDigits ds, rest)
    else none
  | [] => none

/-- A word for a number that is not finite. -/
def specialFloat? : List Char → Option (Float × List Char)
  | 'i' :: 'n' :: 'f' :: r => some (infinity, r)
  | 'n' :: 'a' :: 'n' :: r => some (notANumber, r)
  | _ => none

/-- A number with a point or an exponent; one that is too large is refused. -/
def float? (cs : List Char) : Option (Float × List Char) :=
  let (negative, rest) := readSign cs
  let signed (x : Float) : Float := if negative then -x else x
  match specialFloat? rest with
  | some (x, rest) => some (signed x, rest)
  | none => do
    let (whole, rest) ← decimalInteger? rest
    let (fraction, rest, point) ← match rest with
      | '.' :: r =>
        match digitRun isDigit r with
        | ([], _) => none
        | (ds, rest) => some (ds, rest, true)
      | r => some ([], r, false)
    let (power, rest, marked) := match power? rest with
      | some (p, rest) => (p, rest, true)
      | none => (0, rest, point)
    if !marked then none
    else
      let x := signed (Literal.value ⟨whole, fraction, power⟩)
      if x == infinity then none else some (x, rest)

/-- Reads a number of exactly `n` digits between two bounds. -/
def field? (n low high : Nat) (cs : List Char) : Option (Nat × List Char) :=
  let ds := cs.take n
  let v := natOfDigits ds
  if ds.length == n && ds.all isDigit && low ≤ v && v ≤ high then some (v, cs.drop n) else none

/-- The text after a given character. -/
def mark? (c : Char) : List Char → Option (List Char)
  | d :: r => if c == d then some r else none
  | [] => none

def isLeapYear (y : Nat) : Bool := y % 4 == 0 && (y % 100 != 0 || y % 400 == 0)

def daysInMonth (year month : Nat) : Nat :=
  if month == 2 then (if isLeapYear year then 29 else 28)
  else if month == 4 || month == 6 || month == 9 || month == 11 then 30
  else 31

def date? (cs : List Char) : Option (List Char) := do
  let (year, r) ← field? 4 0 9999 cs
  let (month, r) ← field? 2 1 12 (← mark? '-' r)
  let (_, r) ← field? 2 1 (daysInMonth year month) (← mark? '-' r)
  return r

def time? (cs : List Char) : Option (List Char) := do
  let (_, r) ← field? 2 0 23 cs
  let (_, r) ← field? 2 0 59 (← mark? ':' r)
  let (_, r) ← field? 2 0 60 (← mark? ':' r)
  match r with
  | '.' :: f => if (f.takeWhile isDigit).isEmpty then return r else return f.dropWhile isDigit
  | r => return r

/-- The text after an offset from universal time, if there is one. -/
def dropOffset (cs : List Char) : Option (List Char) :=
  match cs with
  | 'Z' :: r => some r
  | 'z' :: r => some r
  | c :: r =>
    if c == '+' || c == '-' then do
      let (_, r) ← field? 2 0 23 r
      let (_, r) ← field? 2 0 59 (← mark? ':' r)
      return r
    else some cs
  | [] => some []

/-- The text after a date, a time, or a date with a time and perhaps an offset. -/
def dateTime? (cs : List Char) : Option (List Char) :=
  match date? cs with
  | none => time? cs
  | some r =>
    match r with
    | c :: t =>
      if c == 'T' || c == 't' || c == ' ' then
        match time? t with
        | some r => dropOffset r
        | none => if c == ' ' then some r else none
      else some r
    | [] => some []

end Slideshow.Toml
