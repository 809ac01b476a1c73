/-!
# Reading decimals

Decimal texts read as binary floating point numbers.

* `nearest` is the number nearest to `mantissa * 10 ^ exponent`.
* `read?` reads a decimal with an optional sign, point and exponent, or one of the words `inf`,
  `infinity` and `nan` in any letter case.
-/

namespace Slideshow.Decimal

/-- The value of a decimal digit. -/
def digitValue (c : Char) : Nat := c.toNat - '0'.toNat

def isDigit (c : Char) : Bool := '0' ≤ c && c ≤ '9'

/-- The natural number that a list of digits writes; none of them is zero. -/
def natOfDigits (cs : List Char) : Nat := cs.foldl (fun n c => 10 * n + digitValue c) 0

def infinity : Float := Float.ofBits 0x7FF0000000000000

def notANumber : Float := Float.ofBits 0x7FF8000000000000

/-- The number nearest to `mantissa * 10 ^ exponent`. A value of 310 digits or more is infinite and
one below `10 ^ -400` is zero, which spares the large power of ten. -/
def nearest (mantissa : Nat) (exponent : Int) : Float :=
  if mantissa == 0 then 0
  else
    let size : Int := (Nat.toDigits 10 mantissa).length + exponent
    if size > 310 then infinity
    else if size < -400 then 0
    else Float.ofScientific mantissa (exponent < 0) exponent.natAbs

/-- A decimal taken apart: its digits before and after the point, and its power of ten. -/
structure Literal where
  whole : List Char
  fraction : List Char
  exponent : Int
deriving DecidableEq, Repr

def Literal.value (l : Literal) : Float :=
  nearest (natOfDigits (l.whole ++ l.fraction)) (l.exponent - l.fraction.length)

/-- Reads a sign, which may be missing: whether it is a minus, and the rest. -/
def readSign : List Char → Bool × List Char
  | '-' :: r => (true, r)
  | '+' :: r => (false, r)
  | r => (false, r)

/-- Reads the exponent of a decimal up to the end of the text. -/
def readExponent? : List Char → Option Int
  | [] => some 0
  | c :: r =>
    if c == 'e' || c == 'E' then
      let (negative, ds) := readSign r
      if ds.isEmpty || !ds.all isDigit then none
      else some (if negative then -(natOfDigits ds : Int) else natOfDigits ds)
    else none

/-- Reads an unsigned decimal: digits with an optional point, at least one of them, and an optional
exponent. -/
def readLiteral? (cs : List Char) : Option Literal :=
  let whole := cs.takeWhile isDigit
  let rest := cs.dropWhile isDigit
  let (fraction, rest) := match rest with
    | '.' :: r => (r.takeWhile isDigit, r.dropWhile isDigit)
    | r => ([], r)
  if whole.isEmpty && fraction.isEmpty then none
  else (readExponent? rest).map fun exponent => ⟨whole, fraction, exponent⟩

/-- Reads a number without its sign. -/
def readMagnitude? (cs : List Char) : Option Float :=
  let word := cs.map Char.toLower
  if word == ['i', 'n', 'f'] || word == ['i', 'n', 'f', 'i', 'n', 'i', 't', 'y'] then some infinity
  else if word == ['n', 'a', 'n'] then some notANumber
  else (readLiteral? cs).map Literal.value

/-- Reads a number. -/
def read? (cs : List Char) : Option Float :=
  let (negative, rest) := readSign cs
  (readMagnitude? rest).map fun x => if negative then -x else x

end Slideshow.Decimal
