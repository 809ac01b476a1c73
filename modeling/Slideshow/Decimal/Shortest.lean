import Slideshow.Decimal.Binary

/-!
# Shortest decimals

The fewest significant digits that still read back as the same number: for 1, 2, … digits, the two
neighbours of the number on that decimal grid are tried against the interval of reals that round to
it.

* `Interval.holds` says when a decimal reads back.
* `shortest` is the first grid with a neighbour inside, and of two such neighbours the nearer one.
* `Layout` says how the digits are laid out; `displayed` never uses an exponent, `jsonNumber` does.
-/

namespace Slideshow.Decimal

/-- Which of two equally near neighbours is taken. -/
inductive Tie where
  | up
  | even
deriving DecidableEq, Repr

/-- The reals between `low / den` and `high / den` around `value / den`; the ends belong to it when
`closed`. -/
structure Interval where
  low : Nat
  value : Nat
  high : Nat
  den : Nat
  closed : Bool
deriving DecidableEq, Repr

namespace Interval

/-- The reals that round to `mantissa * 2 ^ exponent`: half-way to the neighbours on both sides,
where the one below a power of two is half as far away. -/
def around (mantissa : Nat) (exponent : Int) : Interval :=
  let scale := Parts.numerator 1 (exponent - 2)
  let below := if mantissa == Nat.pow 2 52 && exponent > -1074 then 1 else 2
  { low := (4 * mantissa - below) * scale
    value := 4 * mantissa * scale
    high := (4 * mantissa + 2) * scale
    den := Parts.denominator (exponent - 2)
    closed := mantissa % 2 == 0 }

/-- Whether `num / d` lies in the interval. -/
def holds (i : Interval) (num d : Nat) : Bool :=
  let x := num * i.den
  if i.closed then i.low * d ≤ x && x ≤ i.high * d else i.low * d < x && x < i.high * d

/-- The position of the decimal point: `10 ^ (point - 1) ≤ value < 10 ^ point`. -/
def point (i : Interval) : Int :=
  if i.den ≤ i.value then digitCount (i.value / i.den)
  else 1 - (digitCount ((i.den + i.value - 1) / i.value - 1) : Int)

end Interval

/-- A decimal `0.d₁d₂… * 10 ^ point`, without trailing zeros. -/
structure Significand where
  digits : List Char
  point : Int
deriving DecidableEq, Repr

/-- The decimal `count * 10 ^ unit`, whose trailing zeros go. -/
def Significand.ofCount (count : Nat) (unit : Int) : Significand :=
  let ds := natDigits count
  ⟨(ds.reverse.dropWhile (· == '0')).reverse, unit + ds.length⟩

/-- The neighbour of the value on the grid of multiples of `10 ^ unit` that reads back, if one
does. -/
def Interval.onGrid (tie : Tie) (i : Interval) (unit : Int) : Option Nat :=
  let num := i.value * Nat.pow 10 (-unit).toNat
  let den := i.den * Nat.pow 10 unit.toNat
  let below := num / den
  let inside (n : Nat) : Bool := i.holds (n * Nat.pow 10 unit.toNat) (Nat.pow 10 (-unit).toNat)
  let twice := 2 * (num % den)
  if inside below && inside (below + 1) then
    if twice < den then some below
    else if den < twice then some (below + 1)
    else if tie == .up || below % 2 == 1 then some (below + 1) else some below
  else if inside below then some below
  else if inside (below + 1) then some (below + 1)
  else none

/-- The first grid with a neighbour that reads back, from `count` significant digits on; seventeen
digits always do, and `fuel` tries are made. -/
def Interval.search (tie : Tie) (i : Interval) (point : Int) : Nat → Nat → Significand
  | 0, _ => ⟨[], point⟩
  | fuel + 1, count =>
    match i.onGrid tie (point - count) with
    | some n => Significand.ofCount n (point - count)
    | none => i.search tie point fuel (count + 1)

/-- The fewest digits that read back as the positive number `mantissa * 2 ^ exponent`. -/
def shortest (tie : Tie) (mantissa : Nat) (exponent : Int) : Significand :=
  let i := Interval.around mantissa exponent
  i.search tie i.point 17 1

/-- Significand with a point and no exponent. -/
def Significand.positional (d : Significand) : List Char :=
  if d.point ≤ 0 then '0' :: '.' :: zeros (-d.point).toNat ++ d.digits
  else if d.digits.length ≤ d.point.toNat then d.digits ++ zeros (d.point.toNat - d.digits.length)
  else d.digits.take d.point.toNat ++ '.' :: d.digits.drop d.point.toNat

/-- Significand with one before the point and a power of ten, whose sign is always written. -/
def Significand.scientific (d : Significand) : List Char :=
  let mantissa := match d.digits with
    | [] => []
    | [c] => [c]
    | c :: r => c :: '.' :: r
  let power := d.point - 1
  mantissa ++ 'e' :: (if power < 0 then '-' else '+') :: natDigits power.natAbs

/-- How numbers are laid out as decimals. -/
structure Layout where
  /-- Which of two equally near shortest decimals is written. -/
  tie : Tie
  /-- The positions of the point that are written without an exponent. -/
  positional : Int → Bool
  /-- Whether a whole number ends in `.0`. -/
  wholeMark : Bool

/-- Lays out a finite number. -/
def Layout.finite (l : Layout) (negative : Bool) (mantissa : Nat) (exponent : Int) : List Char :=
  let sign := if negative then ['-'] else []
  let mark := if l.wholeMark then ['.', '0'] else []
  if mantissa == 0 then sign ++ '0' :: mark
  else
    let d := shortest l.tie mantissa exponent
    if l.positional d.point then
      sign ++ d.positional ++ (if d.digits.length ≤ d.point.toNat then mark else [])
    else sign ++ d.scientific

/-- Messages never use an exponent, and a whole number has no point. -/
def displayLayout : Layout := ⟨.up, fun _ => true, false⟩

/-- JSON uses an exponent below `0.00001` and from `10 ^ 16` on, and marks whole numbers. -/
def jsonLayout : Layout := ⟨.even, fun p => -5 < p && p ≤ 16, true⟩

/-- A number as messages show it. -/
def displayed (x : Float) : String :=
  match Parts.ofFloat x with
  | .nan => "NaN"
  | .infinite negative => if negative then "-inf" else "inf"
  | .finite negative mantissa exponent =>
    String.ofList (displayLayout.finite negative mantissa exponent)

/-- A finite number as JSON writes it; the others have no written form there. -/
def jsonNumber? (x : Float) : Option (List Char) :=
  match Parts.ofFloat x with
  | .nan | .infinite _ => none
  | .finite negative mantissa exponent => some (jsonLayout.finite negative mantissa exponent)

end Slideshow.Decimal
