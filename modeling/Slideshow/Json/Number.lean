import Slideshow.Decimal.Reader
import Slideshow.Document

/-!
# JSON numbers

A number without a point and an exponent is an integer when it fits in 64 bits. Every other one is
read as a binary floating point number: of its digits, as many as fit in 64 bits make a significand,
which is rounded and then scaled by one power of ten.

* `readNumber?` reads the longest number at the head of a text.
* `Significand.take` says which digits count.
* `FloatReader` is the place of that reading: the texts around numbers are read in one way, whatever
  stands there.
-/

namespace Slideshow.Json

open Decimal

/-- A number as it is written. -/
structure NumberText where
  negative : Bool
  whole : List Char
  fraction : List Char
  exponent : Int
  /-- Whether there was a point or an exponent. -/
  marked : Bool
deriving DecidableEq, Repr

/-- The digits of a number that count, as a natural number below `2 ^ 64`, and how many of the
digits before and after the point went into it. -/
structure Significand where
  value : Nat
  used : Nat
deriving DecidableEq, Repr

/-- Takes digits as long as the value stays below `2 ^ 64`. -/
def Significand.take (s : Significand) : List Char → Significand
  | [] => s
  | c :: r =>
    if 10 * s.value + digitValue c < Nat.pow 2 64 then
      Significand.take ⟨10 * s.value + digitValue c, s.used + 1⟩ r
    else s

/-- Multiplies by a power of ten, in steps of `10 ^ 308` when it is below the smallest; `none` when
the result is too large. -/
def scale? (x : Float) (power : Int) : Option Float :=
  if power.natAbs ≤ 308 then
    let ten := Float.ofScientific 1 false power.natAbs
    if power < 0 then some (x / ten)
    else if (x * ten).isInf then none else some (x * ten)
  else if x == 0 then some x
  else if power ≥ 0 then none
  else scale? (x / Float.ofScientific 1 false 308) (power + 308)
termination_by power.natAbs
decreasing_by omega

/-- The floating point number that a text stands for, `unreadable` when it is too large. -/
def NumberText.float (t : NumberText) : Document :=
  let whole := Significand.take ⟨0, 0⟩ t.whole
  let signed (x : Float) : Float := if t.negative then -x else x
  let all := Significand.take ⟨whole.value, 0⟩ t.fraction
  let power := (t.whole.length - whole.used : Nat) - (all.used : Int)
  if t.exponent.natAbs ≥ Nat.pow 2 31 then
    if all.value == 0 || t.exponent < 0 then .float (signed 0) else .unreadable
  else
    match scale? (Float.ofNat all.value) (power + t.exponent) with
    | some x => .float (signed x)
    | none => .unreadable

/-- How a number that is no integer of 64 bits is read. -/
class FloatReader where
  read : NumberText → Document

instance : FloatReader := ⟨NumberText.float⟩

/-- The number that a text stands for. -/
def NumberText.document [FloatReader] (t : NumberText) : Document :=
  let whole := Significand.take ⟨0, 0⟩ t.whole
  if t.marked || whole.used < t.whole.length then FloatReader.read t
  else if t.negative then
    if whole.value == 0 || whole.value > Nat.pow 2 63 then .float (-Float.ofNat whole.value)
    else .integer (-(whole.value : Int))
  else .integer whole.value

/-- Reads an exponent after its letter. -/
def readPower? (cs : List Char) : Option (Int × List Char) :=
  let (negative, rest) := readSign cs
  let ds := rest.takeWhile isDigit
  if ds.isEmpty then none
  else some (if negative then -(natOfDigits ds : Int) else natOfDigits ds, rest.dropWhile isDigit)

/-- Reads the digits after the point, if there is one, with what follows them. -/
def readFraction? : List Char → Option (List Char × Bool × List Char)
  | '.' :: r =>
    let ds := r.takeWhile isDigit
    if ds.isEmpty then none else some (ds, true, r.dropWhile isDigit)
  | r => some ([], false, r)

/-- Reads the exponent, if there is one, of a number whose digits have been read. -/
def readEnd? (negative : Bool) (whole fraction : List Char) (point : Bool) :
    List Char → Option (NumberText × List Char)
  | c :: r =>
    if c == 'e' || c == 'E' then
      (readPower? r).map fun p => (⟨negative, whole, fraction, p.1, true⟩, p.2)
    else some (⟨negative, whole, fraction, 0, point⟩, c :: r)
  | [] => some (⟨negative, whole, fraction, 0, point⟩, [])

/-- Reads what may follow the digits before the point: a point with digits, and an exponent. -/
def readTail? (negative : Bool) (whole cs : List Char) : Option (NumberText × List Char) :=
  (readFraction? cs).bind fun p => readEnd? negative whole p.1 p.2.1 p.2.2

/-- Reads a number after its sign; a leading zero stands alone. -/
def readUnsigned? (negative : Bool) (cs : List Char) : Option (NumberText × List Char) :=
  match cs.takeWhile isDigit with
  | [] => none
  | '0' :: _ :: _ => none
  | whole => readTail? negative whole (cs.dropWhile isDigit)

/-- Reads a number. -/
def readNumber? : List Char → Option (NumberText × List Char)
  | '-' :: r => readUnsigned? true r
  | r => readUnsigned? false r

end Slideshow.Json
