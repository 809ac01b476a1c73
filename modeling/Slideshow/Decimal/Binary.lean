/-!
# Binary floating point numbers, taken apart

A finite number is a sign, a mantissa and a power of two. The two families of decimals are written
from these parts by exact integer arithmetic.

* `Parts.ofFloat` takes a number apart.
* `Parts.numerator`, `Parts.denominator`: the magnitude as a quotient of naturals.

Powers are spelled `Nat.pow`, here and in all that runs: `^` would be the power of a monoid wherever
Mathlib is imported. `Nat.pow_eq` turns the one into the other.
-/

namespace Slideshow.Decimal

/-- A number taken apart: the finite one is `± mantissa * 2 ^ exponent`. -/
inductive Parts where
  | nan
  | infinite (negative : Bool)
  | finite (negative : Bool) (mantissa : Nat) (exponent : Int)
deriving DecidableEq, Repr

namespace Parts

/-- The parts that the 64 bits of a number stand for. -/
def ofBits (bits : Nat) : Parts :=
  let negative : Bool := bits / Nat.pow 2 63 % 2 == 1
  let biased : Nat := bits / Nat.pow 2 52 % Nat.pow 2 11
  let low : Nat := bits % Nat.pow 2 52
  if biased == 2047 then (if low == 0 then .infinite negative else .nan)
  else if biased == 0 then .finite negative low (-1074)
  else .finite negative (Nat.pow 2 52 + low) ((biased : Int) - 1075)

def ofFloat (x : Float) : Parts := ofBits x.toBits.toNat

/-- The magnitude `mantissa * 2 ^ exponent` is this over `denominator exponent`. -/
def numerator (mantissa : Nat) (exponent : Int) : Nat := mantissa * Nat.pow 2 exponent.toNat

def denominator (exponent : Int) : Nat := Nat.pow 2 (-exponent).toNat

theorem denominator_pos (exponent : Int) : 0 < denominator exponent := Nat.two_pow_pos _

end Parts

/-- The decimal digits of `n`, of zero the digit `0`. -/
def natDigits (n : Nat) : List Char := Nat.toDigits 10 n

/-- How many decimal digits `n` has; zero has none. -/
def digitCount (n : Nat) : Nat := if n = 0 then 0 else (natDigits n).length

/-- `n` zeros. -/
def zeros (n : Nat) : List Char := List.replicate n '0'

/-- `n` with at least `width` digits. -/
def padded (width n : Nat) : String :=
  String.ofList (zeros (width - (natDigits n).length) ++ natDigits n)

end Slideshow.Decimal
