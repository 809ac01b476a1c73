import Slideshow.Decimal.Binary

/-!
# Decimals with a fixed number of places

The exact value of a number, rounded to a number of decimal places; a half goes to the even
neighbour.

* `roundQuotient` rounds a quotient of naturals; `roundQuotient_near`: it is at most half a unit
  off.
* `fixed` writes a number with exactly so many places.
* `numeral` writes at most four places: no trailing zero, no trailing point, no signed zero.
-/

namespace Slideshow.Decimal

/-- The natural number nearest to `num / den`; a half goes to the even one. -/
def roundQuotient (num den : Nat) : Nat :=
  let below := num / den
  let twice := 2 * (num % den)
  if twice < den then below
  else if den < twice then below + 1
  else if below % 2 == 0 then below else below + 1

/-- The rounded quotient is at most half a unit away. -/
theorem roundQuotient_near (num : Nat) {den : Nat} (h : 0 < den) :
    2 * (roundQuotient num den * den) ≤ 2 * num + den ∧
      2 * num ≤ 2 * (roundQuotient num den * den) + den := by
  have hdiv := Nat.div_add_mod num den
  have hmod := Nat.mod_lt num h
  have hcomm : num / den * den = den * (num / den) := Nat.mul_comm _ _
  have hsucc : (num / den + 1) * den = den * (num / den) + den := by
    rw [Nat.add_mul, Nat.one_mul, Nat.mul_comm]
  simp only [roundQuotient]
  split
  · omega
  · split
    · omega
    · split <;> omega

/-- The magnitude `mantissa * 2 ^ exponent` in units of `10 ^ -places`, rounded. -/
def units (places mantissa : Nat) (exponent : Int) : Nat :=
  roundQuotient (Parts.numerator mantissa exponent * Nat.pow 10 places) (Parts.denominator exponent)

/-- A count of units of `10 ^ -places`, with all its places. -/
def placed (places count : Nat) : List Char :=
  let fraction := natDigits (count % Nat.pow 10 places)
  natDigits (count / Nat.pow 10 places) ++
    (if places = 0 then [] else '.' :: zeros (places - fraction.length) ++ fraction)

/-- A number with exactly `places` decimal places. -/
def fixedChars (places : Nat) (x : Float) : List Char :=
  match Parts.ofFloat x with
  | .nan => ['N', 'a', 'N']
  | .infinite negative => if negative then ['-', 'i', 'n', 'f'] else ['i', 'n', 'f']
  | .finite negative mantissa exponent =>
    (if negative then ['-'] else []) ++ placed places (units places mantissa exponent)

def fixed (places : Nat) (x : Float) : String := String.ofList (fixedChars places x)

/-- Drops trailing zeros and then a trailing point; a negative zero loses its sign. -/
def trimPlaces (cs : List Char) : List Char :=
  let short := ((cs.reverse.dropWhile (· == '0')).dropWhile (· == '.')).reverse
  if short == ['-', '0'] then ['0'] else short

/-- A number as filters write it: at most four decimal places. -/
def numeralChars (x : Float) : List Char := trimPlaces (fixedChars 4 x)

def numeral (x : Float) : String := String.ofList (numeralChars x)

end Slideshow.Decimal
