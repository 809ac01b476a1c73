import Slideshow.Decimal.Fixed
import Slideshow.Decimal.Shortest

/-!
# Scalars

The arithmetic of lengths and positions. Timelines, motions and graphs are computed over any
scalars, so that the same definitions run on binary floating point numbers and can be read over
exact ones.

* `Scalar` has the operations, comparisons and texts of a kind of number.
* `minimum`, `maximum`, `clamp` and `sum` are built from them; the smaller and the larger of a
  number and something that is none are the number.
-/

namespace Slideshow

/-- A kind of number. -/
class Scalar (α : Type) extends Add α, Sub α, Mul α, Div α, Neg α where
  ofNat : Nat → α
  /-- What no number exceeds. -/
  infinite : α
  /-- Whether the first is less than the second. -/
  less : α → α → Bool
  isNaN : α → Bool
  isFinite : α → Bool
  /-- The least natural number that is not below, or `2 ^ 32` when that is less. -/
  ceiling : α → Nat
  /-- The text inside filters: at most four decimal places. -/
  numeral : α → List Char
  /-- The text inside messages. -/
  displayed : α → String

/-- Scalars with the circle number, sine and cosine. -/
class Trigonometric (α : Type) extends Scalar α where
  pi : α
  sin : α → α
  cos : α → α

/-- The least natural number that is not below `± mantissa * 2 ^ exponent`, or `2 ^ 32`. -/
def ceilingOfParts : Decimal.Parts → Nat
  | .nan => 0
  | .infinite negative => if negative then 0 else Nat.pow 2 32
  | .finite negative mantissa exponent =>
    if negative then 0
    else
      let num := Decimal.Parts.numerator mantissa exponent
      let den := Decimal.Parts.denominator exponent
      min ((num + den - 1) / den) (Nat.pow 2 32)

instance : Scalar Float where
  ofNat := Float.ofNat
  infinite := 1.0 / 0.0
  less x y := x < y
  isNaN := Float.isNaN
  isFinite := Float.isFinite
  ceiling x := ceilingOfParts (.ofFloat x)
  numeral := Decimal.numeralChars
  displayed := Decimal.displayed

instance : Trigonometric Float where
  pi := 3.141592653589793
  sin := Float.sin
  cos := Float.cos

namespace Scalar

variable {α : Type} [Scalar α]

def zero : α := ofNat 0

def one : α := ofNat 1

def two : α := ofNat 2

/-- The smaller of two numbers. -/
def minimum (a b : α) : α :=
  if isNaN a then b else if isNaN b then a else if less b a then b else a

/-- The larger of two numbers. -/
def maximum (a b : α) : α :=
  if isNaN a then b else if isNaN b then a else if less a b then b else a

/-- `x` moved between `low` and `high`; what is no number stays as it is. -/
def clamp (x low high : α) : α :=
  if less x low then low else if less high x then high else x

/-- The sum from the left, starting at the negative zero, which adding does not change anything. -/
def sum (xs : List α) : α := xs.foldl (· + ·) (-zero)

/-- Whether a number is above zero. -/
def isAbove (x : α) : Bool := less zero x

/-- Whether a number is finite and above zero, as a length of time has to be. -/
def isPositive (x : α) : Bool := isFinite x && isAbove x

end Scalar

end Slideshow
