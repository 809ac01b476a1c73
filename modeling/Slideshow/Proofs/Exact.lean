import Slideshow.Scalar
import Mathlib.Algebra.Order.Floor.Semiring
import Mathlib.Algebra.Order.Field.Basic

/-!
# Numbers without rounding

Lengths and positions read over an ordered field. The infinities and what is no number stay next to
the numbers of the field, so that every input of a binary floating point computation has an exact
counterpart, and arithmetic on numbers alone is that of the field.

Headlines:
* `Exact` is a `Scalar` over every ordered field with a floor.
* `number_add`, `number_mul`, …: arithmetic on numbers is that of the field.
* **`minimum_number_right`**: what is asked for, limited by a number, is a number or `-∞`.
* **`sum_numbers`**: the sum of numbers.
-/

namespace Slideshow

/-- A number of a field, an infinity, or no number. -/
inductive Exact (K : Type) where
  | number (x : K)
  | infinite (negative : Bool)
  | nan
deriving DecidableEq

namespace Exact

variable {K : Type}

/-! ## Arithmetic -/

section

variable [Field K] [LinearOrder K]

def isNegative : Exact K → Bool
  | .number x => x < 0
  | .infinite negative => negative
  | .nan => false

def isZero : Exact K → Bool
  | .number x => x = 0
  | _ => false

/-- The sum; opposite infinities have none. -/
def add : Exact K → Exact K → Exact K
  | .number x, .number y => .number (x + y)
  | .nan, _ | _, .nan => .nan
  | .infinite a, .infinite b => if a = b then .infinite a else .nan
  | .infinite a, .number _ | .number _, .infinite a => .infinite a

def neg : Exact K → Exact K
  | .number x => .number (-x)
  | .infinite negative => .infinite (!negative)
  | .nan => .nan

/-- The product; zero times an infinity is none. -/
def mul : Exact K → Exact K → Exact K
  | .number x, .number y => .number (x * y)
  | .nan, _ | _, .nan => .nan
  | a, b => if a.isZero || b.isZero then .nan else .infinite (a.isNegative != b.isNegative)

/-- The quotient; a number over zero is infinite, zero over zero is none. -/
def div : Exact K → Exact K → Exact K
  | .number x, .number y =>
    if y = 0 then (if x = 0 then .nan else .infinite (x < 0)) else .number (x / y)
  | .nan, _ | _, .nan => .nan
  | .infinite _, .infinite _ => .nan
  | .number _, .infinite _ => .number 0
  | .infinite a, .number y => .infinite (a != decide (y < 0))

/-- The order, in which what is no number has no place. -/
def less : Exact K → Exact K → Bool
  | .number x, .number y => x < y
  | .nan, _ | _, .nan => false
  | .infinite a, .infinite b => a && !b
  | .infinite a, .number _ => a
  | .number _, .infinite b => !b

variable [FloorSemiring K]

/-- The natural number nearest to `x`; a half goes to the even one. -/
def nearest (x : K) : Nat :=
  let below := ⌊x⌋₊
  let twice := 2 * (x - below)
  if twice < 1 then below
  else if 1 < twice then below + 1
  else if below % 2 == 0 then below else below + 1

/-- At most four decimal places. -/
def numeral : Exact K → List Char
  | .number x =>
    Decimal.trimPlaces
      ((if x < 0 then ['-'] else []) ++ Decimal.placed 4 (nearest (|x| * 10 ^ 4)))
  | .infinite negative => if negative then ['-', 'i', 'n', 'f'] else ['i', 'n', 'f']
  | .nan => ['N', 'a', 'N']

instance : Scalar (Exact K) where
  add := add
  sub x y := x.add y.neg
  mul := mul
  div := div
  neg := neg
  ofNat n := .number n
  infinite := .infinite false
  less := less
  isNaN x := match x with
    | .nan => true
    | _ => false
  isFinite x := match x with
    | .number _ => true
    | _ => false
  ceiling x := match x with
    | .number x => min ⌈x⌉₊ (2 ^ 32)
    | .infinite negative => if negative then 0 else 2 ^ 32
    | .nan => 0
  numeral := numeral
  displayed x := String.ofList x.numeral

end

/-! ## Numbers -/

/-- The numbers of a field among the exact ones. -/
def number? : Exact K → Option K
  | .number x => some x
  | _ => none

section

variable [Field K] [LinearOrder K] [FloorSemiring K] (x y : K)

@[simp] theorem number_add : number x + number y = number (x + y) := rfl

@[simp] theorem number_sub : number x - number y = number (x - y) :=
  congrArg number (sub_eq_add_neg x y).symm

@[simp] theorem number_mul : number x * number y = number (x * y) := rfl

@[simp] theorem number_neg : -number x = number (-x) := rfl

theorem number_div {y : K} (h : y ≠ 0) : number x / number y = number (x / y) := if_neg h

@[simp] theorem ofNat_eq (n : Nat) : (Scalar.ofNat n : Exact K) = number (n : K) := rfl

@[simp] theorem less_number : Scalar.less (number x) (number y) = decide (x < y) := rfl

@[simp] theorem isNaN_number : Scalar.isNaN (number x) = false := rfl

@[simp] theorem isFinite_number : Scalar.isFinite (number x) = true := rfl

@[simp] theorem zero_eq : (Scalar.zero : Exact K) = number 0 := congrArg number Nat.cast_zero

@[simp] theorem one_eq : (Scalar.one : Exact K) = number 1 := congrArg number Nat.cast_one

@[simp] theorem two_eq : (Scalar.two : Exact K) = number 2 := congrArg number (Nat.cast_ofNat)

theorem isAbove_number : Scalar.isAbove (number x) = decide (0 < x) := by
  rw [Scalar.isAbove, zero_eq, less_number]

theorem isPositive_number : Scalar.isPositive (number x) = decide (0 < x) := by
  rw [Scalar.isPositive, isFinite_number, isAbove_number, Bool.true_and]

theorem minimum_number : Scalar.minimum (number x) (number y) = number (min x y) := by
  simp only [Scalar.minimum, isNaN_number, less_number, Bool.false_eq_true, if_false,
    decide_eq_true_eq]
  by_cases h : y < x
  · rw [if_pos h, min_eq_right h.le]
  · rw [if_neg h, min_eq_left (not_lt.mp h)]

theorem maximum_number : Scalar.maximum (number x) (number y) = number (max x y) := by
  simp only [Scalar.maximum, isNaN_number, less_number, Bool.false_eq_true, if_false,
    decide_eq_true_eq]
  by_cases h : x < y
  · rw [if_pos h, max_eq_right h.le]
  · rw [if_neg h, max_eq_left (not_lt.mp h)]

/-- **What is asked for, limited by a number, is a number no greater, or `-∞`.** -/
theorem minimum_number_right (asked : Exact K) :
    (∃ z ≤ x, Scalar.minimum asked (number x) = number z) ∨
      Scalar.minimum asked (number x) = infinite true := by
  cases asked with
  | number y => exact Or.inl ⟨min y x, min_le_right y x, minimum_number y x⟩
  | infinite negative =>
    cases negative with
    | true => exact Or.inr rfl
    | false => exact Or.inl ⟨x, le_rfl, rfl⟩
  | nan => exact Or.inl ⟨x, le_rfl, rfl⟩

theorem clamp_number {low high : K} (h : low ≤ high) :
    ∃ z, low ≤ z ∧ z ≤ high ∧
      Scalar.clamp (number x) (number low) (number high) = number z := by
  unfold Scalar.clamp
  simp only [less_number, decide_eq_true_eq]
  by_cases hlow : x < low
  · exact ⟨low, le_rfl, h, if_pos hlow⟩
  · rw [if_neg hlow]
    by_cases hhigh : high < x
    · exact ⟨high, h, le_rfl, if_pos hhigh⟩
    · exact ⟨x, not_lt.mp hlow, not_lt.mp hhigh, if_neg hhigh⟩

theorem clamp_of_mem {x low high : K} (h : low ≤ x) (h' : x ≤ high) :
    Scalar.clamp (number x) (number low) (number high) = number x := by
  rw [Scalar.clamp, less_number, less_number, if_neg (by simpa using h),
    if_neg (by simpa using h')]

theorem foldl_add_numbers : ∀ (xs : List K) (start : K),
    (xs.map number).foldl (· + ·) (number start) = number (start + xs.sum)
  | [], start => by rw [List.sum_nil, add_zero]; rfl
  | x :: xs, start => by
    rw [List.map_cons, List.foldl_cons, number_add, foldl_add_numbers xs, List.sum_cons, add_assoc]

/-- **The sum of numbers.** -/
theorem sum_numbers (xs : List K) : Scalar.sum (xs.map number) = number xs.sum := by
  rw [Scalar.sum, zero_eq, number_neg, foldl_add_numbers, neg_zero, zero_add]

/-- The least of several numbers is a number, and none of them is less. -/
theorem foldl_minimum_numbers : ∀ (xs : List K) (first : K),
    ∃ least, (xs.map number).foldl Scalar.minimum (number first) = number least ∧
      least ≤ first ∧ ∀ x ∈ xs, least ≤ x
  | [], first => ⟨first, rfl, le_rfl, fun _ h => absurd h List.not_mem_nil⟩
  | x :: xs, first => by
    obtain ⟨least, he, hfirst, hrest⟩ := foldl_minimum_numbers xs (min first x)
    refine ⟨least, ?_, hfirst.trans (min_le_left first x), fun y hy => ?_⟩
    · rw [List.map_cons, List.foldl_cons, minimum_number, he]
    · rcases List.mem_cons.mp hy with rfl | hy
      · exact hfirst.trans (min_le_right first y)
      · exact hrest y hy

end

/-! ## Numbers and what is none -/

section

variable [Field K] [LinearOrder K] [FloorSemiring K] [IsStrictOrderedRing K]

/-- Half of a number less half of anything. -/
theorem sub_div_two (x : K) (V : Exact K) :
    number x / Scalar.two - V / Scalar.two = (number x - V) / Scalar.two := by
  have h2 : (2 : K) ≠ 0 := two_ne_zero
  rw [two_eq, number_div x h2]
  cases V with
  | number v => rw [number_div v h2, number_sub, number_sub, number_div _ h2, sub_div]
  | infinite negative =>
    have hdiv : ∀ b : Bool, (infinite b : Exact K) / number 2 = infinite b := fun b => by
      have h : decide ((2 : K) < 0) = false := by simp
      show infinite (b != decide ((2 : K) < 0)) = infinite b
      rw [h, Bool.bne_false]
    show number (x / 2) - infinite negative / number 2 = infinite (!negative) / number 2
    rw [hdiv, hdiv]
    rfl
  | nan => rfl

/-- What is taken several times and divided is taken a quotient of times. -/
theorem mul_div_number (X : Exact K) {k l : K} (hk : 0 ≤ k) (hl : 0 < l) :
    X * number k / number l = X * number (k / l) := by
  cases X with
  | number x => rw [number_mul, number_mul, number_div _ hl.ne', mul_div_assoc]
  | nan => rfl
  | infinite negative =>
    show Exact.div (Exact.mul (.infinite negative) (.number k)) (.number l) =
      Exact.mul (.infinite negative) (.number (k / l))
    rcases hk.eq_or_lt with rfl | hk
    · simp [mul, isZero, div]
    · have hquotient := div_pos hk hl
      simp [mul, isZero, div, isNegative, hk.ne', hl.ne', hl.not_gt, hk.not_gt,
        hquotient.not_gt]

end

end Exact

end Slideshow
