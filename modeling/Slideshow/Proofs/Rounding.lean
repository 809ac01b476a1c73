import Slideshow.Decimal.Shortest
import Slideshow.Proofs.Binary
import Mathlib.Algebra.Order.Field.Power
import Mathlib.Algebra.Order.Ring.Abs
import Mathlib.Tactic.Linarith
import Mathlib.Tactic.NormNum

/-!
# Rounding to the nearest number

A binary floating point number is a mantissa of at most 53 bits and a power of two. `Nearest` says,
without any algorithm, which of these a real number is rounded to; it is decided by the distances to
the neighbours.

* `Canonical` are the mantissas and exponents that numbers have: 53 bits, or the least exponent.
* `Canonical.gap`: between a number and its neighbours there is no other one.
* `Interval.holds_iff` reads the intervals of the shortest decimals over the rationals.

Headlines:
* **`nearest_of_holds`**: what lies in the interval around a number is rounded to this number.
* **`Nearest.unique`**: nothing is rounded to two numbers.
* **`isRounded_fixed`**: a number with a fixed number of places is at most half a unit off.
-/

namespace Slideshow.Decimal

/-! ## Mantissas and exponents -/

/-- The magnitude that a mantissa and an exponent stand for. -/
def magnitude (m : ℕ) (e : ℤ) : ℚ := m * 2 ^ e

/-- A mantissa has 53 bits, or the exponent is the least one. -/
structure Canonical (m : ℕ) (e : ℤ) : Prop where
  mantissa : m < 2 ^ 53
  exponent : -1074 ≤ e
  full : -1074 < e → 2 ^ 52 ≤ m

theorem canonical_of_ofBits {n : ℕ} {negative : Bool} {m : ℕ} {e : ℤ}
    (h : Parts.ofBits n = .finite negative m e) :
    Canonical m e := by
  simp only [Parts.ofBits] at h
  split at h
  · split at h <;> cases h
  · split at h
    all_goals
      simp only [Parts.finite.injEq] at h
      obtain ⟨-, rfl, rfl⟩ := h
      constructor <;> simp_all <;> omega

theorem canonical_of_ofFloat {x : Float} {negative : Bool} {m : ℕ} {e : ℤ}
    (h : Parts.ofFloat x = .finite negative m e) :
    Canonical m e :=
  canonical_of_ofBits h

/-! ## Magnitudes -/

section
variable {m n : ℕ} {e f : ℤ}

/-- A power with a negative exponent is a fraction. -/
theorem zpow_eq_div {b : ℚ} (hb : b ≠ 0) (k : ℤ) : b ^ k = b ^ k.toNat / b ^ (-k).toNat := by
  rw [← zpow_natCast, ← zpow_natCast, ← zpow_sub₀ hb]
  congr 1
  omega

/-- The numerator and the denominator of a number. -/
theorem numerator_div_denominator (m : ℕ) (e : ℤ) :
    (Parts.numerator m e : ℚ) / Parts.denominator e = magnitude m e := by
  rw [Parts.numerator, Parts.denominator, Nat.pow_eq, Nat.pow_eq, magnitude,
    zpow_eq_div two_ne_zero]
  push_cast
  rw [mul_div_assoc]

/-- A number is a multiple of every smaller power of two. -/
theorem magnitude_of_le (m : ℕ) (h : f ≤ e) :
    magnitude m e = magnitude (m * 2 ^ (e - f).toNat) f := by
  have hpow : (2 : ℚ) ^ e = 2 ^ (e - f).toNat * 2 ^ f := by
    rw [← zpow_natCast, Int.toNat_of_nonneg (by omega), ← zpow_add₀ two_ne_zero, Int.sub_add_cancel]
  rw [magnitude, magnitude, hpow]
  push_cast
  rw [mul_assoc]

theorem magnitude_succ (m : ℕ) (e : ℤ) : magnitude (m + 1) e = magnitude m e + 2 ^ e := by
  rw [magnitude, magnitude, Nat.cast_succ, add_one_mul]

theorem magnitude_le_magnitude : magnitude m e ≤ magnitude n e ↔ m ≤ n := by
  rw [magnitude, magnitude, mul_le_mul_iff_left₀ (zpow_pos two_pos e), Nat.cast_le]

theorem magnitude_inj : magnitude m e = magnitude n e ↔ m = n := by
  rw [le_antisymm_iff, magnitude_le_magnitude, magnitude_le_magnitude, ← le_antisymm_iff]

/-- A mantissa with 53 bits is not reached with a smaller exponent. -/
theorem magnitude_lt_of_lt (hm : 2 ^ 52 ≤ m) (hn : n < 2 ^ 53) (h : f < e) :
    magnitude n f < magnitude m e := by
  rw [magnitude_of_le m h.le, ← not_le, magnitude_le_magnitude, not_le]
  have hpow : 2 ^ 1 ≤ 2 ^ (e - f).toNat := Nat.pow_le_pow_right (by decide) (by omega)
  have hmul := Nat.mul_le_mul hm hpow
  omega

/-- **The mantissa and the exponent of a number are determined by it.** -/
theorem Canonical.inj (h : Canonical m e) (h' : Canonical n f)
    (heq : magnitude m e = magnitude n f) : m = n ∧ e = f := by
  have hexponent : e = f := by
    rcases lt_trichotomy e f with hlt | heq' | hlt
    · have hfull := h'.full (lt_of_le_of_lt h.exponent hlt)
      exact absurd heq (magnitude_lt_of_lt hfull h.mantissa hlt).ne
    · exact heq'
    · have hfull := h.full (lt_of_le_of_lt h'.exponent hlt)
      exact absurd heq (magnitude_lt_of_lt hfull h'.mantissa hlt).ne'
  subst hexponent
  exact ⟨magnitude_inj.mp heq, rfl⟩

/-! ## Neighbours -/

/-- How far the next smaller number is: half as far below a power of two. -/
def spacing (m : ℕ) (e : ℤ) : ℚ := (if m == 2 ^ 52 && e > -1074 then 1 else 2) * 2 ^ (e - 1)

theorem two_zpow_eq (e : ℤ) : (2 : ℚ) ^ e = 2 * 2 ^ (e - 1) := by
  rw [← zpow_one_add₀ two_ne_zero, add_sub_cancel]

theorem spacing_pos (m : ℕ) (e : ℤ) : 0 < spacing m e := by
  unfold spacing
  split <;> positivity

theorem spacing_le (m : ℕ) (e : ℤ) : spacing m e ≤ 2 ^ e := by
  have hpos : (0 : ℚ) < 2 ^ (e - 1) := by positivity
  rw [spacing, two_zpow_eq e]
  split <;> linarith

/-- With a smaller exponent, a number is at most the next smaller one. -/
theorem Canonical.le_of_lt (h : Canonical m e) (hn : n < 2 ^ 53) (hf : -1074 ≤ f) (hlt : f < e) :
    magnitude n f ≤ magnitude m e - spacing m e := by
  have hhalf : magnitude n f ≤ magnitude (2 ^ 53 - 1) (e - 1) := by
    rcases lt_or_eq_of_le (Int.le_sub_one_of_lt hlt) with hlt' | rfl
    · exact (magnitude_lt_of_lt (by decide) hn hlt').le
    · exact magnitude_le_magnitude.mpr (by omega)
  have hfull : 2 ^ 52 ≤ m := h.full (by omega)
  have hpos : (0 : ℚ) < 2 ^ (e - 1) := by positivity
  refine hhalf.trans ?_
  rw [magnitude, magnitude, spacing, two_zpow_eq e]
  split
  · next hpower =>
    rw [eq_of_beq (Bool.and_eq_true_iff.mp hpower).1]
    push_cast
    linarith
  · next hpower =>
    have hne : m ≠ 2 ^ 52 := fun hm => hpower (by simp [hm]; omega)
    have hmantissa : (2 ^ 52 + 1 : ℚ) ≤ m := by exact_mod_cast (show 2 ^ 52 + 1 ≤ m by omega)
    push_cast
    nlinarith

/-- **Between a number and its neighbours there is no other one.** -/
theorem Canonical.gap (h : Canonical m e) (hn : n < 2 ^ 53) (hf : -1074 ≤ f)
    (hne : magnitude n f ≠ magnitude m e) :
    magnitude n f ≤ magnitude m e - spacing m e ∨ magnitude m e + 2 ^ e ≤ magnitude n f := by
  rcases lt_or_ge f e with hlt | hge
  · exact .inl (h.le_of_lt hn hf hlt)
  · -- another multiple of the same power of two
    rw [magnitude_of_le n hge] at hne ⊢
    generalize n * 2 ^ (f - e).toNat = k at hne ⊢
    rcases lt_or_gt_of_ne (fun hk => hne (magnitude_inj.mpr hk) : k ≠ m) with hlt | hgt
    · left
      have hstep := spacing_le m e
      have hle : magnitude (k + 1) e ≤ magnitude m e := magnitude_le_magnitude.mpr hlt
      rw [magnitude_succ] at hle
      linarith
    · right
      rw [← magnitude_succ]
      exact magnitude_le_magnitude.mpr hgt

/-! ## The nearest number -/

/-- A number is rounded to a mantissa and an exponent: no other number is nearer, be it too large to
be one, and if one is as near, the mantissa is even. -/
def Nearest (q : ℚ) (m : ℕ) (e : ℤ) : Prop :=
  ∀ n f, n < 2 ^ 53 → -1074 ≤ f → magnitude n f ≠ magnitude m e →
    |q - magnitude m e| < |q - magnitude n f| ∨ |q - magnitude m e| = |q - magnitude n f| ∧
      m % 2 = 0

theorem nearest_self (m : ℕ) (e : ℤ) : Nearest (magnitude m e) m e := fun n f _ _ hne => by
  left
  rw [sub_self, abs_zero, abs_pos, sub_ne_zero]
  exact hne.symm

/-- What is at most half-way to something is nearer to where one comes from, unless it is
half-way. -/
theorem nearer_of_le {q x y d : ℚ} (hd : 0 < d) (hq : q ≤ x + d / 2) (hy : x + d ≤ y) :
    |q - x| < |q - y| ∨ |q - x| = |q - y| ∧ q = x + d / 2 := by
  have hfar : |q - y| = y - q := by
    rw [abs_sub_comm]
    exact abs_of_nonneg (by linarith)
  rcases hq.eq_or_lt with heq | hlt
  · have hnear : |q - x| = q - x := abs_of_nonneg (by linarith)
    rw [hfar, hnear]
    exact (show q - x ≤ y - q by linarith).lt_or_eq.imp_right fun h => ⟨h, heq⟩
  · left
    rw [hfar, abs_lt]
    constructor <;> linarith

/-- Up to half-way to the neighbours everything is rounded to a number, and what is half-way if the
mantissa is even. -/
theorem Canonical.nearest (h : Canonical m e) {q : ℚ} (hlow : magnitude m e - spacing m e / 2 ≤ q)
    (hhigh : q ≤ magnitude m e + 2 ^ e / 2)
    (heven : q = magnitude m e - spacing m e / 2 ∨ q = magnitude m e + 2 ^ e / 2 → m % 2 = 0) :
    Nearest q m e := by
  intro n f hn hf hne
  rcases h.gap hn hf hne with hbelow | habove
  · -- the smaller numbers are the larger ones seen from the other side
    have hmirror :=
      @nearer_of_le (-q) (-magnitude m e) (-magnitude n f) (spacing m e) (spacing_pos m e)
        (by linarith)
      (by linarith)
    rw [neg_sub_neg, neg_sub_neg, abs_sub_comm, abs_sub_comm (magnitude n f)] at hmirror
    exact hmirror.imp_right fun ⟨heq, hhalf⟩ => ⟨heq, heven (.inl (by linarith))⟩
  · exact (nearer_of_le (by positivity) hhigh habove).imp_right fun ⟨heq, hhalf⟩ =>
      ⟨heq, heven (.inr hhalf)⟩

/-- Of two numbers to which the same is rounded, neither is the larger one. -/
theorem Nearest.magnitude_le {q : ℚ} (hm : Canonical m e) (hn : Canonical n f) (h : Nearest q m e)
    (h' : Nearest q n f) :
    magnitude n f ≤ magnitude m e := by
  by_contra hle
  have hlt : magnitude m e < magnitude n f := not_le.mp hle
  have htie : |q - magnitude m e| = |q - magnitude n f| ∧ m % 2 = 0 ∧ n % 2 = 0 := by
    rcases h n f hn.mantissa hn.exponent hlt.ne' with hless | ⟨heq, heven⟩ <;>
      rcases h' m e hm.mantissa hm.exponent hlt.ne with hless' | ⟨heq', heven'⟩
    · exact absurd hless' hless.not_gt
    · exact absurd heq' hless.ne'
    · exact absurd heq hless'.ne'
    · exact ⟨heq, heven, heven'⟩
  obtain ⟨heq, heven, heven'⟩ := htie
  -- half-way between them, so that the next larger number is nearer than the first or is the second
  have hmiddle : q - magnitude m e = magnitude n f - q := by
    rcases abs_eq_abs.mp heq with h | h <;> linarith
  have hmantissa := hm.mantissa
  have hnext : m + 1 < 2 ^ 53 := by omega
  have hspacing := spacing_pos m e
  have habove := (hm.gap hn.mantissa hn.exponent hlt.ne').resolve_left (by linarith)
  rw [← magnitude_succ] at habove
  rcases habove.lt_or_eq with hbetween | hsecond
  · have hpower : magnitude m e < magnitude (m + 1) e := by
      rw [magnitude_succ]
      exact lt_add_of_pos_right _ (zpow_pos two_pos e)
    have hnearer : |q - magnitude (m + 1) e| < |q - magnitude m e| := by
      rw [abs_of_nonneg (by linarith : 0 ≤ q - magnitude m e), abs_lt]
      constructor <;> linarith
    rcases h (m + 1) e hnext hm.exponent hpower.ne' with hless | ⟨heq', -⟩
    · exact absurd hless hnearer.not_gt
    · exact absurd heq' hnearer.ne'
  · obtain ⟨hsucc, -⟩ :=
      Canonical.inj ⟨hnext, hm.exponent, fun he => (hm.full he).trans m.le_succ⟩ hn hsecond
    omega

/-- **Nothing is rounded to two numbers.** -/
theorem Nearest.unique {q : ℚ} (hm : Canonical m e) (hn : Canonical n f) (h : Nearest q m e)
    (h' : Nearest q n f) :
    m = n ∧ e = f :=
  hm.inj hn (le_antisymm (h'.magnitude_le hn hm h) (h.magnitude_le hm hn h'))

/-! ## Intervals -/

/-- A quotient lies in an interval if it is between the ends. -/
theorem Interval.holds_iff {i : Interval} (hi : 0 < i.den) (num : ℕ) {d : ℕ} (hd : 0 < d) :
    i.holds num d = true ↔
      if i.closed then (i.low / i.den : ℚ) ≤ num / d ∧ (num / d : ℚ) ≤ i.high / i.den
      else (i.low / i.den : ℚ) < num / d ∧ (num / d : ℚ) < i.high / i.den := by
  have hi' : (0 : ℚ) < i.den := by exact_mod_cast hi
  have hd' : (0 : ℚ) < d := by exact_mod_cast hd
  rw [div_le_div_iff₀ hi' hd', div_le_div_iff₀ hd' hi', div_lt_div_iff₀ hi' hd',
    div_lt_div_iff₀ hd' hi']
  unfold holds
  split <;> simp only [Bool.and_eq_true, decide_eq_true_eq] <;> norm_cast

/-- The ends of the interval around a number are counted in quarters of its last bit. -/
theorem quarters_div (k : ℕ) (e : ℤ) :
    ((k * Parts.numerator 1 (e - 2) : ℕ) / Parts.denominator (e - 2) : ℚ) = k * 2 ^ e / 4 := by
  have hscale := numerator_div_denominator 1 (e - 2)
  rw [magnitude, Nat.cast_one, one_mul] at hscale
  rw [Nat.cast_mul, mul_div_assoc, hscale, two_zpow_eq e, two_zpow_eq (e - 1),
    show e - 1 - 1 = e - 2 by omega]
  ring

theorem around_low (hm : 0 < m) (e : ℤ) :
    ((Interval.around m e).low / (Interval.around m e).den : ℚ) =
        magnitude m e - spacing m e / 2 := by
  refine (quarters_div _ e).trans ?_
  simp only [magnitude, spacing, two_zpow_eq e, Nat.pow_eq]
  split
  all_goals
    rw [Nat.cast_sub (by omega)]
    push_cast
    ring

theorem around_value (m : ℕ) (e : ℤ) :
    ((Interval.around m e).value / (Interval.around m e).den : ℚ) = magnitude m e := by
  refine (quarters_div _ e).trans ?_
  rw [magnitude]
  push_cast
  ring

theorem around_high (m : ℕ) (e : ℤ) :
    ((Interval.around m e).high / (Interval.around m e).den : ℚ) = magnitude m e + 2 ^ e / 2 := by
  refine (quarters_div _ e).trans ?_
  rw [magnitude]
  push_cast
  ring

theorem around_den_pos (m : ℕ) (e : ℤ) : 0 < (Interval.around m e).den := Parts.denominator_pos _

/-- **What lies in the interval around a number is rounded to this number.** -/
theorem nearest_of_holds (hm : 0 < m) (h : Canonical m e) {num d : ℕ} (hd : 0 < d)
    (hholds : (Interval.around m e).holds num d = true) : Nearest (num / d) m e := by
  rw [Interval.holds_iff (around_den_pos m e) num hd, around_low hm, around_high] at hholds
  split at hholds
  · next hclosed => exact h.nearest hholds.1 hholds.2 fun _ => eq_of_beq hclosed
  · refine h.nearest hholds.1.le hholds.2.le ?_
    rintro (heq | heq)
    · exact absurd heq hholds.1.ne'
    · exact absurd heq hholds.2.ne

end

/-! ## Decimals with a fixed number of places -/

/-- A decimal of so many places that is at most half a unit of the last place away from a finite
number. -/
def IsRounded (places : ℕ) (x : Float) (cs : List Char) : Prop :=
  ∃ negative m e whole fraction, Parts.ofFloat x = .finite negative m e ∧
    cs = (if negative then ['-'] else []) ++ (whole ++ '.' :: fraction) ∧
    whole ≠ [] ∧ (∀ c ∈ whole ++ fraction, isDigit c = true) ∧ fraction.length = places ∧
    |(natOfDigits (whole ++ fraction) : ℚ) / 10 ^ places - magnitude m e| ≤ 1 / 10 ^ places / 2

/-- A count of units is written with all its places. -/
theorem placed_digits {places : ℕ} (hplaces : 0 < places) (count : ℕ) : ∃ whole fraction,
    placed places count = whole ++ '.' :: fraction ∧ whole ≠ [] ∧
      (∀ c ∈ whole ++ fraction, isDigit c = true) ∧
      fraction.length = places ∧ natOfDigits (whole ++ fraction) = count := by
  have hless : count % 10 ^ places < 10 ^ places := Nat.mod_lt _ (by positivity)
  refine ⟨natDigits (count / 10 ^ places), (padded places (count % 10 ^ places)).toList, ?_,
    natDigits_ne_nil _, ?_, length_padded hplaces hless, ?_⟩
  · rw [placed, if_neg hplaces.ne', Nat.pow_eq, padded, String.toList_ofList, List.cons_append]
  · exact List.forall_mem_append.mpr
      ⟨fun _ => isDigit_of_mem_natDigits, fun _ => isDigit_of_mem_padded⟩
  · rw [natOfDigits_append, length_padded hplaces hless, natOfDigits_natDigits, natOfDigits_padded]
    exact Nat.div_add_mod' count (10 ^ places)

/-- A number in units is at most half a unit off. -/
theorem units_near (places m : ℕ) (e : ℤ) :
    |(units places m e : ℚ) / 10 ^ places - magnitude m e| ≤ 1 / 10 ^ places / 2 := by
  have hden := Parts.denominator_pos e
  obtain ⟨hlow, hhigh⟩ := roundQuotient_near (Parts.numerator m e * Nat.pow 10 places) hden
  have hP : (0 : ℚ) < 10 ^ places := by positivity
  have hD : (0 : ℚ) < Parts.denominator e := by exact_mod_cast hden
  -- both sides in units of the smaller fraction
  have hdifference : (units places m e : ℚ) / 10 ^ places - magnitude m e =
      (units places m e * Parts.denominator e - Parts.numerator m e * 10 ^ places) /
          (10 ^ places * Parts.denominator e) := by
    rw [← numerator_div_denominator, div_sub_div _ _ hP.ne' hD.ne',
      mul_comm (10 ^ places) (Parts.numerator m e : ℚ)]
  have hbound : (1 : ℚ) / 10 ^ places / 2 =
      Parts.denominator e / 2 / (10 ^ places * Parts.denominator e) := by
    field_simp
  rw [hdifference, hbound, abs_div, abs_of_pos (mul_pos hP hD)]
  refine div_le_div_of_nonneg_right (abs_le.mpr ⟨?_, ?_⟩) (mul_pos hP hD).le
  · have hcast : (2 * (Parts.numerator m e * 10 ^ places) : ℚ) ≤
        2 * (units places m e * Parts.denominator e) + Parts.denominator e := by
      exact_mod_cast hhigh
    linarith
  · have hcast : (2 * (units places m e * Parts.denominator e) : ℚ) ≤
        2 * (Parts.numerator m e * 10 ^ places) + Parts.denominator e := by
      exact_mod_cast hlow
    linarith

/-- **A finite number is written rounded** to the places that it gets. -/
theorem isRounded_fixed {places : ℕ} (hplaces : 0 < places) {x : Float}
    (h : Scalar.isFinite x = true) :
    IsRounded places x (fixed places x).toList := by
  obtain ⟨negative, m, e, hx⟩ := ofFloat_of_isFinite h
  obtain ⟨whole, fraction, htext, hne, hdigits, hlength, hvalue⟩ :=
    placed_digits hplaces (units places m e)
  refine ⟨negative, m, e, whole, fraction, hx, ?_, hne, hdigits, hlength, ?_⟩
  · rw [← htext, fixed, String.toList_ofList, fixedChars, hx]
  · rw [hvalue]
    exact units_near places m e

end Slideshow.Decimal
