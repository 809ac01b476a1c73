import Slideshow.Proofs.Rounding
import Mathlib.Data.Nat.Cast.Order.Field

/-!
# Shortest decimals are rounded to their numbers

With seventeen digits the multiples of a power of ten lie so close that one of them is in the
interval around a number. So the search for the fewest digits ends, and what it finds is rounded to
the number.

* `Significand.value` is what digits with a point stand for, `Significand.Proper` says that they
  begin with no zero.
* `Interval.onGrid_isSome`: a grid that is finer than an interval is wide has a point inside.
* `Interval.le_value`: the position of the point is not too high.

Headline:
* **`nearest_shortest`**: the shortest decimal is rounded to its number.
-/

namespace Slideshow.Decimal

/-! ## Digits -/

/-- The number that digits with a point stand for. -/
def Significand.value (d : Significand) : ℚ :=
  natOfDigits d.digits * 10 ^ (d.point - d.digits.length)

/-- Digits that do not begin with a zero. -/
structure Significand.Proper (d : Significand) : Prop where
  digits : ∀ c ∈ d.digits, isDigit c = true
  head : ∃ c r, d.digits = c :: r ∧ c ≠ '0'

/-- A count without the zeros at its end. -/
theorem exists_significant (count : ℕ) :
    ∃ k, natDigits count = significant (natDigits count) ++ zeros k ∧
    natOfDigits (significant (natDigits count)) * 10 ^ k = count := by
  obtain ⟨k, hk⟩ := significant_append_zeros (natDigits count)
  refine ⟨k, hk, ?_⟩
  rw [← natOfDigits_append_zeros, ← hk, natOfDigits_natDigits]

theorem Significand.ofCount_proper {count : ℕ} (h : 0 < count) (unit : ℤ) :
    (ofCount count unit).Proper := by
  obtain ⟨k, hk, hcount⟩ := exists_significant count
  refine ⟨fun c hc => isDigit_of_mem_natDigits (mem_of_mem_significant hc), ?_⟩
  show ∃ c r, significant (natDigits count) = c :: r ∧ c ≠ '0'
  cases hs : significant (natDigits count) with
  | nil =>
    rw [hs] at hcount
    exact absurd hcount.symm (by simpa [natOfDigits] using h.ne')
  | cons c r =>
    refine ⟨c, r, rfl, ?_⟩
    rintro rfl
    rw [hs, List.cons_append] at hk
    cases hrest : r ++ zeros k with
    | nil =>
      have hvalue := natOfDigits_natDigits count
      rw [hk, hrest] at hvalue
      exact absurd hvalue.symm h.ne'
    | cons d ds => exact natDigits_ne_zero_cons count d ds (hrest ▸ hk)

/-- The digits of a count stand for it, also without the zeros at their end. -/
theorem Significand.ofCount_value (count : ℕ) (unit : ℤ) :
    (ofCount count unit).value = count * 10 ^ unit := by
  obtain ⟨k, hk, hcount⟩ := exists_significant count
  have hdigits : (ofCount count unit).digits = significant (natDigits count) := rfl
  have hlength := congrArg List.length hk
  rw [List.length_append, zeros, List.length_replicate] at hlength
  have hpower : (10 : ℚ) ^ ((ofCount count unit).point - (ofCount count unit).digits.length) =
      10 ^ k * 10 ^ unit := by
    rw [← zpow_natCast, ← zpow_add₀ (by norm_num)]
    congr 1
    show unit + ((natDigits count).length : ℤ) - ((significant (natDigits count)).length : ℤ) = _
    omega
  rw [value, hpower, hdigits, ← mul_assoc]
  exact_mod_cast congrArg (fun n : ℕ => (n : ℚ) * 10 ^ unit) hcount

/-! ## The position of the point -/

theorem lt_pow_digitCount (n : ℕ) : n < 10 ^ digitCount n := by
  unfold digitCount
  split
  · next h => subst h; decide
  · exact lt_pow_length_natDigits n

theorem pow_digitCount_le {n : ℕ} (h : 0 < n) : 10 ^ (digitCount n - 1) ≤ n := by
  rw [digitCount, if_neg h.ne']
  exact pow_length_natDigits_le h

/-- **The position of the point is not too high.** -/
theorem Interval.le_value {i : Interval} (hden : 0 < i.den) (hvalue : 0 < i.value) :
    (10 : ℚ) ^ (i.point - 1) ≤ i.value / i.den := by
  have hden' : (0 : ℚ) < i.den := by exact_mod_cast hden
  have hvalue' : (0 : ℚ) < i.value := by exact_mod_cast hvalue
  unfold point
  split
  · next hle =>
    have hpos : 0 < i.value / i.den := Nat.div_pos hle hden
    have hcount : 0 < digitCount (i.value / i.den) := by
      by_contra hzero
      have hlt := lt_pow_digitCount (i.value / i.den)
      rw [Nat.eq_zero_of_not_pos hzero] at hlt
      omega
    have hpower : (10 : ℚ) ^ ((digitCount (i.value / i.den) : ℤ) - 1) =
        (10 ^ (digitCount (i.value / i.den) - 1) : ℕ) := by
      rw [← Int.natCast_pred_of_pos hcount, zpow_natCast]
      push_cast
      rfl
    rw [hpower]
    exact (Nat.cast_le.mpr (pow_digitCount_le hpos)).trans Nat.cast_div_le
  · next hlt =>
    -- the reciprocal, rounded up, has no more digits than the power of ten
    have hceil := lt_pow_digitCount ((i.den + i.value - 1) / i.value - 1)
    generalize digitCount ((i.den + i.value - 1) / i.value - 1) = k at hceil
    have hquotient : i.den ≤ (i.den + i.value - 1) / i.value * i.value := by
      have := Nat.lt_div_mul_add hvalue (a := i.den + i.value - 1)
      omega
    have hbound : i.den ≤ 10 ^ k * i.value := hquotient.trans (Nat.mul_le_mul_right _ (by omega))
    rw [show (1 - (k : ℤ) - 1) = -(k : ℤ) by
      omega, zpow_neg, zpow_natCast, inv_le_iff_one_le_mul₀ (by positivity),
      div_mul_eq_mul_div, one_le_div₀ hden', mul_comm]
    exact_mod_cast hbound

/-! ## The grids -/

/-- A multiple of a power of ten as a fraction. -/
theorem grid_eq (n : ℕ) (unit : ℤ) :
    ((n * 10 ^ unit.toNat : ℕ) / (10 ^ (-unit).toNat : ℕ) : ℚ) = n * 10 ^ unit := by
  rw [zpow_eq_div (by norm_num) unit]
  push_cast
  rw [mul_div_assoc]

namespace Interval
variable {i : Interval} {tie : Tie} {unit : ℤ} {n : ℕ}

/-- What is found on a grid lies in the interval. -/
theorem holds_of_onGrid (h : i.onGrid tie unit = some n) :
    i.holds (n * 10 ^ unit.toNat) (10 ^ (-unit).toNat) = true := by
  simp only [onGrid, Nat.pow_eq, Bool.and_eq_true] at h
  grind

/-- Something is found on a grid if one of the neighbours of the value is in the interval. -/
theorem onGrid_isSome_of_holds (h : i.value * 10 ^ (-unit).toNat / (i.den * 10 ^ unit.toNat) = n)
    (hholds : i.holds (n * 10 ^ unit.toNat) (10 ^ (-unit).toNat) = true ∨
      i.holds ((n + 1) * 10 ^ unit.toNat) (10 ^ (-unit).toNat) = true) :
          (i.onGrid tie unit).isSome := by
  simp only [onGrid, Nat.pow_eq]
  rw [h]
  split_ifs <;> simp_all

/-- What lies between the ends is in the interval. -/
theorem holds_of_between (hden : 0 < i.den) (hlow : (i.low / i.den : ℚ) < n * 10 ^ unit)
    (hhigh : (n * 10 ^ unit : ℚ) < i.high / i.den) :
    i.holds (n * 10 ^ unit.toNat) (10 ^ (-unit).toNat) = true := by
  rw [holds_iff hden _ (by positivity), grid_eq]
  split
  · exact ⟨hlow.le, hhigh.le⟩
  · exact ⟨hlow, hhigh⟩

/-- **A grid that is finer than an interval is wide has a point inside.** -/
theorem onGrid_isSome (hden : 0 < i.den) (hlow : (i.low / i.den : ℚ) < i.value / i.den)
    (hhigh : (i.value / i.den : ℚ) < i.high / i.den)
    (hfine : (10 : ℚ) ^ unit < i.high / i.den - i.low / i.den) :
    (i.onGrid tie unit).isSome := by
  have hden' : (0 : ℚ) < i.den := by exact_mod_cast hden
  have hunit : (0 : ℚ) < 10 ^ unit := by positivity
  have hpos : 0 < i.den * 10 ^ unit.toNat := by positivity
  have hquotient : ((i.value * 10 ^ (-unit).toNat : ℕ) : ℚ) / (i.den * 10 ^ unit.toNat : ℕ) =
      i.value / i.den / 10 ^ unit := by
    rw [zpow_eq_div (by norm_num) unit]
    push_cast
    field_simp
  -- the neighbours of the value on the grid
  have hbelow : ((i.value * 10 ^ (-unit).toNat / (i.den * 10 ^ unit.toNat) : ℕ) : ℚ) * 10 ^ unit ≤
      i.value / i.den := by
    rw [← le_div_iff₀ hunit, ← hquotient]
    exact Nat.cast_div_le
  have habove : (i.value / i.den : ℚ) <
      ((i.value * 10 ^ (-unit).toNat / (i.den * 10 ^ unit.toNat) + 1 : ℕ) : ℚ) * 10 ^ unit := by
    rw [← div_lt_iff₀ hunit, ← hquotient, div_lt_iff₀ (by exact_mod_cast hpos)]
    exact_mod_cast Nat.lt_mul_of_div_lt (Nat.lt_succ_self _) hpos
  generalize hn : i.value * 10 ^ (-unit).toNat / (i.den * 10 ^ unit.toNat) = n at hbelow habove
  refine onGrid_isSome_of_holds hn ?_
  rcases lt_or_ge (i.low / i.den : ℚ) (n * 10 ^ unit) with hlt | hge
  · exact .inl (holds_of_between hden hlt (hbelow.trans_lt hhigh))
  · refine .inr (holds_of_between hden (hlow.trans habove) ?_)
    rw [Nat.cast_succ, add_one_mul]
    linarith

/-- The search ends on a grid with a point inside. -/
theorem search_eq {point : ℤ} :
    ∀ (fuel count : ℕ), (i.onGrid tie (point - (count + fuel : ℕ))).isSome →
    ∃ n unit, i.onGrid tie unit = some n ∧ i.search tie point (fuel + 1) count = .ofCount n unit
  | 0, count, h => by
    obtain ⟨n, hn⟩ := Option.isSome_iff_exists.mp h
    refine ⟨n, point - count, hn, ?_⟩
    rw [search]
    rw [Nat.add_zero] at hn
    rw [hn]
  | fuel + 1, count, h => by
    rw [search]
    cases hgrid : i.onGrid tie (point - count) with
    | some n => exact ⟨n, point - count, hgrid, rfl⟩
    | none =>
      refine search_eq fuel (count + 1) ?_
      rwa [show count + 1 + fuel = count + (fuel + 1) by omega]

end Interval

/-! ## Seventeen digits -/

section
variable {m : ℕ} {e : ℤ} (hm : 0 < m)
include hm

/-- Seventeen digits are finer than the interval around a number. -/
theorem seventeen_fine (h : Canonical m e) :
    (10 : ℚ) ^ ((Interval.around m e).point - 17) < spacing m e / 2 + 2 ^ e / 2 := by
  have hvalue : 0 < (Interval.around m e).value := by
    have hscale : 0 < Parts.numerator 1 (e - 2) := by
      rw [Parts.numerator, Nat.pow_eq]
      positivity
    exact Nat.mul_pos (by omega) hscale
  have hle := Interval.le_value (around_den_pos m e) hvalue
  rw [around_value] at hle
  have hpower : (10 : ℚ) ^ ((Interval.around m e).point - 1) =
      10 ^ 16 * 10 ^ ((Interval.around m e).point - 17) := by
    rw [← zpow_natCast, ← zpow_add₀ (by norm_num)]
    congr 1
    omega
  have hhalf : (0 : ℚ) < 2 ^ (e - 1) := by positivity
  rw [hpower, magnitude, two_zpow_eq e] at hle
  have hbound : ∀ k : ℕ, m ≤ 2 ^ k → (m * 2 ^ (e - 1) : ℚ) ≤ 2 ^ k * 2 ^ (e - 1) := fun k hk =>
    mul_le_mul_of_nonneg_right (by exact_mod_cast hk) hhalf.le
  rw [spacing, two_zpow_eq e]
  split
  · next hbinade =>
    have hmantissa := hbound 52 (eq_of_beq (Bool.and_eq_true_iff.mp hbinade).1).le
    linarith
  · have hmantissa := hbound 53 h.mantissa.le
    linarith

/-- The interval around a number holds no zero. -/
theorem low_pos (e : ℤ) : 0 < magnitude m e - spacing m e / 2 := by
  have hhalf : (0 : ℚ) < 2 ^ (e - 1) := by positivity
  have hone : (1 : ℚ) ≤ m := by exact_mod_cast hm
  have hmul := mul_le_mul_of_nonneg_right hone hhalf.le
  rw [magnitude, spacing, two_zpow_eq e]
  split <;> linarith

/-- **The shortest decimal is rounded to its number**, and begins with no zero. -/
theorem nearest_shortest (h : Canonical m e) (tie : Tie) :
    (shortest tie m e).Proper ∧ Nearest (shortest tie m e).value m e := by
  have hspacing := spacing_pos m e
  have hpower : (0 : ℚ) < 2 ^ e := by positivity
  have hden := around_den_pos m e
  have hfine := seventeen_fine hm h
  obtain ⟨n, unit, hgrid, hsearch⟩ : ∃ n unit, (Interval.around m e).onGrid tie unit = some n ∧
      shortest tie m e = .ofCount n unit := by
    refine Interval.search_eq 16 1 (Interval.onGrid_isSome hden ?_ ?_ ?_)
    · rw [around_low hm, around_value]
      linarith
    · rw [around_high, around_value]
      linarith
    · rw [around_low hm, around_high]
      exact lt_of_lt_of_eq hfine (by ring)
  have hholds := Interval.holds_of_onGrid hgrid
  have hnearest := nearest_of_holds hm h (by positivity) hholds
  rw [grid_eq] at hnearest
  have hn : 0 < n := by
    by_contra hzero
    have hlow := low_pos hm e
    rw [Nat.eq_zero_of_not_pos hzero, Interval.holds_iff hden _ (by positivity), grid_eq,
      around_low hm] at hholds
    split at hholds <;> simp only [Nat.cast_zero, zero_mul] at hholds <;> linarith [hholds.1]
  rw [hsearch, Significand.ofCount_value]
  exact ⟨Significand.ofCount_proper hn unit, hnearest⟩

end

end Slideshow.Decimal
