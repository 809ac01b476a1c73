import Slideshow.Proofs.Order
import Slideshow.Proofs.Rounding
import Mathlib.Algebra.Order.Field.Basic
import Mathlib.Tactic.Ring

/-!
# Dividing binary floating point numbers

The arithmetic divides mantissas, shifts bits out to the right, and keeps of what it shifts out
whether there is something and how it compares with a half. That is enough to round the exact
quotient to the nearest number. Products of mantissas are known exactly and rounded in the same way,
and so are mantissas with a power of ten.

* `Tells`: a mantissa with the two bits behind it tells where a number lies; `Tells.shiftRight`:
  shifting keeps that.
* `unsigned` is the number with a mantissa and an exponent, not below zero; `unpack_pack_unsigned`:
  packing keeps it.

Headlines:
* **`round_nearest`**: rounding with accuracy gives the nearest number.
* **`div_nearest`**: the quotient of two positive numbers is the number nearest to their exact
  quotient.
* **`scientific_rounded`**: a mantissa with a power of ten is rounded once.
* **`isPositive_div_iff`**: a positive number divided by one that is at least one is positive,
  unless the quotient is at most half of the least positive number; it is zero then.
-/

namespace Slideshow.Decimal

open Float.Model Float.Model.UnpackedFloat

/-! ## Bits behind a mantissa -/

/-- A mantissa and the two bits behind it tell where a number lies: at the mantissa, before the half
behind it, at the half, or behind the half. -/
def Tells (x : ℚ) : ExtendedMantissa → Prop
  | ⟨m, false, false⟩ => x = m
  | ⟨m, false, true⟩ => (m : ℚ) < x ∧ x < m + 1 / 2
  | ⟨m, true, false⟩ => x = m + 1 / 2
  | ⟨m, true, true⟩ => (m + 1 / 2 : ℚ) < x ∧ x < m + 1

section
variable {x : ℚ} {em : ExtendedMantissa}

/-- The accuracy of a division is where the quotient lies. -/
theorem tells_quotient (num : ℕ) {den : ℕ} (hden : 0 < den) :
    Tells (num / den)
    (.ofMantissaAndAccuracy (num / den) (accuracyOfFraction (num % den) den)) := by
  have hpos : (0 : ℚ) < den := by exact_mod_cast hden
  have hsum : (num : ℚ) = (num / den : ℕ) * den + (num % den : ℕ) := by
    exact_mod_cast (Nat.div_add_mod' num den).symm
  have hrest : (num / den : ℚ) = (num / den : ℕ) + (num % den : ℕ) / den := by
    rw [eq_comm, eq_div_iff hpos.ne', add_mul, div_mul_cancel₀ _ hpos.ne', ← hsum]
  have hless : (num % den : ℕ) / (den : ℚ) < 1 := by
    rw [div_lt_one hpos]
    exact_mod_cast Nat.mod_lt num hden
  rw [hrest]
  generalize num % den = r at hless ⊢
  generalize num / den = m
  unfold accuracyOfFraction
  by_cases hzero : r = 0
  · rw [if_pos hzero, hzero, Nat.cast_zero, zero_div, add_zero]
    rfl
  · rw [if_neg hzero]
    have hr : (0 : ℚ) < r / den := div_pos (by exact_mod_cast Nat.pos_of_ne_zero hzero) hpos
    rcases lt_trichotomy (2 * r) den with hlt | heq | hgt
    · rw [Nat.compare_eq_lt.mpr hlt]
      have hhalf : (r : ℚ) / den < 1 / 2 := by
        rw [div_lt_div_iff₀ hpos two_pos]
        exact_mod_cast (by omega : r * 2 < 1 * den)
      exact ⟨by linarith, by linarith⟩
    · rw [Nat.compare_eq_eq.mpr heq]
      have hhalf : (r : ℚ) / den = 1 / 2 := by
        rw [div_eq_div_iff hpos.ne' two_ne_zero]
        exact_mod_cast (by omega : r * 2 = 1 * den)
      exact congrArg ((m : ℚ) + ·) hhalf
    · rw [Nat.compare_eq_gt.mpr hgt]
      have hhalf : 1 / 2 < (r : ℚ) / den := by
        rw [div_lt_div_iff₀ two_pos hpos]
        exact_mod_cast (by omega : 1 * den < r * 2)
      exact ⟨by linarith, by linarith⟩

theorem Tells.shiftRightOne (h : Tells x em) : Tells (x / 2) em.shiftRightOne := by
  obtain ⟨m, half, more⟩ := em
  obtain ⟨a, ha | ha⟩ : ∃ a, m = 2 * a ∨ m = 2 * a + 1 := ⟨m / 2, by omega⟩
  · have hshift : (⟨m, half, more⟩ : ExtendedMantissa).shiftRightOne =
        ⟨a, false, half || more⟩ := by
      rw [ha, ExtendedMantissa.shiftRightOne, Nat.mul_mod_right, Nat.mul_div_cancel_left a two_pos]
      rfl
    have hm : (m : ℚ) = 2 * a := by exact_mod_cast ha
    rw [hshift]
    cases half with
    | false =>
      cases more with
      | false => exact (show x / 2 = a by rw [show x = m from h]; linarith)
      | true => exact ⟨by linarith [h.1], by linarith [h.2]⟩
    | true =>
      cases more with
      | false =>
        exact ⟨by linarith [show x = m + 1 / 2 from h], by linarith [show x = m + 1 / 2 from h]⟩
      | true => exact ⟨by linarith [h.1], by linarith [h.2]⟩
  · have hshift : (⟨m, half, more⟩ : ExtendedMantissa).shiftRightOne = ⟨a, true, half || more⟩ := by
      rw [ha, ExtendedMantissa.shiftRightOne, Nat.mul_add_mod, show (2 * a + 1) / 2 = a by omega]
      rfl
    have hm : (m : ℚ) = 2 * a + 1 := by exact_mod_cast ha
    rw [hshift]
    cases half with
    | false =>
      cases more with
      | false => exact (show x / 2 = a + 1 / 2 by rw [show x = m from h]; linarith)
      | true => exact ⟨by linarith [h.1], by linarith [h.2]⟩
    | true =>
      cases more with
      | false =>
        exact ⟨by linarith [show x = m + 1 / 2 from h], by linarith [show x = m + 1 / 2 from h]⟩
      | true => exact ⟨by linarith [h.1], by linarith [h.2]⟩

/-- **Shifting a mantissa to the right** halves what it tells. -/
theorem Tells.shiftRight (h : Tells x em) : ∀ k : ℕ, Tells (x / 2 ^ k) (em >>> k)
  | 0 => by rwa [pow_zero, div_one]
  | k + 1 => by
    rw [pow_succ, ← div_div]
    exact (h.shiftRight k).shiftRightOne

/-- The rounded mantissa is at most a half away, and even if it is as much. -/
theorem Tells.rounded (h : Tells x em) :
    (em.roundedMantissa : ℚ) ≤ x + 1 / 2 ∧ x ≤ em.roundedMantissa + 1 / 2 ∧
    (x + 1 / 2 = em.roundedMantissa ∨ x = em.roundedMantissa + 1 / 2 →
        em.roundedMantissa % 2 = 0) := by
  obtain ⟨m, half, more⟩ := em
  cases half with
  | false =>
    have hround : (⟨m, false, more⟩ : ExtendedMantissa).roundedMantissa = m := by cases more <;> rfl
    rw [hround]
    cases more with
    | false =>
      have hx : x = m := h
      exact ⟨by linarith, by linarith, fun hhalf => by rcases hhalf with hhalf | hhalf <;> linarith⟩
    | true =>
      obtain ⟨hlow, hhigh⟩ := h
      exact ⟨by linarith, by linarith, fun hhalf => by rcases hhalf with hhalf | hhalf <;> linarith⟩
  | true =>
    cases more with
    | false =>
      have hx : x = m + 1 / 2 := h
      have hround : (⟨m, true, false⟩ : ExtendedMantissa).roundedMantissa = m + m % 2 := rfl
      rw [hround]
      have hbit : (m % 2 : ℕ) = 0 ∨ (m % 2 : ℕ) = 1 := Nat.mod_two_eq_zero_or_one m
      refine ⟨?_, ?_, fun _ => by omega⟩
      · rcases hbit with hbit | hbit <;> rw [hbit] <;> push_cast <;> linarith
      · rcases hbit with hbit | hbit <;> rw [hbit] <;> push_cast <;> linarith
    | true =>
      obtain ⟨hlow, hhigh⟩ := h
      have hround : (⟨m, true, true⟩ : ExtendedMantissa).roundedMantissa = m + 1 := rfl
      rw [hround, Nat.cast_succ]
      exact ⟨by linarith, by linarith, fun hhalf => by rcases hhalf with hhalf | hhalf <;> linarith⟩

/-- Between natural numbers, rounding stays between them. -/
theorem Tells.le_rounded (h : Tells x em) {n : ℕ} (hn : (n : ℚ) ≤ x) : n ≤ em.roundedMantissa := by
  have hlt : (n : ℚ) < em.roundedMantissa + 1 := by linarith [h.rounded.2.1]
  exact Nat.lt_succ_iff.mp (by exact_mod_cast hlt)

theorem Tells.rounded_le (h : Tells x em) {n : ℕ} (hn : x ≤ n) : em.roundedMantissa ≤ n := by
  have hlt : (em.roundedMantissa : ℚ) < n + 1 := by linarith [h.rounded.1]
  exact Nat.lt_succ_iff.mp (by exact_mod_cast hlt)

end

/-! ## Rounding -/

/-- The number with a mantissa and an exponent, not below zero. -/
def unsigned (m : ℕ) (e : ℤ) : UnpackedFloat := if h :
    m = 0 then .zero .positive else .finite .positive m e (Nat.pos_of_ne_zero h)

theorem unsigned_of_pos {m : ℕ} {e : ℤ} (hm : 0 < m) : unsigned m e = .finite .positive m e hm :=
  dif_neg hm.ne'

/-- A mantissa of at most 53 bits is not shifted when it is normalized again. -/
theorem shiftToTargetExponent_small {m : ℕ} {e : ℤ} (hm : m < 2 ^ 53) (he : -1074 ≤ e) :
    shiftToTargetExponent Format.binary64 m e .exact = (⟨m, false, false⟩, e) := by
  have hlog : m.log2 ≤ 52 := by
    by_cases hzero : m = 0
    · rw [hzero]
      decide
    · exact Nat.lt_succ_iff.mp ((Nat.log2_lt hzero).mpr hm)
  have htarget : Format.binary64.targetExponent (totalExponent m e) ≤ e := by
    rw [Format.targetExponent, totalExponent, show Format.binary64.minExponent = -1074 by decide,
      show (Format.binary64.mantissaBits : Int) = 53 by decide]
    omega
  have hshift : (Format.binary64.targetExponent (totalExponent m e) - e).toNat = 0 := by omega
  rw [shiftToTargetExponent, shiftToExponent]
  simp only [hshift]
  rw [Int.natCast_zero, Int.add_zero]
  rfl

/-- Where rounding shifts the exponent to: there the mantissa has at most 53 bits, and no fewer
unless the exponent is the least. -/
theorem target_spec {m : ℕ} {e : ℤ} (hready : 2 ^ 52 ≤ m ∨ e ≤ -1074) :
    ∃ k : ℕ, (Format.binary64.targetExponent (totalExponent m e) - e).toNat = k ∧ -1074 ≤ e + k ∧
      m < 2 ^ 53 * 2 ^ k ∧ (-1074 < e + k → 2 ^ 52 * 2 ^ k ≤ m) := by
  have htarget : Format.binary64.targetExponent (totalExponent m e) =
      max (m.log2 + 1 + e - 53) (-1074) := by
    rw [Format.targetExponent, totalExponent, show Format.binary64.minExponent = -1074 by decide,
      show (Format.binary64.mantissaBits : Int) = 53 by decide]
  have hlow : 2 ^ 52 ≤ m → 52 ≤ m.log2 := fun h => (Nat.le_log2 (by omega)).mpr h
  have hzero : m = 0 → m.log2 = 0 := fun h => by rw [h]; rfl
  refine ⟨_, rfl, ?_, ?_, ?_⟩
  · omega
  · refine lt_of_lt_of_le Nat.lt_log2_self ?_
    rw [← Nat.pow_add]
    exact Nat.pow_le_pow_right two_pos (by omega)
  · intro hleast
    have hm : m ≠ 0 := fun h => by have := hzero h; omega
    refine le_trans ?_ (Nat.log2_self_le hm)
    rw [← Nat.pow_add]
    exact Nat.pow_le_pow_right two_pos (by omega)

/-- What lies at a half of the last bit or nearer to a mantissa is rounded to it, if the mantissa is
even or it lies nearer. -/
theorem Canonical.nearest_of_tells {m : ℕ} {e : ℤ} {x : ℚ} {em : ExtendedMantissa}
    (h : Canonical m e) (hx : Tells x em) (hm : em.roundedMantissa = m)
    (hfull : -1074 < e → 2 ^ 52 ≤ x) : Nearest (x * 2 ^ e) m e := by
  obtain ⟨hbelow, habove, heven⟩ := hx.rounded
  rw [hm] at hbelow habove heven
  have hunit : (0 : ℚ) < 2 ^ e := by positivity
  have hscaled : ∀ y : ℚ, y * 2 ^ e = magnitude m e + (y - m) * 2 ^ e := fun y => by
    rw [magnitude]; ring
  have hspacing : spacing m e = 2 ^ e ∨ magnitude m e ≤ x * 2 ^ e := by
    unfold spacing
    split
    · next hpower =>
      obtain ⟨hmantissa, hexponent⟩ := Bool.and_eq_true_iff.mp hpower
      right
      rw [magnitude, eq_of_beq hmantissa]
      refine mul_le_mul_of_nonneg_right ?_ hunit.le
      exact_mod_cast hfull (of_decide_eq_true hexponent)
    · exact .inl (two_zpow_eq e).symm
  have hpos := spacing_pos m e
  refine h.nearest ?_ ?_ ?_
  · rcases hspacing with hspacing | hspacing
    · rw [hspacing, hscaled]
      nlinarith
    · linarith
  · rw [hscaled]
    nlinarith
  · rintro (hhalf | hhalf)
    · rcases hspacing with hspacing | hspacing
      · refine heven (.inl ?_)
        rw [hspacing, hscaled] at hhalf
        have hzero : (x - m + 1 / 2) * 2 ^ e = 0 := by linarith
        rcases mul_eq_zero.mp hzero with h | h <;> linarith
      · linarith
    · refine heven (.inr ?_)
      rw [hscaled] at hhalf
      have hzero : (x - m - 1 / 2) * 2 ^ e = 0 := by linarith
      rcases mul_eq_zero.mp hzero with h | h <;> linarith

/-- A mantissa with one bit too many ends in a zero, which is shifted out. -/
theorem shiftToTargetExponent_carry {e : ℤ} (he : -1074 ≤ e) :
    shiftToTargetExponent Format.binary64 (2 ^ 53) e .exact = (⟨2 ^ 52, false, false⟩, e + 1) := by
  have hexact :=
    shiftToTargetExponent_exact (m := 2 ^ 52) (e := e + 1) le_rfl (by decide) (by omega) 1
  rwa [Nat.cast_one, Int.add_sub_cancel] at hexact

/-- What is rounded up to one bit too many is nearest to the power of two. -/
theorem nearest_carry {x : ℚ} {e : ℤ} (he : -1074 ≤ e) (hlow : 2 ^ 53 ≤ x + 1 / 2)
    (hhigh : x < 2 ^ 53) :
    Nearest (x * 2 ^ e) (2 ^ 52) (e + 1) := by
  have hcanonical : Canonical (2 ^ 52) (e + 1) := ⟨by decide, by omega, fun _ => le_rfl⟩
  have hvalue : magnitude (2 ^ 52) (e + 1) = 2 ^ 53 * 2 ^ e := by
    rw [magnitude, zpow_add_one₀ two_ne_zero]
    push_cast
    ring
  have hspacing : spacing (2 ^ 52) (e + 1) = 2 ^ e := by
    rw [spacing, if_pos (by simp; omega), one_mul, add_sub_cancel_right]
  have hunit : (0 : ℚ) < 2 ^ e := by positivity
  refine hcanonical.nearest ?_ ?_ fun _ => by decide
  · rw [hvalue, hspacing]
    nlinarith
  · rw [hvalue]
    have hpos : (0 : ℚ) < 2 ^ (e + 1) := by positivity
    nlinarith

/-- What is told below the mantissas of 54 bits is rounded to the nearest number, with one more
shift if the rounding carries. -/
theorem Tells.exists_nearest {x : ℚ} {em : ExtendedMantissa} {e : ℤ} (h : Tells x em)
    (he : -1074 ≤ e) (hhigh : x < 2 ^ 53) (hfull : -1074 < e → 2 ^ 52 ≤ x) :
    ∃ m f, Canonical m f ∧ Nearest (x * 2 ^ e) m f ∧
      unsigned (shiftToTargetExponent Format.binary64 em.roundedMantissa e .exact).1.mantissa
        (shiftToTargetExponent Format.binary64 em.roundedMantissa e .exact).2 = unsigned m f := by
  have hle : em.roundedMantissa ≤ 2 ^ 53 := h.rounded_le (by exact_mod_cast hhigh.le)
  rcases lt_or_eq_of_le hle with hless | heq
  · have hcanonical : Canonical em.roundedMantissa e :=
      ⟨hless, he, fun hexponent => h.le_rounded (by exact_mod_cast hfull hexponent)⟩
    refine ⟨_, _, hcanonical, hcanonical.nearest_of_tells h rfl hfull, ?_⟩
    rw [shiftToTargetExponent_small hless he]
  · have hnear := h.rounded.1
    rw [heq] at hnear
    rw [heq, shiftToTargetExponent_carry he]
    exact ⟨_, _, ⟨by decide, by omega, fun _ => le_rfl⟩,
      nearest_carry he (by exact_mod_cast hnear) hhigh, rfl⟩

/-- **Rounding with accuracy gives the nearest number**, if enough bits of the quotient are
known. -/
theorem round_nearest (num : ℕ) {den : ℕ} (hden : 0 < den) {e : ℤ}
    (hready : 2 ^ 52 ≤ num / den ∨ e ≤ -1074) :
    ∃ m f, Canonical m f ∧ Nearest (num / den * 2 ^ e) m f ∧
      roundWithAccuracy Format.binary64 .positive (num / den) e
          (accuracyOfFraction (num % den) den) = unsigned m f := by
  obtain ⟨k, hk, hleast, hhigh, hfull⟩ := target_spec hready
  have htells := (tells_quotient num hden).shiftRight k
  have hshift : shiftToTargetExponent Format.binary64 (num / den) e
    (accuracyOfFraction (num % den) den) =
      (ExtendedMantissa.ofMantissaAndAccuracy (num / den)
          (accuracyOfFraction (num % den) den) >>> k, e + k) := by
    show (ExtendedMantissa.ofMantissaAndAccuracy _ _ >>> (_ : Int).toNat,
      e + ((_ : Int).toNat : Int)) = _
    rw [hk]
  have hquotient : (num / den * 2 ^ e : ℚ) = num / den / 2 ^ k * 2 ^ (e + k) := by
    rw [zpow_add₀ two_ne_zero, zpow_natCast, div_mul_eq_mul_div _ ((2 : ℚ) ^ k),
      mul_comm ((2 : ℚ) ^ e), ← mul_assoc, mul_right_comm, mul_div_assoc,
      div_self (pow_ne_zero k two_ne_zero), mul_one]
  have hpos : (0 : ℚ) < 2 ^ k := by positivity
  have hden' : (0 : ℚ) < den := by exact_mod_cast hden
  have hbound : (num / den / 2 ^ k : ℚ) < 2 ^ 53 := by
    rw [div_lt_iff₀ hpos, div_lt_iff₀ hden']
    have hnum : num < 2 ^ 53 * 2 ^ k * den := (Nat.div_lt_iff_lt_mul hden).mp hhigh
    exact_mod_cast hnum
  have hreached : -1074 < e + k → (2 ^ 52 : ℚ) ≤ num / den / 2 ^ k := by
    intro hexponent
    rw [le_div_iff₀ hpos, le_div_iff₀ hden']
    have hnum : 2 ^ 52 * 2 ^ k * den ≤ num := (Nat.le_div_iff_mul_le hden).mp (hfull hexponent)
    exact_mod_cast hnum
  rw [roundWithAccuracy, hshift, hquotient]
  exact htells.exists_nearest hleast hbound hreached

/-- A mantissa that is known exactly is rounded to the nearest number, if it has enough bits. -/
theorem roundWithAccuracy_nearest (m : ℕ) {e : ℤ} (hready : 2 ^ 52 ≤ m ∨ e ≤ -1074) :
    ∃ k g, Canonical k g ∧ Nearest (magnitude m e) k g ∧
      roundWithAccuracy Format.binary64 .positive m e .exact = unsigned k g := by
  obtain ⟨k, g, hk, hnearest, hround⟩ := round_nearest m Nat.one_pos (by rwa [Nat.div_one])
  have haccuracy : accuracyOfFraction (m % 1) 1 = .exact := by
    rw [Nat.mod_one]
    rfl
  rw [Nat.cast_one, div_one] at hnearest
  rw [Nat.div_one, haccuracy] at hround
  exact ⟨k, g, hk, hnearest, hround⟩

/-! ## Nearest numbers and their order -/

section
variable {q : ℚ} {m n : ℕ} {e f : ℤ}

/-- What is at most a number is rounded to at most that number. -/
theorem Nearest.magnitude_le_of_le (h : Nearest q m e) (hn : n < 2 ^ 53) (hf : -1074 ≤ f)
    (hq : q ≤ magnitude n f) :
    magnitude m e ≤ magnitude n f := by
  by_contra hle
  have hlt : magnitude n f < magnitude m e := not_le.mp hle
  have hnearer : |q - magnitude n f| < |q - magnitude m e| := by
    rw [abs_sub_comm, abs_of_nonneg (by linarith), abs_sub_comm, abs_of_nonneg (by linarith)]
    linarith
  rcases h n f hn hf hlt.ne with hless | ⟨heq, -⟩
  · exact absurd hless hnearer.not_gt
  · exact absurd heq hnearer.ne'

/-- What is at least a number is rounded to at least that number. -/
theorem Nearest.le_magnitude_of_le (h : Nearest q m e) (hn : n < 2 ^ 53) (hf : -1074 ≤ f)
    (hq : magnitude n f ≤ q) :
    magnitude n f ≤ magnitude m e := by
  by_contra hle
  have hlt : magnitude m e < magnitude n f := not_le.mp hle
  have hnearer : |q - magnitude n f| < |q - magnitude m e| := by
    rw [abs_of_nonneg (by linarith), abs_of_nonneg (by linarith)]
    linarith
  rcases h n f hn hf hlt.ne' with hless | ⟨heq, -⟩
  · exact absurd hless hnearer.not_gt
  · exact absurd heq hnearer.ne'

theorem two_zpow_least : (2 : ℚ) ^ (-1074 : ℤ) = 2 * 2 ^ (-1075 : ℤ) := two_zpow_eq (-1074)

/-- **What is rounded to zero** is at most half of the least positive number. -/
theorem Nearest.eq_zero_iff (hm : Canonical m e) (h : Nearest q m e) (hq : 0 ≤ q) :
    m = 0 ↔ q ≤ 2 ^ (-1075 : ℤ) := by
  have hunit : (0 : ℚ) < 2 ^ (-1075 : ℤ) := by positivity
  have hleast := two_zpow_least
  constructor
  · rintro rfl
    by_contra hlt
    have hzero : magnitude 0 e = 0 := by rw [magnitude, Nat.cast_zero, zero_mul]
    have hone : magnitude 1 (-1074) = 2 ^ (-1074 : ℤ) := by rw [magnitude, Nat.cast_one, one_mul]
    have hnearer : |q - magnitude 1 (-1074)| < |q - magnitude 0 e| := by
      rw [hzero, hone, sub_zero, abs_of_nonneg hq, abs_lt]
      constructor <;> linarith
    rcases h 1 (-1074) (by decide) le_rfl (by rw [hzero, hone]; positivity) with hless | ⟨heq, -⟩
    · exact absurd hless hnearer.not_gt
    · exact absurd heq hnearer.ne'
  · intro hsmall
    have hcanonical : Canonical 0 (-1074) := ⟨by decide, le_rfl, fun h => absurd h (lt_irrefl _)⟩
    have hspacing := spacing_pos 0 (-1074)
    have hzero : magnitude 0 (-1074) = 0 := by rw [magnitude, Nat.cast_zero, zero_mul]
    have hnearest : Nearest q 0 (-1074) := by
      refine hcanonical.nearest ?_ ?_ fun _ => rfl
      · rw [hzero]
        linarith
      · rw [hzero]
        linarith
    exact (h.unique hm hcanonical hnearest).1

/-- A number that is at most another one has no larger exponent. -/
theorem Canonical.exponent_le (h : Canonical m e) (h' : Canonical n f)
    (hle : magnitude m e ≤ magnitude n f) : e ≤ f := by
  by_contra hlt
  have hfull : 2 ^ 52 ≤ m := h.full (lt_of_le_of_lt h'.exponent (not_le.mp hlt))
  exact absurd hle (magnitude_lt_of_lt hfull h'.mantissa (not_le.mp hlt)).not_ge

end

/-! ## Packing -/

/-- **Packing keeps a mantissa of fewer bits** with the least exponent. -/
theorem unpack_pack_subnormal {s : Sign} {m : ℕ} (hm : 0 < m) (hless : m < 2 ^ 52) :
    UnpackedFloat.unpack Format.binary64
      (UnpackedFloat.pack Format.binary64 (.finite s m (-1074) hm)) =
      .finite s m (-1074) hm := by
  have hlog : m.log2 < 52 := (Nat.log2_lt hm.ne').mpr hless
  have hbias : ((Format.binary64.exponentBias : Nat) : Int) = 1023 := rfl
  have hwidth : ((Format.binary64.mantissaBitsWithoutImplicit : Nat) : Int) = 52 := rfl
  have hbits : Format.binary64.mantissaBits = 53 := by decide
  have hmantissa : (BitVec.ofNat 52 m).toNat = m := by
    rw [BitVec.toNat_ofNat]
    exact Nat.mod_eq_of_lt hless
  have hne : BitVec.ofNat 52 m ≠ 0#52 := by
    intro h
    have hzero := congrArg BitVec.toNat h
    rw [hmantissa] at hzero
    exact absurd hzero hm.ne'
  rw [UnpackedFloat.pack]
  simp only [hbias, hwidth, hbits]
  rw [if_neg (by decide), if_neg (by omega)]
  unfold UnpackedFloat.unpack
  simp only [unpackMantissa_packComponents, unpackExponent_packComponents,
    unpackSign_packComponents]
  rw [if_neg (by decide), if_pos trivial, dif_neg hne]
  simp only [hmantissa, ofBitVec_toBitVec]
  rfl

theorem unpack_pack_finite {s : Sign} {m : ℕ} {e : ℤ} (hm : 0 < m) (h : Canonical m e)
    (he : e ≤ 971) :
    UnpackedFloat.unpack Format.binary64 (UnpackedFloat.pack Format.binary64 (.finite s m e hm)) =
        .finite s m e hm := by
  by_cases hfull : 2 ^ 52 ≤ m
  · exact unpack_pack_normal hm hfull h.mantissa h.exponent he
  · obtain rfl : e = -1074 := by
      by_contra hne
      exact hfull (h.full (lt_of_le_of_ne h.exponent (Ne.symm hne)))
    exact unpack_pack_subnormal hm (not_le.mp hfull)

/-- **Packing keeps a number** that is not too large. -/
theorem unpack_pack_unsigned {m : ℕ} {e : ℤ} (h : Canonical m e) (he : e ≤ 971) :
    UnpackedFloat.unpack Format.binary64 (UnpackedFloat.pack Format.binary64 (unsigned m e)) =
        unsigned m e := by
  rcases Nat.eq_zero_or_pos m with rfl | hm
  · rw [unsigned, dif_pos rfl]
    rfl
  · rw [unsigned_of_pos hm]
    exact unpack_pack_finite hm h he

/-- What is too large becomes infinite. -/
theorem unpack_pack_overflow {m : ℕ} {e : ℤ} (hm : 0 < m) (he : 971 < e) :
    UnpackedFloat.unpack Format.binary64 (UnpackedFloat.pack Format.binary64 (unsigned m e)) =
        .infinity .positive := by
  have hbias : ((Format.binary64.exponentBias : Nat) : Int) = 1023 := rfl
  have hwidth : ((Format.binary64.mantissaBitsWithoutImplicit : Nat) : Int) = 52 := rfl
  rw [unsigned_of_pos hm, UnpackedFloat.pack]
  simp only [hbias, hwidth]
  rw [if_pos (by show 2 ^ 11 ≤ _; omega)]
  rfl

/-- The exponent of a number is not too large. -/
theorem exponent_le_of_ofBits {n : ℕ} {negative : Bool} {m : ℕ} {e : ℤ}
    (h : Parts.ofBits n = .finite negative m e) :
    e ≤ 971 := by
  simp only [Parts.ofBits, Nat.pow_eq] at h
  split at h
  · split at h <;> cases h
  · next hlarge =>
    split at h
    · obtain ⟨-, -, rfl⟩ := Parts.finite.inj h
      decide
    · obtain ⟨-, -, rfl⟩ := Parts.finite.inj h
      have hbiased : n / 2 ^ 52 % 2 ^ 11 ≠ 2047 := fun h => hlarge (beq_iff_eq.mpr h)
      omega

/-- The parts of a positive number. -/
theorem canonical_of_unpack {x : Float} {m : ℕ} {e : ℤ} {hm : 0 < m}
    (h : x.toModel.unpack = .finite .positive m e hm) :
    Canonical m e ∧ e ≤ 971 := by
  have hparts : Parts.ofFloat x = .finite false m e := by
    rw [ofFloat_eq, h]
    rfl
  exact ⟨canonical_of_ofFloat hparts, exponent_le_of_ofBits hparts⟩

/-! ## The arithmetic -/

section
variable {x y : Float} {m n : ℕ} {e f : ℤ} {hm : 0 < m} {hn : 0 < n}

theorem magnitude_mul (m n : ℕ) (e f : ℤ) :
    magnitude m e * magnitude n f = magnitude (m * n) (e + f) := by
  rw [magnitude, magnitude, magnitude, Nat.cast_mul, zpow_add₀ two_ne_zero]
  ring

/-- The product of mantissas with their exponents is rounded to the number nearest to it, if there
are enough bits. -/
theorem mul_rounded {m n : ℕ} {e f : ℤ} (hm : 0 < m) (hn : 0 < n)
    (hready : 2 ^ 52 ≤ m * n ∨ e + f ≤ -1074) :
    ∃ k g, Canonical k g ∧ Nearest (magnitude m e * magnitude n f) k g ∧
      UnpackedFloat.mul Format.binary64 (.finite .positive m e hm)
      (.finite .positive n f hn) = unsigned k g := by
  obtain ⟨k, g, hk, hnearest, hround⟩ := roundWithAccuracy_nearest (m * n) hready
  rw [← magnitude_mul] at hnearest
  exact ⟨k, g, hk, hnearest, hround⟩

/-- The quotient of mantissas with their exponents is rounded to the number nearest to it. -/
theorem div_rounded (m n : ℕ) (e f : ℤ) (hm : 0 < m) (hn : 0 < n) :
    ∃ k g, Canonical k g ∧ Nearest (magnitude m e / magnitude n f) k g ∧
      UnpackedFloat.div Format.binary64 (.finite .positive m e hm)
      (.finite .positive n f hn) = unsigned k g := by
  have htarget : Format.binary64.targetExponent (totalExponent m e - totalExponent n f) =
      max ((m.log2 + 1 + e) - (n.log2 + 1 + f) - 53) (-1074) := by
    rw [Format.targetExponent, totalExponent, totalExponent,
      show Format.binary64.minExponent = -1074 by
        decide, show (Format.binary64.mantissaBits : Int) = 53 by decide]
  generalize hlow : min (e - f)
    (Format.binary64.targetExponent (totalExponent m e - totalExponent n f)) = t at *
  generalize hshift : (e - f - t).toNat = s
  have hexponent : (s : ℤ) + t = e - f := by omega
  have hready : 2 ^ 52 ≤ m * 2 ^ s / n ∨ t ≤ -1074 := by
    by_cases hleast : t ≤ -1074
    · exact .inr hleast
    · left
      rw [Nat.le_div_iff_mul_le hn]
      have hbits : 53 + n.log2 ≤ m.log2 + s := by omega
      calc 2 ^ 52 * n ≤ 2 ^ 52 * 2 ^ (n.log2 + 1) := Nat.mul_le_mul_left _ Nat.lt_log2_self.le
        _ = 2 ^ (53 + n.log2) := by rw [← Nat.pow_add]; congr 1; omega
        _ ≤ 2 ^ (m.log2 + s) := Nat.pow_le_pow_right two_pos hbits
        _ = 2 ^ m.log2 * 2 ^ s := Nat.pow_add _ _ _
        _ ≤ m * 2 ^ s := Nat.mul_le_mul_right _ (Nat.log2_self_le hm.ne')
  obtain ⟨k, g, hk, hnearest, hround⟩ := round_nearest (m * 2 ^ s) hn hready
  have hquotient : ((m * 2 ^ s : ℕ) / n * 2 ^ t : ℚ) = magnitude m e / magnitude n f := by
    have hpowers : (2 : ℚ) ^ s * 2 ^ t = 2 ^ e / 2 ^ f := by
      rw [← zpow_natCast, ← zpow_add₀ two_ne_zero, hexponent, zpow_sub₀ two_ne_zero]
    rw [magnitude, magnitude, mul_div_mul_comm, ← hpowers]
    push_cast
    ring
  rw [hquotient] at hnearest
  refine ⟨k, g, hk, hnearest, ?_⟩
  rw [← hround]
  show roundWithAccuracy _ _ (divCore _ m e n f).1 (divCore _ m e n f).2.1 (divCore _ m e n f).2.2 =
    _
  simp only [divCore, hlow, hshift, Nat.shiftLeft_eq]
  rfl

/-- **The quotient of two positive numbers** is the number nearest to their exact quotient. -/
theorem div_nearest (hx : x.toModel.unpack = .finite .positive m e hm)
    (hy : y.toModel.unpack = .finite .positive n f hn) :
    ∃ k g, Canonical k g ∧ Nearest (magnitude m e / magnitude n f) k g ∧
      (x / y).toModel.unpack = UnpackedFloat.unpack Format.binary64
          (UnpackedFloat.pack Format.binary64 (unsigned k g)) := by
  obtain ⟨k, g, hk, hnearest, hround⟩ := div_rounded m n e f hm hn
  refine ⟨k, g, hk, hnearest, ?_⟩
  show UnpackedFloat.unpack
    _ (UnpackedFloat.pack _ (UnpackedFloat.div _ x.toModel.unpack y.toModel.unpack)) = _
  rw [hx, hy, hround]

end

/-- **A mantissa with a power of ten is multiplied or divided by the power, and rounded once**, if
that is not far beyond the numbers. -/
theorem scientific_rounded {m : ℕ} {e : ℤ} (hm : 0 < m) (hlow : -(2 ^ 11 + m.log2) ≤ e)
    (hhigh : e ≤ 2 ^ 11) :
    ∃ k g, Canonical k g ∧ Nearest (m * 10 ^ e) k g ∧
        UnpackedFloat.ofScientific Format.binary64 m e = unsigned k g := by
  rw [UnpackedFloat.ofScientific, dif_neg hm.ne', if_neg (show ¬e > 2 ^ 11 by omega),
    if_neg (show ¬e < -(2 ^ 11 + m.log2) by omega)]
  by_cases he : 0 ≤ e
  · rw [if_pos he]
    have hten : 0 < 10 ^ e.toNat := Nat.pow_pos (by decide)
    have hshift : 2 ^ 52 ≤ m <<< 53 := by
      rw [Nat.shiftLeft_eq]
      omega
    obtain ⟨k, g, hk, hnearest, hround⟩ :=
      mul_rounded (e := -53) (f := 0) (lt_of_lt_of_le (by decide) hshift) hten
      (.inl (hshift.trans (Nat.le_mul_of_pos_right _ hten)))
    have hvalue : magnitude (m <<< 53) (-53) * magnitude (10 ^ e.toNat) 0 = m * 10 ^ e := by
      rw [magnitude, magnitude, Nat.shiftLeft_eq, Nat.cast_mul, zpow_zero, mul_one, zpow_neg,
        zpow_eq_div (by norm_num) e, show (-e).toNat = 0 by
          omega, pow_zero, div_one, Nat.cast_pow, Nat.cast_pow]
      exact congrArg (· * _) (mul_inv_cancel_right₀ (by norm_num) _)
    rw [hvalue] at hnearest
    exact ⟨k, g, hk, hnearest, hround⟩
  · rw [if_neg he]
    obtain ⟨k, g, hk, hnearest, hround⟩ :=
      div_rounded m (10 ^ (-e).toNat) 0 0 hm (Nat.pow_pos (by decide))
    have hvalue : magnitude m 0 / magnitude (10 ^ (-e).toNat) 0 = m * 10 ^ e := by
      rw [magnitude, magnitude, zpow_zero, mul_one, mul_one, zpow_eq_div (by norm_num) e,
        show e.toNat = 0 by omega, pow_zero, mul_one_div, Nat.cast_pow]
      rfl
    rw [hvalue] at hnearest
    exact ⟨k, g, hk, hnearest, hround⟩

/-- The mantissa and the exponent of a natural number stand for it. -/
theorem magnitude_natShift (n : ℕ) : magnitude (n * 2 ^ natShift n) (-natShift n) = n := by
  rw [magnitude, zpow_neg, zpow_natCast]
  push_cast
  exact mul_inv_cancel_right₀ (pow_ne_zero _ two_ne_zero) _

/-- **A natural number is rounded to the nearest number**, which is infinite if it is too large. -/
theorem ofNat_nearest {n : ℕ} (hn : 0 < n) :
    ∃ m e, Canonical m e ∧ Nearest n m e ∧ (Float.ofNat n).toModel.unpack =
      UnpackedFloat.unpack Format.binary64 (UnpackedFloat.pack Format.binary64 (unsigned m e)) := by
  by_cases hsmall : n < 2 ^ 53
  · obtain ⟨hle, hlow, hhigh⟩ := natShift_spec hn hsmall
    have hm : 0 < n * 2 ^ natShift n := Nat.mul_pos hn (Nat.two_pow_pos _)
    have hcanonical : Canonical (n * 2 ^ natShift n) (-natShift n) :=
      ⟨hhigh, by omega, fun _ => hlow⟩
    refine ⟨_, _, hcanonical, ?_, ?_⟩
    · have hself := nearest_self (n * 2 ^ natShift n) (-natShift n)
      rwa [magnitude_natShift] at hself
    · rw [unpack_pack_unsigned hcanonical (by omega), unsigned_of_pos hm]
      exact unpack_ofNat hn hsmall hm
  · have hslow : Float.ofNat n = Float.ofModel (Float.Model.ofScientific n 0) := by
      show Float.ofScientific n false 0 = _
      rw [Float.ofScientific, dif_neg (fun h => hsmall h.1)]
      rfl
    obtain ⟨m, e, hcanonical, hnearest, hround⟩ :=
      scientific_rounded (e := 0) hn (by omega) (by decide)
    rw [zpow_zero, mul_one] at hnearest
    rw [hslow]
    exact ⟨m, e, hcanonical, hnearest,
      congrArg (fun u => UnpackedFloat.unpack _ (UnpackedFloat.pack _ u)) hround⟩

/-- A natural number above zero is at least one, or too large to be finite. -/
theorem unpack_ofNat_cases {n : ℕ} (hn : 0 < n) :
    (Float.ofNat n).toModel.unpack = .infinity .positive ∨
    ∃ m e, ∃ hm : 0 < m, (Float.ofNat n).toModel.unpack = .finite .positive m e hm ∧ Nearest n m e ∧
        1 ≤ magnitude m e := by
  obtain ⟨m, e, hcanonical, hnearest, hunpack⟩ := ofNat_nearest hn
  have hone : magnitude (2 ^ 52) (-52) = 1 := by
    rw [magnitude, zpow_neg]
    push_cast
    exact mul_inv_cancel₀ (by norm_num)
  have hle : 1 ≤ magnitude m e := by
    rw [← hone]
    refine hnearest.le_magnitude_of_le (by decide) (by decide) ?_
    rw [hone]
    exact_mod_cast hn
  have hm : 0 < m := by
    refine Nat.pos_of_ne_zero fun hzero => ?_
    rw [hzero, magnitude, Nat.cast_zero, zero_mul] at hle
    exact absurd hle (by norm_num)
  by_cases he : e ≤ 971
  · right
    rw [unpack_pack_unsigned hcanonical he, unsigned_of_pos hm] at hunpack
    exact ⟨m, e, hm, hunpack, hnearest, hle⟩
  · left
    rw [hunpack, unpack_pack_overflow hm (not_le.mp he)]

/-- A number of 64 bits is finite. -/
theorem unpack_ofNat_finite {n : ℕ} (hn : 0 < n) (h : n < 2 ^ 64) :
    ∃ m e, ∃ hm : 0 < m, (Float.ofNat n).toModel.unpack = .finite .positive m e hm := by
  obtain ⟨m, e, hcanonical, hnearest, hunpack⟩ := ofNat_nearest hn
  have hvalue : magnitude (2 ^ 52) 12 = 2 ^ 64 := by
    rw [magnitude]
    norm_num
  have hle : magnitude m e ≤ magnitude (2 ^ 52) 12 := by
    refine hnearest.magnitude_le_of_le (by decide) (by decide) ?_
    rw [hvalue]
    exact_mod_cast h.le
  have hexponent := hcanonical.exponent_le ⟨by decide, by decide, fun _ => le_rfl⟩ hle
  rcases unpack_ofNat_cases hn with hinfinite | ⟨k, g, hk, hfinite, -⟩
  · rw [unpack_pack_unsigned hcanonical (by omega)] at hunpack
    rw [hunpack, unsigned] at hinfinite
    split at hinfinite <;> cases hinfinite
  · exact ⟨k, g, hk, hfinite⟩

end Slideshow.Decimal

/-! ## Positive lengths -/

namespace Slideshow

open Decimal Scalar Float.Model

section
variable {x y : Float} {m n : ℕ} {e f : ℤ}

/-- The positive lengths are the finite numbers above zero. -/
theorem isPositive_iff : isPositive x = true ↔
    ∃ m e, ∃ hm : 0 < m, x.toModel.unpack = .finite .positive m e hm := by
  have hzero : (zero : Float).toModel.unpack = .zero .positive := rfl
  have hpositive : isPositive x =
      (x.toModel.unpack.isFinite && (UnpackedFloat.zero .positive).lt x.toModel.unpack) := by
    rw [isPositive, isAbove, less_eq, hzero]
    rfl
  rw [hpositive]
  cases x.toModel.unpack with
  | notANumber => exact ⟨fun h => absurd h Bool.false_ne_true, fun ⟨_, _, _, h⟩ => nomatch h⟩
  | infinity s => exact ⟨fun h => absurd h Bool.false_ne_true, fun ⟨_, _, _, h⟩ => nomatch h⟩
  | zero s =>
    exact ⟨fun h => absurd h (by cases s <;> exact Bool.false_ne_true), fun ⟨_, _, _, h⟩ =>
      nomatch h⟩
  | finite s m e hm =>
    cases s with
    | negative => exact ⟨fun h => absurd h Bool.false_ne_true, fun ⟨_, _, _, h⟩ => nomatch h⟩
    | positive => exact ⟨fun _ => ⟨m, e, hm, rfl⟩, fun _ => rfl⟩

/-- Only zero unpacks to zero. -/
theorem eq_zero_of_unpack (h : x.toModel.unpack = .zero .positive) : x = 0 := by
  have hparts : Parts.ofFloat x = .finite false 0 (-1074) := by
    rw [ofFloat_eq, h]
    rfl
  exact ofFloat_inj hparts (by decide)

/-- **A positive number divided by one that is at least one** is positive if the quotient is more
than half of the least positive number, and zero if not. -/
theorem isPositive_div_iff {hm : 0 < m} {hn : 0 < n}
    (hx : x.toModel.unpack = .finite .positive m e hm)
    (hy : y.toModel.unpack = .finite .positive n f hn) (hone : 1 ≤ magnitude n f) :
    (isPositive (x / y) = true ↔ magnitude n f * 2 ^ (-1075 : ℤ) < magnitude m e) ∧
        (isPositive (x / y) = true ∨ x / y = 0) := by
  obtain ⟨k, g, hcanonical, hnearest, hunpack⟩ := div_nearest hx hy
  obtain ⟨hcanonicalX, hexponentX⟩ := canonical_of_unpack hx
  have hpos : 0 < magnitude n f := lt_of_lt_of_le one_pos hone
  have hmagnitude : 0 ≤ magnitude m e := by
    rw [magnitude]
    positivity
  have hquotient : magnitude m e / magnitude n f ≤ magnitude m e := div_le_self hmagnitude hone
  have hle := hnearest.magnitude_le_of_le hcanonicalX.mantissa hcanonicalX.exponent hquotient
  have hexponent : g ≤ 971 := (hcanonical.exponent_le hcanonicalX hle).trans hexponentX
  rw [unpack_pack_unsigned hcanonical hexponent] at hunpack
  have hzero := hnearest.eq_zero_iff hcanonical (div_nonneg hmagnitude hpos.le)
  rw [div_le_iff₀ hpos, mul_comm] at hzero
  rcases Nat.eq_zero_or_pos k with rfl | hk
  · rw [unsigned, dif_pos rfl] at hunpack
    have heq := eq_zero_of_unpack hunpack
    refine ⟨⟨fun h => ?_, fun h => absurd (hzero.mp rfl) h.not_ge⟩, .inr heq⟩
    rw [heq] at h
    exact absurd h (by decide)
  · rw [unsigned_of_pos hk] at hunpack
    have hpositive := isPositive_iff.mpr ⟨k, g, hk, hunpack⟩
    refine ⟨⟨fun _ => ?_, fun _ => hpositive⟩, .inl hpositive⟩
    exact not_le.mp fun h => hk.ne' (hzero.mpr h)

end

end Slideshow
