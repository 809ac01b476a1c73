import Mathlib.Data.Prod.Lex
import Slideshow.Encode.Progress
import Slideshow.Proofs.Binary

/-!
# The order of binary floating point numbers

Comparing two numbers compares where they stand in a linear order, except that something that is no
number stands nowhere. All laws of the comparisons follow from that.

Headlines:
* **`lt_iff_rank`**, **`le_iff_rank`**: the comparisons are those of the ranks.
* `eq_one`: only one number is neither below nor above one.
* **`clamp_within`**, **`clamp_mono`**: what is moved into a window lies in it, and moving keeps the
  order.
-/

namespace Slideshow.Decimal

open Float.Model Float.Model.UnpackedFloat

/-- Where a number stands: by its kind and sign, then by its exponent, then by its mantissa. -/
def rank : UnpackedFloat → Option (ℤ ×ₗ ℤ ×ₗ ℤ)
  | .notANumber => none
  | .infinity .negative => some (toLex (-2, toLex (0, 0)))
  | .finite .negative m e _ => some (toLex (-1, toLex (-e, -m)))
  | .zero _ => some (toLex (0, toLex (0, 0)))
  | .finite .positive m e _ => some (toLex (1, toLex (e, m)))
  | .infinity .positive => some (toLex (2, toLex (0, 0)))

theorem then_eq_gt_iff (m n : Nat) (e f : Int) :
    (compare e f).then (compare m n) = .gt ↔ f < e ∨ e = f ∧ n < m := by
  rw [Ordering.then_eq_gt, compare_gt_iff_gt, compare_eq_iff_eq, compare_gt_iff_gt]

theorem isLE_then_iff (m n : Nat) (e f : Int) :
    ((compare e f).then (compare m n)).isLE = true ↔ e < f ∨ e = f ∧ m ≤ n := by
  rw [← Ordering.ne_gt_iff_isLE, then_eq_gt_iff]
  omega

theorem isGE_then_iff (m n : Nat) (e f : Int) :
    ((compare e f).then (compare m n)).isGE = true ↔ f < e ∨ e = f ∧ n ≤ m := by
  rw [← Ordering.ne_lt_iff_isGE, Ordering.then_eq_lt, compare_lt_iff_lt, compare_eq_iff_eq,
    compare_lt_iff_lt]
  omega

/-- **A number is below another one if its rank is.** -/
theorem lt_iff_rank (x y : UnpackedFloat) :
    x.lt y = true ↔ ∃ a b, rank x = some a ∧ rank y = some b ∧ a < b := by
  rcases x with (_ | _) | _ | _ | ⟨_ | _, m, e, hm⟩ <;>
    rcases y with (_ | _) | _ | _ | ⟨_ | _, n, f, hn⟩ <;>
    simp [UnpackedFloat.lt, UnpackedFloat.compare, rank, Prod.Lex.toLex_lt_toLex,
      Ordering.then_eq_lt, then_eq_gt_iff, compare_lt_iff_lt]
  rfl

/-- **A number is not above another one if its rank is not.** -/
theorem le_iff_rank (x y : UnpackedFloat) :
    x.le y = true ↔ ∃ a b, rank x = some a ∧ rank y = some b ∧ a ≤ b := by
  rcases x with (_ | _) | _ | _ | ⟨_ | _, m, e, hm⟩ <;>
    rcases y with (_ | _) | _ | _ | ⟨_ | _, n, f, hn⟩ <;>
    simp [UnpackedFloat.le, UnpackedFloat.compare, rank, Prod.Lex.toLex_le_toLex, isLE_then_iff,
      isGE_then_iff]
  all_goals rfl

/-- Only the number one unpacks to its mantissa and exponent. -/
theorem eq_one_of_unpack {x : Float} {h : 0 < 2 ^ 52}
    (hx : x.toModel.unpack = .finite .positive (2 ^ 52) (-52) h) : x = 1 := by
  have hparts : Parts.ofFloat x = .finite false (2 ^ 52) (-52) := by
    rw [ofFloat_eq, hx]
    rfl
  exact ofFloat_inj hparts (by decide)

end Slideshow.Decimal

/-! ## Laws of the comparisons -/

namespace Slideshow

open Decimal Scalar Float.Model

section
variable {x y z : Float}

theorem float_lt_iff : x < y ↔ ∃ a b, rank x.toModel.unpack = some a ∧
    rank y.toModel.unpack = some b ∧ a < b := by
  rw [← lt_iff_rank]
  exact decide_eq_true_iff

theorem float_le_iff : x ≤ y ↔ ∃ a b, rank x.toModel.unpack = some a ∧
    rank y.toModel.unpack = some b ∧ a ≤ b := by
  rw [← le_iff_rank]
  exact decide_eq_true_iff

theorem float_le_of_lt (h : x < y) : x ≤ y := by
  obtain ⟨a, b, ha, hb, hab⟩ := float_lt_iff.mp h
  exact float_le_iff.mpr ⟨a, b, ha, hb, hab.le⟩

theorem float_le_trans (h : x ≤ y) (k : y ≤ z) : x ≤ z := by
  obtain ⟨a, b, ha, hb, hab⟩ := float_le_iff.mp h
  obtain ⟨b', c, hb', hc, hbc⟩ := float_le_iff.mp k
  obtain rfl : b = b' := Option.some.inj (hb.symm.trans hb')
  exact float_le_iff.mpr ⟨a, c, ha, hc, hab.trans hbc⟩

theorem float_lt_of_le_of_lt (h : x ≤ y) (k : y < z) : x < z := by
  obtain ⟨a, b, ha, hb, hab⟩ := float_le_iff.mp h
  obtain ⟨b', c, hb', hc, hbc⟩ := float_lt_iff.mp k
  obtain rfl : b = b' := Option.some.inj (hb.symm.trans hb')
  exact float_lt_iff.mpr ⟨a, c, ha, hc, hab.trans_lt hbc⟩

theorem float_lt_of_lt_of_le (h : x < y) (k : y ≤ z) : x < z := by
  obtain ⟨a, b, ha, hb, hab⟩ := float_lt_iff.mp h
  obtain ⟨b', c, hb', hc, hbc⟩ := float_le_iff.mp k
  obtain rfl : b = b' := Option.some.inj (hb.symm.trans hb')
  exact float_lt_iff.mpr ⟨a, c, ha, hc, hab.trans_le hbc⟩

/-- What compares at all and is not above is at most that. -/
theorem float_le_of_not_lt (hx : x ≤ x) (hy : y ≤ y) (h : ¬y < x) : x ≤ y := by
  obtain ⟨a, -, ha, -⟩ := float_le_iff.mp hx
  obtain ⟨b, -, hb, -⟩ := float_le_iff.mp hy
  exact float_le_iff.mpr
    ⟨a, b, ha, hb, not_lt.mp fun hba => h (float_lt_iff.mpr ⟨b, a, hb, ha, hba⟩)⟩

theorem float_refl (h : x ≤ y) : y ≤ y := by
  obtain ⟨-, b, -, hb, -⟩ := float_le_iff.mp h
  exact float_le_iff.mpr ⟨b, b, hb, hb, le_rfl⟩

theorem float_refl_left (h : x ≤ y) : x ≤ x := by
  obtain ⟨a, -, ha, -⟩ := float_le_iff.mp h
  exact float_le_iff.mpr ⟨a, a, ha, ha, le_rfl⟩

theorem float_not_lt (h : x ≤ y) : ¬y < x := fun k => by
  obtain ⟨a, b, ha, hb, hab⟩ := float_le_iff.mp h
  obtain ⟨b', a', hb', ha', hba⟩ := float_lt_iff.mp k
  obtain rfl : a = a' := Option.some.inj (ha.symm.trans ha')
  obtain rfl : b = b' := Option.some.inj (hb.symm.trans hb')
  exact hab.not_gt hba

/-- A finite number compares. -/
theorem float_le_self (h : x.isFinite = true) : x ≤ x := by
  have hx : x.toModel.unpack.isFinite = true := h
  have hrank : ∃ a, rank x.toModel.unpack = some a := by
    cases hu : x.toModel.unpack with
    | notANumber =>
      rw [hu] at hx
      cases hx
    | infinity s =>
      rw [hu] at hx
      cases hx
    | zero s => exact ⟨_, rfl⟩
    | finite s m e hm => cases s <;> exact ⟨_, rfl⟩
  obtain ⟨a, ha⟩ := hrank
  exact float_le_iff.mpr ⟨a, a, ha, ha, le_rfl⟩

/-- What compares at all and is not at most another one is above it. -/
theorem float_lt_of_not_le (hx : x ≤ x) (hy : y ≤ y) (h : ¬y ≤ x) : x < y := by
  obtain ⟨a, -, ha, -⟩ := float_le_iff.mp hx
  obtain ⟨b, -, hb, -⟩ := float_le_iff.mp hy
  exact float_lt_iff.mpr
    ⟨a, b, ha, hb, not_le.mp fun hba => h (float_le_iff.mpr ⟨b, a, hb, ha, hba⟩)⟩

theorem float_not_le (h : x < y) : ¬y ≤ x := fun k => float_not_lt k h

theorem float_one_le_one : (1 : Float) ≤ 1 := by decide

theorem float_zero_le_zero : (0 : Float) ≤ 0 := by decide

theorem float_zero_le_one : (0 : Float) ≤ 1 := by decide

/-- **Only one is at most one and not below it.** -/
theorem eq_one (h : x ≤ 1) (h' : ¬x < 1) : x = 1 := by
  obtain ⟨a, b, ha, hb, hab⟩ := float_le_iff.mp h
  have hx : rank x.toModel.unpack = rank (1 : Float).toModel.unpack := by
    rw [ha, hb]
    exact congrArg some
      (le_antisymm hab (not_lt.mp fun k => h' (float_lt_iff.mpr ⟨a, b, ha, hb, k⟩)))
  -- the rank of one is taken by one number alone, unlike that of zero
  have hone : rank (1 : Float).toModel.unpack = some (toLex (1, toLex (-52, 2 ^ 52))) := rfl
  rw [hone] at hx
  cases hu : x.toModel.unpack with
  | notANumber => simp [hu, rank] at hx
  | infinity s => cases s <;> simp [hu, rank] at hx
  | zero s => simp [hu, rank] at hx
  | finite s m e hm =>
    cases s with
    | negative => simp [hu, rank] at hx
    | positive =>
      simp only [hu, rank, Option.some.injEq, EmbeddingLike.apply_eq_iff_eq, Prod.mk.injEq,
        true_and] at hx
      obtain ⟨rfl, hm'⟩ := hx
      obtain rfl : m = 2 ^ 52 := by exact_mod_cast hm'
      exact eq_one_of_unpack hu

theorem isNaN_of_le (h : x ≤ y) : isNaN x = false := by
  obtain ⟨a, -, ha, -⟩ := float_le_iff.mp h
  show x.toModel.unpack.isNaN = false
  cases hu : x.toModel.unpack with
  | notANumber => simp [hu, rank] at ha
  | _ => rfl

/-- The smaller of one and what is at most one. -/
theorem minimum_one (h : x ≤ 1) : minimum x 1 = x := by
  have hless : less (1 : Float) x = false := decide_eq_false (float_not_lt h)
  rw [minimum, isNaN_of_le h, hless, if_neg Bool.false_ne_true, if_neg Bool.false_ne_true, ite_self]

/-- What is larger than something and was moved between zero and one is at most one. -/
theorem clamp_le_one (h : z < clamp x 0 1) : clamp x 0 1 ≤ 1 := by
  refine float_le_of_not_lt (float_refl (float_le_of_lt h)) float_one_le_one ?_
  unfold clamp
  split
  · decide
  · split
    · decide
    · next hx => exact fun k => hx (decide_eq_true k)

end

/-! ## Windows -/

section
variable {x y low high : Float} (hwindow : low ≤ high)

include hwindow

/-- What compares is moved to the end that it is beyond. -/
theorem clamp_cases (hx : x ≤ x) :
    x < low ∧ clamp x low high = low ∨ (low ≤ x ∧ x ≤ high) ∧ clamp x low high = x ∨
    high < x ∧ clamp x low high = high := by
  by_cases hbelow : x < low
  · exact .inl ⟨hbelow, if_pos (decide_eq_true hbelow)⟩
  · have hnot : ¬less x low = true := fun h => hbelow (of_decide_eq_true h)
    right
    by_cases habove : high < x
    · exact .inr ⟨habove, by rw [clamp, if_neg hnot]; exact if_pos (decide_eq_true habove)⟩
    · refine .inl ⟨⟨float_le_of_not_lt (float_refl_left hwindow) hx hbelow,
        float_le_of_not_lt hx (float_refl hwindow) habove⟩, ?_⟩
      rw [clamp, if_neg hnot]
      exact if_neg fun h => habove (of_decide_eq_true h)

/-- **What is moved into a window lies in it.** -/
theorem clamp_within (hx : x ≤ x) : low ≤ clamp x low high ∧ clamp x low high ≤ high := by
  rcases clamp_cases hwindow hx with ⟨-, heq⟩ | ⟨hwithin, heq⟩ | ⟨-, heq⟩ <;> rw [heq]
  · exact ⟨float_refl_left hwindow, hwindow⟩
  · exact hwithin
  · exact ⟨hwindow, float_refl hwindow⟩

/-- **Moving into a window keeps the order.** -/
theorem clamp_mono (hle : x ≤ y) : clamp x low high ≤ clamp y low high := by
  have hy := float_refl hle
  rcases clamp_cases hwindow
    (float_refl_left hle) with ⟨-, heq⟩ | ⟨hwithin, heq⟩ | ⟨habove, heq⟩ <;> rw [heq]
  · exact (clamp_within hwindow hy).1
  · rcases clamp_cases hwindow hy with ⟨hbelow, heq'⟩ | ⟨-, heq'⟩ | ⟨-, heq'⟩ <;> rw [heq']
    · exact absurd (float_lt_of_le_of_lt hle hbelow) (float_not_lt hwithin.1)
    · exact hle
    · exact hwithin.2
  · have hbeyond := float_lt_of_lt_of_le habove hle
    rcases clamp_cases hwindow hy with ⟨hbelow, -⟩ | ⟨hwithin', -⟩ | ⟨-, heq'⟩
    · exact absurd hbelow (float_not_lt (float_le_of_lt (float_lt_of_le_of_lt hwindow hbeyond)))
    · exact absurd hbeyond (float_not_lt hwithin'.2)
    · rw [heq']
      exact float_refl hwindow

end

end Slideshow
