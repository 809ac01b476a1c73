import Slideshow.Proofs.Arithmetic

/-!
# Rounding keeps the order

What is smaller is rounded to something that is not larger, also when what is too large becomes
infinite. An operation that rounds once what it makes of a number keeps the order with it.

* `Nearly`: a number is the nearest one to a rational, or infinite because that is too large.
* `IsAmount`: a number that is not below zero, or infinite.
* `RoundsOnce`: an operation computes a function that goes up, and rounds once; `RoundsOnce.add`,
  `RoundsOnce.mul`, `RoundsOnce.div`.

Headlines:
* **`Nearest.mono`**, **`Nearly.le`**: rounding keeps the order.
* **`RoundsOnce.le`**: so does an operation that rounds once.
* `IsAmount.le_add`, `Worth.add_small`: a sum is not below its summands, and adding what is small
  makes nothing infinite.
-/

namespace Slideshow.Decimal

open Float.Model Float.Model.UnpackedFloat

/-! ## Nearest numbers -/

section
variable {q r : ℚ} {m n : ℕ} {e f : ℤ}

/-- **Rounding keeps the order.** If not, both would lie half-way between what they are rounded to,
and the same is rounded to one number. -/
theorem Nearest.mono (hm : Canonical m e) (hn : Canonical n f) (h : Nearest q m e)
    (h' : Nearest r n f) (hle : q ≤ r) :
    magnitude m e ≤ magnitude n f := by
  by_contra hgt
  have hlt : magnitude n f < magnitude m e := not_le.mp hgt
  have hnear : |q - magnitude m e| ≤ |q - magnitude n f| :=
    (h n f hn.mantissa hn.exponent hlt.ne).elim le_of_lt fun h => h.1.le
  have hnear' : |r - magnitude n f| ≤ |r - magnitude m e| :=
    (h' m e hm.mantissa hm.exponent hlt.ne').elim le_of_lt fun h => h.1.le
  have habove : magnitude m e + magnitude n f ≤ 2 * q := by
    by_contra hbelow
    refine absurd hnear (not_le.mpr ?_)
    rw [abs_sub_comm q (magnitude m e), abs_of_pos (by linarith : 0 < magnitude m e - q), abs_lt]
    constructor <;> linarith
  have hbelow : 2 * r ≤ magnitude m e + magnitude n f := by
    by_contra habove
    refine absurd hnear' (not_le.mpr ?_)
    rw [abs_of_pos (by linarith : 0 < r - magnitude n f), abs_lt]
    constructor <;> linarith
  obtain rfl : q = r := le_antisymm hle (by linarith)
  exact hgt (h'.magnitude_le hn hm h)

/-- What is less than half a unit above a number is rounded to nothing above it. -/
theorem Nearest.magnitude_le_of_near (hm : Canonical m e) (hn : Canonical n f) (h : Nearest q m e)
    (hq : q < magnitude n f + 2 ^ f / 2) :
    magnitude m e ≤ magnitude n f := by
  rcases le_or_gt q (magnitude n f) with hle | hlt
  · exact h.magnitude_le_of_le hn.mantissa hn.exponent hle
  · have hspacing := spacing_pos n f
    have hlow : magnitude n f - spacing n f / 2 < q := (sub_lt_self _ (half_pos hspacing)).trans hlt
    have hself : Nearest q n f :=
      hn.nearest hlow.le hq.le fun htie => absurd htie (not_or.mpr ⟨hlow.ne', hq.ne⟩)
    exact Nearest.magnitude_le hn hm hself h

/-- A mantissa whose exponent is not the least is not zero. -/
theorem Canonical.pos (h : Canonical m e) (he : -1074 < e) : 0 < m :=
  lt_of_lt_of_le (by decide) (h.full he)

end

/-! ## Amounts -/

/-- The number nearest to a rational; it is infinite if that is too large. -/
def Nearly (x : Float) (q : ℚ) : Prop := ∃ m e, Canonical m e ∧ Nearest q m e ∧ x.toModel.unpack =
  UnpackedFloat.unpack Format.binary64 (UnpackedFloat.pack Format.binary64 (unsigned m e))

/-- A number that is not below zero, or infinite. -/
def IsAmount (x : Float) : Prop := (∃ q, Worth x q) ∨ x.toModel.unpack = .infinity .positive

section
variable {x y z : Float} {p q r : ℚ}

/-- The infinity is not below an amount. -/
theorem IsAmount.le_of_infinite (hx : IsAmount x) (hy : y.toModel.unpack = .infinity .positive) :
    x ≤ y := by
  rw [float_le_iff, hy]
  rcases hx with ⟨p, hworth⟩ | hX
  · rcases hworth.cases with ⟨hX, -⟩ | ⟨m, e, hm, -, hX, -⟩ <;>
      simp [hX, rank, Prod.Lex.toLex_le_toLex]
  · simp [hX, rank]

theorem IsAmount.le_self (hx : IsAmount x) : x ≤ x := by
  rcases hx with ⟨q, hworth⟩ | hX
  · exact (hworth.le_iff hworth).mpr le_rfl
  · exact IsAmount.le_of_infinite (.inr hX) hX

/-- What is at most a number is a number. -/
theorem IsAmount.worth_of_le (hx : IsAmount x) (hy : Worth y q) (hle : x ≤ y) :
    ∃ p, Worth x p ∧ p ≤ q := by
  rcases hx with ⟨p, hworth⟩ | hX
  · exact ⟨p, hworth, (hworth.le_iff hy).mp hle⟩
  · rw [float_le_iff, hX] at hle
    rcases hy.cases with ⟨hY, -⟩ | ⟨n, f, hn, -, hY, -⟩ <;>
      simp [hY, rank, Prod.Lex.toLex_le_toLex] at hle

/-- What is nearest to a rational is the number that it is rounded to, or infinite. -/
theorem Nearly.isAmount (h : Nearly x q) : IsAmount x := by
  obtain ⟨m, e, hm, -, hx⟩ := h
  rcases le_or_gt e 971 with he | he
  · exact .inl ⟨_, m, e, hm, hx.trans (unpack_pack_unsigned hm he), rfl⟩
  · exact .inr (hx.trans (unpack_pack_overflow (hm.pos (by omega)) he))

/-- **Rounding keeps the order**, also beyond the largest number. -/
theorem Nearly.le (hx : Nearly x q) (hy : Nearly y r) (hle : q ≤ r) : x ≤ y := by
  have hamount := hx.isAmount
  obtain ⟨m, e, hm, hnearest, hx⟩ := hx
  obtain ⟨n, f, hn, hnearest', hy⟩ := hy
  have hmagnitude := hnearest.mono hm hn hnearest' hle
  rcases le_or_gt f 971 with hf | hf
  · have he : e ≤ 971 := (hm.exponent_le hn hmagnitude).trans hf
    have hworth : Worth x (magnitude m e) := ⟨m, e, hm, hx.trans (unpack_pack_unsigned hm he), rfl⟩
    exact (hworth.le_iff ⟨n, f, hn, hy.trans (unpack_pack_unsigned hn hf), rfl⟩).mpr hmagnitude
  · exact hamount.le_of_infinite (hy.trans (unpack_pack_overflow (hn.pos (by omega)) hf))

theorem nearly_zero (hx : x.toModel.unpack = .zero .positive) : Nearly x 0 := by
  have hself := nearest_self 0 (-1074)
  rw [magnitude, Nat.cast_zero, zero_mul] at hself
  exact ⟨0, -1074, ⟨by decide, le_rfl, fun h => absurd h (lt_irrefl _)⟩, hself, hx⟩

/-- What a number is worth is rounded to the number. -/
theorem Worth.nearly (h : Worth x q) : Nearly x q := by
  have hpack := h.unpack_pack
  obtain ⟨m, e, hm, hunpack, rfl⟩ := h
  rw [hunpack] at hpack
  exact ⟨m, e, hm, nearest_self m e, hunpack.trans hpack.symm⟩

/-- A natural number is counted as the nearest number. -/
theorem nearly_ofNat (n : ℕ) : Nearly (Float.ofNat n) n := by
  rcases Nat.eq_zero_or_pos n with rfl | hn
  · rw [Nat.cast_zero]
    exact nearly_zero rfl
  · exact ofNat_nearest hn

/-! ## Operations -/

theorem unpack_mul {u v : UnpackedFloat} (hx : x.toModel.unpack = u)
    (h : UnpackedFloat.mul Format.binary64 u y.toModel.unpack = v) :
    (x * y).toModel.unpack =
        UnpackedFloat.unpack Format.binary64 (UnpackedFloat.pack Format.binary64 v) := by
  rw [← h, ← hx]
  rfl

theorem unpack_div {u v : UnpackedFloat} (hx : x.toModel.unpack = u)
    (h : UnpackedFloat.div Format.binary64 u y.toModel.unpack = v) :
    (x / y).toModel.unpack =
        UnpackedFloat.unpack Format.binary64 (UnpackedFloat.pack Format.binary64 v) := by
  rw [← h, ← hx]
  rfl

/-- An operation on amounts computes a function that goes up, and rounds once; infinity stays. -/
structure RoundsOnce (op : Float → Float) (f : ℚ → ℚ) : Prop where
  monotone : Monotone f
  nearly : ∀ {x p}, Worth x p → Nearly (op x) (f p)
  infinite : ∀ {x}, x.toModel.unpack = .infinity .positive →
    (op x).toModel.unpack = .infinity .positive

namespace RoundsOnce

variable {op : Float → Float} {f : ℚ → ℚ}

theorem isAmount (h : RoundsOnce op f) (hx : IsAmount x) : IsAmount (op x) := by
  rcases hx with ⟨p, hworth⟩ | hX
  · exact (h.nearly hworth).isAmount
  · exact .inr (h.infinite hX)

/-- **An operation that rounds once keeps the order.** -/
theorem le (h : RoundsOnce op f) (hx : IsAmount x) (hy : IsAmount y) (hle : x ≤ y) :
    op x ≤ op y := by
  rcases hy with ⟨q, hworth'⟩ | hY
  · obtain ⟨p, hworth, hpq⟩ := hx.worth_of_le hworth' hle
    exact (h.nearly hworth).le (h.nearly hworth') (h.monotone hpq)
  · exact (h.isAmount hx).le_of_infinite (h.infinite hY)

/-- An operation is known by what it makes of zero, of the numbers above it, and of the infinity. -/
theorem of_kinds (hmonotone : Monotone f) (hf : f 0 = 0)
    (hzero : ∀ {x}, x.toModel.unpack = .zero .positive → (op x).toModel.unpack = .zero .positive)
    (hfinite : ∀ {x m e} {hm : 0 < m}, x.toModel.unpack = .finite .positive m e hm →
      Nearly (op x) (f (magnitude m e)))
    (hinfinite : ∀ {x}, x.toModel.unpack = .infinity .positive →
      (op x).toModel.unpack = .infinity .positive) :
    RoundsOnce op f where
  monotone := hmonotone
  nearly := by
    intro x p hx
    rcases hx.cases with ⟨hX, rfl⟩ | ⟨m, e, hm, -, hX, rfl⟩
    · rw [hf]
      exact nearly_zero (hzero hX)
    · exact hfinite hX
  infinite := hinfinite

/-- Multiplying by a positive number rounds once. -/
theorem mul (hy : Worth y q) (hq : 0 < q) : RoundsOnce (· * y) (· * q) := by
  obtain ⟨n, f, hn, -, hY, rfl⟩ := hy.of_pos hq
  have hzero : UnpackedFloat.mul Format.binary64 (.zero .positive) y.toModel.unpack =
    .zero .positive := hY ▸ rfl
  have hinfinite : UnpackedFloat.mul Format.binary64 (.infinity .positive) y.toModel.unpack =
    .infinity .positive := hY ▸ rfl
  exact of_kinds (fun _ _ hab => mul_le_mul_of_nonneg_right hab hq.le) (zero_mul _)
    (fun hX => unpack_mul hX hzero)
    (fun hX => mul_nearest hX hY) fun hX => unpack_mul hX hinfinite

/-- Dividing by a positive number rounds once. -/
theorem div (hy : Worth y q) (hq : 0 < q) : RoundsOnce (· / y) (· / q) := by
  obtain ⟨n, f, hn, -, hY, rfl⟩ := hy.of_pos hq
  have hzero : UnpackedFloat.div Format.binary64 (.zero .positive) y.toModel.unpack =
    .zero .positive := hY ▸ rfl
  have hinfinite : UnpackedFloat.div Format.binary64 (.infinity .positive) y.toModel.unpack =
    .infinity .positive := hY ▸ rfl
  exact of_kinds (fun _ _ hab => div_le_div_of_nonneg_right hab hq.le) (zero_div _)
    (fun hX => unpack_div hX hzero)
    (fun hX => div_nearest hX hY) fun hX => unpack_div hX hinfinite

/-- Adding a positive number rounds once. -/
theorem add (hy : Worth y q) (hq : 0 < q) : RoundsOnce (· + y) (· + q) where
  monotone := fun _ _ hab => add_le_add_left hab q
  nearly := by
    intro x p hx
    have hsum : (x + y).toModel.unpack = UnpackedFloat.unpack Format.binary64
        (UnpackedFloat.pack Format.binary64
          (UnpackedFloat.add Format.binary64 x.toModel.unpack y.toModel.unpack)) := rfl
    obtain ⟨n, f, hn, -, hY, rfl⟩ := hy.of_pos hq
    rcases hx.cases with ⟨hX, rfl⟩ | ⟨m, e, hm, -, hX, rfl⟩
    · have hright : UnpackedFloat.add Format.binary64 (.zero .positive) y.toModel.unpack =
        y.toModel.unpack := hY ▸ rfl
      rw [hX, hright, hy.unpack_pack] at hsum
      show Nearly (x + y) (0 + _)
      rw [zero_add]
      exact (hy.of_unpack hsum).nearly
    · exact add_nearest hX hY
  infinite := by
    intro x hX
    obtain ⟨n, f, hn, -, hY, -⟩ := hy.of_pos hq
    have hinfinite : UnpackedFloat.add Format.binary64 (.infinity .positive) y.toModel.unpack =
      .infinity .positive := hY ▸ rfl
    show UnpackedFloat.unpack
      _ (UnpackedFloat.pack _ (UnpackedFloat.add _ x.toModel.unpack y.toModel.unpack)) = _
    rw [hX, hinfinite]
    rfl

end RoundsOnce

/-- **A sum is not below its first summand.** -/
theorem IsAmount.le_add (hx : IsAmount x) (hy : Worth y q) (hq : 0 < q) : x ≤ x + y := by
  have hadd := RoundsOnce.add hy hq
  rcases hx with ⟨p, hworth⟩ | hX
  · exact hworth.nearly.le (hadd.nearly hworth) (le_add_of_nonneg_right hq.le)
  · exact IsAmount.le_of_infinite (.inr hX) (hadd.infinite hX)

/-- **Adding what is small makes nothing infinite**: it is rounded away where the numbers end. -/
theorem Worth.add_small (hx : Worth x p) (hy : Worth y q) (hq : 0 < q)
    (hsmall : q < 2 ^ (971 : ℤ) / 2) :
    ∃ r, Worth (x + y) r ∧ p ≤ r := by
  have hmost : Canonical (2 ^ 53 - 1) 971 := ⟨by decide, by decide, fun _ => by decide⟩
  obtain ⟨m, e, hm, hnearest, hunpack⟩ := (RoundsOnce.add hy hq).nearly hx
  have hsum : p + q < magnitude (2 ^ 53 - 1) 971 + 2 ^ (971 : ℤ) / 2 :=
    add_lt_add_of_le_of_lt hx.le_largest hsmall
  have hle := hnearest.magnitude_le_of_near hm hmost hsum
  have he : e ≤ 971 := hm.exponent_le hmost hle
  refine ⟨magnitude m e, ⟨m, e, hm, hunpack.trans (unpack_pack_unsigned hm he), rfl⟩, ?_⟩
  obtain ⟨n, f, hn, -, rfl⟩ := hx
  exact hnearest.le_magnitude_of_le hn.mantissa hn.exponent (le_add_of_nonneg_right hq.le)

end

end Slideshow.Decimal
