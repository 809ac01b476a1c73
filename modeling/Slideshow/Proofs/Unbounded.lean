import Slideshow.Proofs.Monotone

/-!
# Rounding beyond the largest number

What is too large is rounded as if there were larger numbers, and becomes infinite then. So the
roundings of a longer calculation can be followed without asking at each step whether it has left
the numbers: what never falls cannot come back, and the end tells.

* `exists_rounds`: everything that is not below zero is rounded to something; `Rounds.near` says how
  far that is.
* `Holds`: a number is what a rational is packed to that needs no rounding; `Counts`: that, or the
  negative zero.

Headlines:
* **`Holds.cases`**: a number holds what it is worth, or something too large.
* **`Holds.mul`**, **`Holds.add`**: multiplying and adding round once, also beyond the largest
  number.
-/

namespace Slideshow.Decimal

open Float.Model Float.Model.UnpackedFloat

/-! ## Numbers that may be too large -/

section
variable {x y : Float} {p q r s : ℚ}

theorem exists_nearest (hq : 0 ≤ q) : ∃ m e, Canonical m e ∧ Nearest q m e := by
  obtain ⟨t, ht, rfl⟩ : ∃ t : ℚ, 0 ≤ t ∧ t * 2 ^ (-1074 : ℤ) = q :=
    ⟨q / 2 ^ (-1074 : ℤ), div_nonneg hq (by positivity), div_mul_cancel₀ q (by positivity)⟩
  obtain ⟨m, e, hm, hnearest, -⟩ := round_nearest t.num.toNat t.pos (.inr (le_refl (-1074)))
  have hnum : (t.num.toNat : ℚ) = t.num := by
    exact_mod_cast Int.toNat_of_nonneg (Rat.num_nonneg.mpr ht)
  rw [hnum, Rat.num_div_den] at hnearest
  exact ⟨m, e, hm, hnearest⟩

theorem exists_rounds (hq : 0 ≤ q) : ∃ r, Rounds q r := by
  obtain ⟨m, e, hm, hnearest⟩ := exists_nearest hq
  exact ⟨_, m, e, hm, hnearest, rfl⟩

theorem Rounds.mono (h : Rounds p r) (h' : Rounds q s) (hle : p ≤ q) : r ≤ s := by
  obtain ⟨m, e, hm, hnearest, rfl⟩ := h
  obtain ⟨n, f, hn, hnearest', rfl⟩ := h'
  exact hnearest.mono hm hn hnearest' hle

theorem Rounds.nonneg (h : Rounds q r) : 0 ≤ r := by
  obtain ⟨m, e, -, -, rfl⟩ := h
  exact magnitude_nonneg m e

/-- What is rounded to is rounded to itself. -/
theorem Rounds.self (h : Rounds q r) : Rounds r r := by
  obtain ⟨m, e, hm, -, rfl⟩ := h
  exact ⟨m, e, hm, nearest_self m e, rfl⟩

theorem Rounds.unique (h : Rounds q r) (h' : Rounds q s) : r = s :=
  le_antisymm (h.mono h' le_rfl) (h'.mono h le_rfl)

/-- One unit above a number is a number, if there is no largest one. -/
theorem Canonical.exists_next {m : ℕ} {e : ℤ} (h : Canonical m e) :
    ∃ n f, n < 2 ^ 53 ∧ -1074 ≤ f ∧ magnitude n f = magnitude m e + 2 ^ e := by
  by_cases hlast : m + 1 < 2 ^ 53
  · exact ⟨m + 1, e, hlast, h.exponent, magnitude_succ m e⟩
  · have hmantissa := h.mantissa
    have hexponent := h.exponent
    obtain rfl : m = 2 ^ 53 - 1 := by omega
    refine ⟨2 ^ 52, e + 1, by decide, by omega, ?_⟩
    rw [← magnitude_succ, magnitude_of_le _ (show e ≤ e + 1 by omega), show (e + 1 - e).toNat = 1 by
      omega]
    rfl

/-- What is nearest to a number is at most half a unit away: the numbers beside it are not
nearer. -/
theorem Nearest.le_half {m : ℕ} {e : ℤ} (h : Nearest q m e) (hm : Canonical m e) (hq : 0 ≤ q) :
    |magnitude m e - q| ≤ 2 ^ e / 2 := by
  have hunit : (0 : ℚ) < 2 ^ e := by positivity
  have hless : ∀ {n f}, n < 2 ^ 53 → -1074 ≤ f → magnitude n f ≠ magnitude m e →
      |q - magnitude m e| ≤ |q - magnitude n f| :=
    fun hn hf hne => (h _ _ hn hf hne).elim le_of_lt fun h => h.1.le
  rw [abs_le]
  constructor
  · obtain ⟨n, f, hn, hf, hnext⟩ := hm.exists_next
    have habove := hless hn hf (by rw [hnext]; linarith)
    rw [hnext] at habove
    by_contra hfar
    rw [abs_of_pos (by linarith : (0 : ℚ) < q - magnitude m e), le_abs] at habove
    rcases habove with habove | habove <;> linarith
  · by_contra hfar
    have hpos : 0 < m := by
      refine Nat.pos_of_ne_zero fun hzero => hfar ?_
      rw [hzero, magnitude, Nat.cast_zero, zero_mul]
      linarith
    obtain ⟨n, rfl⟩ : ∃ n, m = n + 1 := ⟨m - 1, by omega⟩
    have hsucc := magnitude_succ n e
    have hbelow :=
      hless ((Nat.lt_succ_self n).trans hm.mantissa) hm.exponent (by rw [hsucc]; linarith)
    rw [hsucc] at hbelow hfar
    rw [abs_of_neg (by linarith : q - (magnitude n e + 2 ^ e) < 0), le_abs] at hbelow
    rcases hbelow with hbelow | hbelow <;> linarith

/-- **Rounding changes a number by half of its last bit at most**: a part of it, or half of the
least positive number. -/
theorem Rounds.near (h : Rounds q r) (hq : 0 ≤ q) : |r - q| ≤ r / 2 ^ 53 + 2 ^ (-1075 : ℤ) := by
  obtain ⟨m, e, hm, hnearest, rfl⟩ := h
  refine (hnearest.le_half hm hq).trans ?_
  rcases lt_or_eq_of_le hm.exponent with he | rfl
  · have hfull : (2 ^ 52 : ℚ) ≤ m := by exact_mod_cast hm.full he
    have hunit : (0 : ℚ) < 2 ^ e := by positivity
    have hlast : 2 ^ e / 2 ≤ magnitude m e / 2 ^ 53 := by
      rw [magnitude, div_le_div_iff₀ (by norm_num) (by norm_num)]
      nlinarith
    have hleast : (0 : ℚ) < 2 ^ (-1075 : ℤ) := by positivity
    linarith
  · have hleast := two_zpow_least
    have hpart : 0 ≤ magnitude m (-1074) / 2 ^ 53 :=
      div_nonneg (magnitude_nonneg _ _) (by positivity)
    linarith

/-- A number is what a rational is packed to that needs no rounding. -/
def Holds (x : Float) (q : ℚ) : Prop :=
  ∃ m e, Canonical m e ∧ magnitude m e = q ∧ x.toModel.unpack =
  UnpackedFloat.unpack Format.binary64 (UnpackedFloat.pack Format.binary64 (unsigned m e))

theorem Nearly.holds (h : Nearly x q) : ∃ r, Rounds q r ∧ Holds x r := by
  obtain ⟨m, e, hm, hnearest, hx⟩ := h
  exact ⟨_, ⟨m, e, hm, hnearest, rfl⟩, m, e, hm, rfl, hx⟩

theorem Worth.holds (h : Worth x q) : Holds x q := by
  obtain ⟨r, hr, hx⟩ := h.nearly.holds
  exact hr.unique h.rounds ▸ hx

theorem Holds.rounds (h : Holds x q) : Rounds q q := by
  obtain ⟨m, e, hm, rfl, -⟩ := h
  exact ⟨m, e, hm, nearest_self m e, rfl⟩

theorem Holds.nonneg (h : Holds x q) : 0 ≤ q := by
  obtain ⟨m, e, -, rfl, -⟩ := h
  exact magnitude_nonneg m e

/-- **A number holds what it is worth, or something too large.** -/
theorem Holds.cases (h : Holds x q) :
    Worth x q ∨ largest < q ∧ x.toModel.unpack = .infinity .positive := by
  obtain ⟨m, e, hm, rfl, hx⟩ := h
  rcases le_or_gt e 971 with he | he
  · exact .inl ⟨m, e, hm, hx.trans (unpack_pack_unsigned hm he), rfl⟩
  · exact .inr ⟨magnitude_lt_of_lt (hm.full (by omega)) (by decide) he,
      hx.trans (unpack_pack_overflow (hm.pos (by omega)) he)⟩

/-- The infinity holds everything that is too large and needs no rounding. -/
theorem holds_of_infinite (hx : x.toModel.unpack = .infinity .positive) (h : Rounds q q)
    (hq : largest < q) : Holds x q := by
  obtain ⟨m, e, hm, -, rfl⟩ := h
  have he : 971 < e := by
    by_contra hle
    rcases lt_or_eq_of_le (not_lt.mp hle) with hlt | rfl
    · exact absurd (magnitude_lt_of_lt (show 2 ^ 52 ≤ 2 ^ 53 - 1 by decide) hm.mantissa hlt)
        hq.not_gt
    · exact absurd (magnitude_le_magnitude.mpr (Nat.le_sub_one_of_lt hm.mantissa)) hq.not_ge
  exact ⟨m, e, hm, rfl, hx.trans (unpack_pack_overflow (hm.pos (by omega)) he).symm⟩

/-- What grows beyond something too large stays infinite. -/
theorem exists_holds_of_infinite (hx : x.toModel.unpack = .infinity .positive) (hp : Rounds p p)
    (hlarge : largest < p) (hle : p ≤ q) :
    ∃ r, Rounds q r ∧ Holds x r := by
  obtain ⟨r, hr⟩ := exists_rounds (((magnitude_nonneg _ _).trans hlarge.le).trans hle)
  exact ⟨r, hr, holds_of_infinite hx hr.self (hlarge.trans_le (hp.mono hr hle))⟩

/-- **Multiplying rounds once**, also beyond the largest number. -/
theorem Holds.mul (hx : Holds x p) (hy : Worth y q) (hq : 1 ≤ q) :
    ∃ r, Rounds (p * q) r ∧ Holds (x * y) r := by
  have hmul := RoundsOnce.mul hy (one_pos.trans_le hq)
  rcases hx.cases with hworth | ⟨hlarge, hX⟩
  · exact (hmul.nearly hworth).holds
  · exact exists_holds_of_infinite (hmul.infinite hX) hx.rounds hlarge
      (le_mul_of_one_le_right hx.nonneg hq)

theorem unpack_add {u v : UnpackedFloat} (hx : x.toModel.unpack = u)
    (h : UnpackedFloat.add Format.binary64 u y.toModel.unpack = v) :
    (x + y).toModel.unpack =
        UnpackedFloat.unpack Format.binary64 (UnpackedFloat.pack Format.binary64 v) := by
  rw [← h, ← hx]
  rfl

/-- **Adding rounds once**, also beyond the largest number. -/
theorem Holds.add (hx : Holds x p) (hy : Holds y q) : ∃ r, Rounds (p + q) r ∧ Holds (x + y) r := by
  rcases hx.cases with hp | ⟨hlarge, hX⟩
  · rcases hy.cases with hq | ⟨hlarge, hY⟩
    · rcases hq.nonneg.eq_or_lt with rfl | hpos
      · obtain ⟨r, hworth, hr⟩ := hp.add hq (by rw [add_zero]; exact hp.le_largest)
        exact ⟨r, hr, hworth.holds⟩
      · exact ((RoundsOnce.add hq hpos).nearly hp).holds
    · have hinfinite : UnpackedFloat.add Format.binary64 x.toModel.unpack y.toModel.unpack =
          .infinity .positive := by
        rcases hp.cases with ⟨hX, -⟩ | ⟨m, e, hm, -, hX, -⟩ <;> rw [hX, hY] <;> rfl
      exact exists_holds_of_infinite (unpack_add rfl hinfinite) hy.rounds hlarge
        (le_add_of_nonneg_left hx.nonneg)
  · have hinfinite : UnpackedFloat.add Format.binary64 (.infinity .positive) y.toModel.unpack =
        .infinity .positive := by
      rcases hy.cases with hq | ⟨-, hY⟩
      · rcases hq.cases with ⟨hY, -⟩ | ⟨m, e, hm, -, hY, -⟩ <;> rw [hY] <;> rfl
      · rw [hY]
        rfl
    exact exists_holds_of_infinite (unpack_add hX hinfinite) hx.rounds hlarge
      (le_add_of_nonneg_right hy.nonneg)

end

/-! ## Numbers that are not below zero -/

section
variable {x y : Float} {p q r : ℚ}

theorem unpack_neg {m : ℕ} {e : ℤ} {hm : 0 < m} (h : x.toModel.unpack = .finite .positive m e hm) :
    (-x).toModel.unpack = .finite .negative m e hm := by
  obtain ⟨hcanonical, he⟩ := canonical_of_unpack h
  show UnpackedFloat.unpack _ (UnpackedFloat.pack _ x.toModel.unpack.neg) = _
  rw [h]
  exact unpack_pack_finite hm hcanonical he

/-- A number holds a rational, or is the negative zero. -/
def Counts (x : Float) (q : ℚ) : Prop := Holds x q ∨ x.toModel.unpack = .zero .negative ∧ q = 0

theorem Counts.rounds (h : Counts x q) : Rounds q q := by
  rcases h with hx | ⟨-, rfl⟩
  · exact hx.rounds
  · exact worth_zero.rounds

theorem Counts.zero_le (h : Counts x q) : 0 ≤ x := by
  rw [float_le_iff]
  rcases h with hx | ⟨hX, -⟩
  · rcases hx.cases with hworth | ⟨-, hX⟩
    · exact float_le_iff.mp ((worth_zero.le_iff hworth).mpr hworth.nonneg)
    · exact float_le_iff.mp (IsAmount.le_of_infinite (.inl ⟨0, worth_zero⟩) hX)
  · exact ⟨_, _, rfl, by rw [hX]; rfl, le_rfl⟩

/-- A zero with a minus is the negative zero. -/
theorem Holds.neg (h : Holds x 0) : Counts (-x) 0 := by
  refine .inr ⟨?_, rfl⟩
  show UnpackedFloat.unpack _ (UnpackedFloat.pack _ x.toModel.unpack.neg) = _
  rcases h.cases with hworth | ⟨hlarge, -⟩
  · rcases hworth.cases with ⟨hX, -⟩ | ⟨m, e, hm, -, -, hzero⟩
    · rw [hX]
      rfl
    · have hpositive : 0 < magnitude m e := by
        rw [magnitude]
        positivity
      exact absurd hzero hpositive.ne'
  · exact absurd (magnitude_nonneg _ _) hlarge.not_ge

/-- Everything else falls below zero when its sign is changed. -/
theorem Holds.eq_zero_of_neg (h : Holds x q) (hle : 0 ≤ -x) : q = 0 := by
  have hbelow : ∀ {u}, (-x).toModel.unpack = u →
      (∀ b, rank u = some b → b < toLex (0, toLex (0, 0))) → False := by
    intro u hu hrank
    obtain ⟨a, b, ha, hb, hab⟩ := float_le_iff.mp hle
    obtain rfl : toLex (0, toLex (0, 0)) = a := Option.some.inj ha
    exact absurd hab (hrank b (hu ▸ hb)).not_ge
  rcases h.cases with hworth | ⟨-, hX⟩
  · rcases hworth.cases with ⟨-, rfl⟩ | ⟨m, e, hm, -, hX, -⟩
    · rfl
    · refine (hbelow (unpack_neg hX) fun b hb => ?_).elim
      obtain rfl := Option.some.inj hb
      exact Prod.Lex.toLex_lt_toLex.mpr (.inl (Int.negSucc_lt_zero _))
  · have hnegative : (-x).toModel.unpack = .infinity .negative := by
      show UnpackedFloat.unpack _ (UnpackedFloat.pack _ x.toModel.unpack.neg) = _
      rw [hX]
      rfl
    refine (hbelow hnegative fun b hb => ?_).elim
    obtain rfl := Option.some.inj hb
    exact Prod.Lex.toLex_lt_toLex.mpr (.inl (Int.negSucc_lt_zero _))

theorem Counts.mul (hx : Counts x p) (hy : Worth y q) (hq : 1 ≤ q) :
    ∃ r, Rounds (p * q) r ∧ Counts (x * y) r := by
  rcases hx with hx | ⟨hX, rfl⟩
  · obtain ⟨r, hr, hproduct⟩ := hx.mul hy hq
    exact ⟨r, hr, .inl hproduct⟩
  · obtain ⟨n, f, hn, -, hY, -⟩ := hy.of_pos (one_pos.trans_le hq)
    have hzero : UnpackedFloat.mul Format.binary64 (.zero .negative) y.toModel.unpack =
      .zero .negative := hY ▸ rfl
    rw [zero_mul]
    exact ⟨0, worth_zero.rounds, .inr ⟨unpack_mul hX hzero, rfl⟩⟩

theorem Holds.add_counts (hx : Holds x p) (hy : Counts y q) :
    ∃ r, Rounds (p + q) r ∧ Holds (x + y) r := by
  rcases hy with hy | ⟨hY, rfl⟩
  · exact hx.add hy
  · -- adding the negative zero changes nothing
    have hsame : (x + y).toModel.unpack = x.toModel.unpack := by
      rcases hx.cases with hworth | ⟨-, hX⟩
      · have hright : UnpackedFloat.add Format.binary64 x.toModel.unpack y.toModel.unpack =
            x.toModel.unpack := by
          rcases hworth.cases with ⟨hX, -⟩ | ⟨m, e, hm, -, hX, -⟩ <;> rw [hX, hY] <;> rfl
        exact (unpack_add rfl hright).trans hworth.unpack_pack
      · have hright : UnpackedFloat.add Format.binary64 (.infinity .positive) y.toModel.unpack =
          .infinity .positive := hY ▸ rfl
        rw [unpack_add hX hright, hX]
        rfl
    obtain ⟨m, e, hm, rfl, hX⟩ := hx
    rw [add_zero]
    exact ⟨_, ⟨m, e, hm, nearest_self m e, rfl⟩, m, e, hm, rfl, hsame.trans hX⟩

end

end Slideshow.Decimal
