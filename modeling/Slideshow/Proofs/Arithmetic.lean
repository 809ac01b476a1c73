import Slideshow.Proofs.Division

/-!
# The arithmetic over the rationals

Sums, differences and products of mantissas are computed exactly and rounded once, as quotients are.
Over the rationals, each operation on numbers that are not below zero is therefore the exact one
followed by `Rounds`.

* `Worth x q`: a number is finite, not below zero, and stands for a rational.
* `Rounds q r`: a rational is rounded to another one; `Rounds.le`: not beyond a number that it lies
  below.

Headlines:
* **`Worth.add`**, **`Worth.sub`**, **`Worth.mul`**, **`Worth.div`**: the operations are exact up to
  one rounding, as long as nothing is too large.
* **`Worth.lt_iff`**, `Worth.le_iff`: comparing numbers compares what they stand for.
* **`Worth.foldl_add`**: a sum does not grow beyond a number at which its summands are rounded away.
-/

namespace Slideshow.Decimal

open Float.Model Float.Model.UnpackedFloat

/-! ## Mantissas with few bits -/

/-- Bits are added to a mantissa that has too few before it is rounded. -/
theorem normalize_nearest {m : ℕ} (hm : 0 < m) (e : ℤ) :
    ∃ k g, Canonical k g ∧ Nearest (magnitude m e) k g ∧
      normalize Format.binary64 m e .positive = unsigned k g := by
  have htarget : Format.binary64.targetExponent (totalExponent m e) =
      max (m.log2 + 1 + e - 53) (-1074) := by
    rw [Format.targetExponent, totalExponent, show Format.binary64.minExponent = -1074 by decide,
      show (Format.binary64.mantissaBits : Int) = 53 by decide]
  generalize hs : (e - Format.binary64.targetExponent (totalExponent m e)).toNat = s
  have hready : 2 ^ 52 ≤ m * 2 ^ s ∨ e - s ≤ -1074 := by
    by_cases hleast : e - s ≤ -1074
    · exact .inr hleast
    · left
      calc 2 ^ 52 ≤ 2 ^ (m.log2 + s) := Nat.pow_le_pow_right two_pos (by omega)
        _ = 2 ^ m.log2 * 2 ^ s := Nat.pow_add _ _ _
        _ ≤ m * 2 ^ s := Nat.mul_le_mul_right _ (Nat.log2_self_le hm.ne')
  obtain ⟨k, g, hk, hnearest, hround⟩ := roundWithAccuracy_nearest (m * 2 ^ s) hready
  have hvalue : magnitude (m * 2 ^ s) (e - s) = magnitude m e := by
    rw [magnitude_of_le m (show e - s ≤ e by omega), show (e - (e - s)).toNat = s by omega]
  rw [hvalue] at hnearest
  refine ⟨k, g, hk, hnearest, ?_⟩
  have hpositive : compare (m : ℤ) 0 = .gt := by
    rw [Int.compare_eq_gt]
    omega
  rw [UnpackedFloat.normalize, hpositive, ← hround]
  show UnpackedFloat.round Format.binary64 .positive m e = _
  simp only [UnpackedFloat.round, decreaseExponent, hs, Nat.shiftLeft_eq]

/-! ## What is rounded -/

/-- The largest number. -/
def largest : ℚ := magnitude (2 ^ 53 - 1) 971

/-- A rational is rounded to another one. -/
def Rounds (q r : ℚ) : Prop := ∃ m e, Canonical m e ∧ Nearest q m e ∧ magnitude m e = r

/-- A number is finite, not below zero, and stands for a rational. -/
def Worth (x : Float) (q : ℚ) : Prop :=
  ∃ m e, Canonical m e ∧ x.toModel.unpack = unsigned m e ∧ magnitude m e = q

section
variable {x y z : Float} {p q r s : ℚ}

theorem magnitude_nonneg (m : ℕ) (e : ℤ) : 0 ≤ magnitude m e := by
  rw [magnitude]
  positivity

theorem Worth.nonneg (h : Worth x q) : 0 ≤ q := by
  obtain ⟨m, e, -, -, rfl⟩ := h
  exact magnitude_nonneg m e

/-- What is rounded is at most a number if it was at most that number. -/
theorem Rounds.le (h : Rounds q s) (hz : Worth z r) (hle : q ≤ r) : s ≤ r := by
  obtain ⟨m, e, -, hnearest, rfl⟩ := h
  obtain ⟨n, f, hn, -, rfl⟩ := hz
  exact hnearest.magnitude_le_of_le hn.mantissa hn.exponent hle

theorem worth_zero : Worth 0 0 :=
  ⟨0, -1074, ⟨by decide, le_rfl, fun h => absurd h (lt_irrefl _)⟩, rfl, by
    rw [magnitude, Nat.cast_zero, zero_mul]⟩

theorem worth_of_unpack {m : ℕ} {e : ℤ} {hm : 0 < m}
    (h : x.toModel.unpack = .finite .positive m e hm) :
    Worth x (magnitude m e) :=
  ⟨m, e, (canonical_of_unpack h).1, by rw [h, unsigned_of_pos hm], rfl⟩

/-- A number that is worth something is zero or has a mantissa. -/
theorem Worth.cases (h : Worth x q) :
    x.toModel.unpack = .zero .positive ∧ q = 0 ∨
      ∃ m e, ∃ hm : 0 < m, Canonical m e ∧ x.toModel.unpack = .finite .positive m e hm ∧
          magnitude m e = q := by
  obtain ⟨m, e, hcanonical, hunpack, rfl⟩ := h
  rcases Nat.eq_zero_or_pos m with rfl | hm
  · left
    rw [hunpack, magnitude, Nat.cast_zero, zero_mul]
    exact ⟨rfl, rfl⟩
  · right
    rw [unsigned_of_pos hm] at hunpack
    exact ⟨m, e, hm, hcanonical, hunpack, rfl⟩

theorem Worth.of_pos (h : Worth x q) (hq : 0 < q) :
    ∃ m e, ∃ hm : 0 < m, Canonical m e ∧ x.toModel.unpack = .finite .positive m e hm ∧
        magnitude m e = q :=
  h.cases.resolve_left fun hzero => hq.ne' hzero.2

/-- A number that stands for something, taken apart. -/
theorem Worth.parts (h : Worth x q) :
    ∃ m e, Parts.ofFloat x = .finite false m e ∧ magnitude m e = q := by
  rcases h.cases with ⟨hX, rfl⟩ | ⟨m, e, hm, -, hX, rfl⟩
  · exact ⟨0, -1074, by rw [ofFloat_eq, hX]; rfl, by rw [magnitude, Nat.cast_zero, zero_mul]⟩
  · exact ⟨m, e, by rw [ofFloat_eq, hX]; rfl, rfl⟩

theorem Worth.le_largest (h : Worth x q) : q ≤ largest := by
  rcases h.cases with ⟨-, rfl⟩ | ⟨m, e, hm, hcanonical, hunpack, rfl⟩
  · exact magnitude_nonneg _ _
  · have hexponent := (canonical_of_unpack hunpack).2
    have hmantissa := hcanonical.mantissa
    rcases lt_or_eq_of_le hexponent with hlt | rfl
    · exact (magnitude_lt_of_lt (by decide) hmantissa hlt).le
    · exact magnitude_le_magnitude.mpr (by omega)

/-- What is rounded and not too large is a number. -/
theorem worth_of_nearest {k : ℕ} {g : ℤ} (hk : Canonical k g) (hnearest : Nearest q k g)
    (hx : x.toModel.unpack =
      UnpackedFloat.unpack Format.binary64 (UnpackedFloat.pack Format.binary64 (unsigned k g)))
    (hq : q ≤ largest) : ∃ s, Worth x s ∧ Rounds q s := by
  have hle := hnearest.magnitude_le_of_le (by decide) (by decide) hq
  have hexponent : g ≤ 971 := hk.exponent_le ⟨by decide, by decide, fun _ => by decide⟩ hle
  rw [unpack_pack_unsigned hk hexponent] at hx
  exact ⟨_, ⟨k, g, hk, hx, rfl⟩, k, g, hk, hnearest, rfl⟩

/-! ## The operations -/

/-- What a number stands for is rounded to itself. -/
theorem Worth.rounds (h : Worth x q) : Rounds q q := by
  obtain ⟨m, e, hm, -, rfl⟩ := h
  exact ⟨m, e, hm, nearest_self m e, rfl⟩

theorem magnitude_add (m n : ℕ) (e : ℤ) : magnitude m e + magnitude n e = magnitude (m + n) e := by
  rw [magnitude, magnitude, magnitude, Nat.cast_add, add_mul]

theorem magnitude_sub {m n : ℕ} (h : n ≤ m) (e : ℤ) :
    magnitude m e - magnitude n e = magnitude (m - n) e := by
  rw [magnitude, magnitude, magnitude, Nat.cast_sub h, sub_mul]

/-- Packing keeps a number that is worth something. -/
theorem Worth.unpack_pack (h : Worth x q) : UnpackedFloat.unpack Format.binary64
    (UnpackedFloat.pack Format.binary64 x.toModel.unpack) = x.toModel.unpack := by
  rcases h.cases with ⟨hunpack, -⟩ | ⟨m, e, hm, hcanonical, hunpack, -⟩
  · rw [hunpack]
    rfl
  · have hkept := unpack_pack_unsigned hcanonical (canonical_of_unpack hunpack).2
    rwa [unsigned_of_pos hm, ← hunpack] at hkept

theorem Worth.of_unpack (h : Worth x q) (hz : z.toModel.unpack = x.toModel.unpack) : Worth z q := by
  obtain ⟨m, e, hm, hunpack, hq⟩ := h
  exact ⟨m, e, hm, hz.trans hunpack, hq⟩

/-- Mantissas are aligned at the smaller exponent. -/
theorem magnitude_aligned (m : ℕ) {e t : ℤ} (h : t ≤ e) :
    magnitude (decreaseExponent m e t).1 t = magnitude m e := by
  rw [magnitude_of_le m h, decreaseExponent, Nat.shiftLeft_eq]

/-- **The sum of two positive numbers** is the number nearest to their exact sum. -/
theorem add_nearest {m n : ℕ} {e f : ℤ} {hm : 0 < m} {hn : 0 < n}
    (hx : x.toModel.unpack = .finite .positive m e hm)
    (hy : y.toModel.unpack = .finite .positive n f hn) :
    ∃ k g, Canonical k g ∧ Nearest (magnitude m e + magnitude n f) k g ∧ (x + y).toModel.unpack =
      UnpackedFloat.unpack Format.binary64 (UnpackedFloat.pack Format.binary64 (unsigned k g)) := by
  rw [← magnitude_aligned m (min_le_left e f), ← magnitude_aligned n (min_le_right e f),
    magnitude_add]
  have hpos : 0 < (decreaseExponent m e (min e f)).1 + (decreaseExponent n f (min e f)).1 :=
    Nat.add_pos_left (by rw [decreaseExponent, Nat.shiftLeft_eq]; positivity) _
  obtain ⟨k, g, hk, hnearest, hround⟩ := normalize_nearest hpos (min e f)
  refine ⟨k, g, hk, hnearest, ?_⟩
  show UnpackedFloat.unpack
    _ (UnpackedFloat.pack _ (UnpackedFloat.add _ x.toModel.unpack y.toModel.unpack)) = _
  rw [hx, hy, ← hround, Nat.cast_add]
  rfl

/-- **Adding numbers** adds what they stand for and rounds once. -/
theorem Worth.add (hx : Worth x p) (hy : Worth y q) (hle : p + q ≤ largest) :
    ∃ s, Worth (x + y) s ∧ Rounds (p + q) s := by
  have hsum : (x + y).toModel.unpack = UnpackedFloat.unpack Format.binary64
      (UnpackedFloat.pack Format.binary64
        (UnpackedFloat.add Format.binary64 x.toModel.unpack y.toModel.unpack)) := rfl
  rcases hx.cases with ⟨hX, rfl⟩ | ⟨m, e, hm, hcm, hX, rfl⟩
  · have hright : UnpackedFloat.add Format.binary64 (.zero .positive) y.toModel.unpack =
        y.toModel.unpack := by
      rcases hy.cases with ⟨hY, -⟩ | ⟨n, f, hn, -, hY, -⟩ <;> rw [hY] <;> rfl
    rw [hX, hright, hy.unpack_pack] at hsum
    rw [zero_add]
    exact ⟨q, hy.of_unpack hsum, hy.rounds⟩
  · rcases hy.cases with ⟨hY, rfl⟩ | ⟨n, f, hn, hcn, hY, rfl⟩
    · have hleft : UnpackedFloat.add Format.binary64 x.toModel.unpack (.zero .positive) =
          x.toModel.unpack := by
        rw [hX]
        rfl
      rw [hY, hleft, hx.unpack_pack] at hsum
      rw [add_zero]
      exact ⟨_, hx.of_unpack hsum, hx.rounds⟩
    · obtain ⟨k, g, hk, hnearest, hunpack⟩ := add_nearest hX hY
      exact worth_of_nearest hk hnearest hunpack hle

/-- **Subtracting a number that is not larger** subtracts what it stands for and rounds once. -/
theorem Worth.sub (hx : Worth x p) (hy : Worth y q) (hle : q ≤ p) :
    ∃ s, Worth (x - y) s ∧ Rounds (p - q) s := by
  have hdifference : (x - y).toModel.unpack = UnpackedFloat.unpack Format.binary64
      (UnpackedFloat.pack Format.binary64
        (UnpackedFloat.sub Format.binary64 x.toModel.unpack y.toModel.unpack)) := rfl
  rcases hy.cases with ⟨hY, rfl⟩ | ⟨n, f, hn, hcn, hY, rfl⟩
  · have hleft : UnpackedFloat.sub Format.binary64 x.toModel.unpack (.zero .positive) =
        x.toModel.unpack := by
      rcases hx.cases with ⟨hX, -⟩ | ⟨m, e, hm, -, hX, -⟩ <;> rw [hX] <;> rfl
    rw [hY, hleft, hx.unpack_pack] at hdifference
    rw [sub_zero]
    exact ⟨_, hx.of_unpack hdifference, hx.rounds⟩
  · have hpositive : 0 < magnitude n f := by
      rw [magnitude]
      positivity
    obtain ⟨m, e, hm, hcm, hX, rfl⟩ := hx.of_pos (hpositive.trans_le hle)
    have hlargest := (sub_le_self _ hpositive.le).trans hx.le_largest
    rw [← magnitude_aligned m (min_le_left e f), ← magnitude_aligned n (min_le_right e f)]
      at hle hlargest ⊢
    have hle' := magnitude_le_magnitude.mp hle
    rw [magnitude_sub hle'] at hlargest ⊢
    have hcast : ((decreaseExponent m e (min e f)).1 : ℤ) - (decreaseExponent n f (min e f)).1 =
        ((decreaseExponent m e (min e f)).1 - (decreaseExponent n f (min e f)).1 : ℕ) :=
          (Int.ofNat_sub hle').symm
    have hnormal : (x - y).toModel.unpack =
      UnpackedFloat.unpack Format.binary64 (UnpackedFloat.pack Format.binary64
        (UnpackedFloat.normalize Format.binary64
          ((decreaseExponent m e (min e f)).1 - (decreaseExponent n f (min e f)).1 : ℕ)
              (min e f) .positive)) := by
      rw [hdifference, hX, hY, ← hcast]
      rfl
    rcases Nat.eq_zero_or_pos
      ((decreaseExponent m e (min e f)).1 - (decreaseExponent n f (min e f)).1) with hzero | hpos
    · rw [hzero] at hnormal ⊢
      rw [magnitude, Nat.cast_zero, zero_mul]
      exact ⟨0, worth_zero.of_unpack hnormal, worth_zero.rounds⟩
    · obtain ⟨k, g, hk, hnearest, hround⟩ := normalize_nearest hpos (min e f)
      refine worth_of_nearest hk hnearest ?_ hlargest
      rw [hnormal, hround]

/-- **The product of two positive numbers** is the number nearest to their exact product. -/
theorem mul_nearest {m n : ℕ} {e f : ℤ} {hm : 0 < m} {hn : 0 < n}
    (hx : x.toModel.unpack = .finite .positive m e hm)
    (hy : y.toModel.unpack = .finite .positive n f hn) :
    ∃ k g, Canonical k g ∧ Nearest (magnitude m e * magnitude n f) k g ∧ (x * y).toModel.unpack =
      UnpackedFloat.unpack Format.binary64 (UnpackedFloat.pack Format.binary64 (unsigned k g)) := by
  have hcm := (canonical_of_unpack hx).1
  have hcn := (canonical_of_unpack hy).1
  have hready : 2 ^ 52 ≤ m * n ∨ e + f ≤ -1074 := by
    by_cases he : -1074 < e
    · exact .inl ((hcm.full he).trans (Nat.le_mul_of_pos_right m hn))
    · by_cases hf : -1074 < f
      · exact .inl ((hcn.full hf).trans (Nat.le_mul_of_pos_left n hm))
      · exact .inr (by omega)
  obtain ⟨k, g, hk, hnearest, hround⟩ := mul_rounded hm hn hready
  refine ⟨k, g, hk, hnearest, ?_⟩
  show UnpackedFloat.unpack
    _ (UnpackedFloat.pack _ (UnpackedFloat.mul _ x.toModel.unpack y.toModel.unpack)) = _
  rw [hx, hy, hround]

/-- **Multiplying numbers** multiplies what they stand for and rounds once. -/
theorem Worth.mul (hx : Worth x p) (hy : Worth y q) (hle : p * q ≤ largest) :
    ∃ s, Worth (x * y) s ∧ Rounds (p * q) s := by
  have hproduct : (x * y).toModel.unpack = UnpackedFloat.unpack Format.binary64
      (UnpackedFloat.pack Format.binary64
        (UnpackedFloat.mul Format.binary64 x.toModel.unpack y.toModel.unpack)) := rfl
  have hzero : UnpackedFloat.mul Format.binary64 x.toModel.unpack y.toModel.unpack =
    .zero .positive → p * q = 0 →
      ∃ s, Worth (x * y) s ∧ Rounds (p * q) s := by
    intro hmul hpq
    rw [hmul] at hproduct
    rw [hpq]
    exact ⟨0, worth_zero.of_unpack hproduct, worth_zero.rounds⟩
  rcases hx.cases with ⟨hX, rfl⟩ | ⟨m, e, hm, hcm, hX, rfl⟩
  · refine hzero ?_ (zero_mul q)
    rcases hy.cases with ⟨hY, -⟩ | ⟨n, f, hn, -, hY, -⟩ <;> rw [hX, hY] <;> rfl
  · rcases hy.cases with ⟨hY, rfl⟩ | ⟨n, f, hn, hcn, hY, rfl⟩
    · refine hzero ?_ (mul_zero _)
      rw [hX, hY]
      rfl
    · obtain ⟨k, g, hk, hnearest, hunpack⟩ := mul_nearest hX hY
      exact worth_of_nearest hk hnearest hunpack hle

/-- **Dividing numbers** divides what they stand for and rounds once. -/
theorem Worth.div (hx : Worth x p) (hy : Worth y q) (hq : 0 < q) (hle : p / q ≤ largest) :
    ∃ s, Worth (x / y) s ∧ Rounds (p / q) s := by
  obtain ⟨n, f, hn, hcn, hY, rfl⟩ := hy.of_pos hq
  rcases hx.cases with ⟨hX, rfl⟩ | ⟨m, e, hm, hcm, hX, rfl⟩
  · have hquotient : (x / y).toModel.unpack = UnpackedFloat.unpack Format.binary64
        (UnpackedFloat.pack Format.binary64
          (UnpackedFloat.div Format.binary64 x.toModel.unpack y.toModel.unpack)) := rfl
    rw [hX, hY] at hquotient
    rw [zero_div]
    exact ⟨0, worth_zero.of_unpack hquotient, worth_zero.rounds⟩
  · obtain ⟨k, g, hk, hnearest, hunpack⟩ := div_nearest hX hY
    exact worth_of_nearest hk hnearest hunpack hle

/-! ## Comparing -/

/-- Numbers are ordered by their exponents first. -/
theorem Canonical.lt_iff {m n : ℕ} {e f : ℤ} (hm : Canonical m e) (hn : Canonical n f) :
    magnitude m e < magnitude n f ↔ e < f ∨ e = f ∧ m < n := by
  rcases lt_trichotomy e f with hlt | rfl | hlt
  · have hfull := hn.full (hm.exponent.trans_lt hlt)
    exact iff_of_true (magnitude_lt_of_lt hfull hm.mantissa hlt) (.inl hlt)
  · rw [← not_le, magnitude_le_magnitude, not_le]
    exact ⟨fun h => .inr ⟨rfl, h⟩, fun h => (h.resolve_left (lt_irrefl e)).2⟩
  · have hfull := hm.full (hn.exponent.trans_lt hlt)
    exact iff_of_false (magnitude_lt_of_lt hfull hn.mantissa hlt).not_gt (by omega)

/-- **Comparing two numbers** compares what they stand for. -/
theorem Worth.lt_iff (hx : Worth x p) (hy : Worth y q) : x < y ↔ p < q := by
  rw [float_lt_iff]
  rcases hx.cases with ⟨hX, rfl⟩ | ⟨m, e, hm, hcm, hX, rfl⟩ <;>
    rcases hy.cases with ⟨hY, rfl⟩ | ⟨n, f, hn, hcn, hY, rfl⟩
  · simp [hX, hY, rank]
  · have hpos : 0 < magnitude n f := by
      rw [magnitude]
      positivity
    simp [hX, hY, rank, Prod.Lex.toLex_lt_toLex, hpos]
  · simp [hX, hY, rank, Prod.Lex.toLex_lt_toLex, magnitude_nonneg]
  · rw [hcm.lt_iff hcn]
    simp [hX, hY, rank, Prod.Lex.toLex_lt_toLex]

theorem Worth.isFinite (h : Worth x q) : Scalar.isFinite x = true := by
  show x.toModel.unpack.isFinite = true
  rcases h.cases with ⟨hX, -⟩ | ⟨m, e, hm, -, hX, -⟩ <;> rw [hX] <;> rfl

theorem Worth.le_iff (hx : Worth x p) (hy : Worth y q) : x ≤ y ↔ p ≤ q := by
  rw [← not_lt, ← hy.lt_iff hx]
  exact ⟨float_not_lt, float_le_of_not_lt (float_le_self hx.isFinite) (float_le_self hy.isFinite)⟩

/-- A number stands for one thing only. -/
theorem Worth.unique (h : Worth x q) (h' : Worth x r) : q = r :=
  le_antisymm ((h.le_iff h').mp (float_le_self h.isFinite))
    ((h'.le_iff h).mp (float_le_self h.isFinite))

/-- The positive lengths are the numbers that stand for something above zero. -/
theorem isPositive_iff_worth : Scalar.isPositive x = true ↔ ∃ q, 0 < q ∧ Worth x q := by
  rw [isPositive_iff]
  constructor
  · rintro ⟨m, e, hm, hunpack⟩
    refine ⟨_, ?_, worth_of_unpack hunpack⟩
    rw [magnitude]
    positivity
  · rintro ⟨q, hq, hworth⟩
    obtain ⟨m, e, hm, -, hunpack, -⟩ := hworth.of_pos hq
    exact ⟨m, e, hm, hunpack⟩

/-- A natural number of at most 53 bits stands for itself. -/
theorem worth_ofNat {n : ℕ} (h : n < 2 ^ 53) : Worth (Float.ofNat n) n := by
  rcases Nat.eq_zero_or_pos n with rfl | hn
  · rw [Nat.cast_zero]
    exact worth_zero
  · have hworth := worth_of_unpack (unpack_ofNat hn h (Nat.mul_pos hn (Nat.two_pow_pos _)))
    rwa [magnitude_natShift] at hworth

/-! ## Sums -/

variable {e : ℤ}

/-- What is added to a power of two is rounded away, up to half of its last bit. -/
theorem Rounds.le_of_stagnant (h : Rounds q s) (he : -1074 ≤ e)
    (hq : q ≤ magnitude (2 ^ 52) e + 2 ^ e / 2) :
    s ≤ magnitude (2 ^ 52) e := by
  obtain ⟨m, f, hm, hnearest, rfl⟩ := h
  have hcanonical : Canonical (2 ^ 52) e := ⟨by decide, he, fun _ => le_rfl⟩
  rcases le_or_gt q (magnitude (2 ^ 52) e) with hle | hlt
  · exact hnearest.magnitude_le_of_le hcanonical.mantissa he hle
  · have hspacing := spacing_pos (2 ^ 52) e
    have hself :=
      hcanonical.nearest ((sub_le_self _ (half_pos hspacing).le).trans hlt.le) hq fun _ => by decide
    obtain ⟨rfl, rfl⟩ := hnearest.unique hm hcanonical hself
    exact le_rfl

/-- **A sum does not grow beyond a power of two** at which its summands are rounded away. -/
theorem Worth.foldl_add (he : -1074 ≤ e) (he' : e ≤ 970) :
    ∀ (xs : List Float) (x : Float) (p : ℚ), Worth x p → p ≤ magnitude (2 ^ 52) e →
      (∀ y ∈ xs, ∃ q, Worth y q ∧ q ≤ 2 ^ e / 2) →
        ∃ s, Worth (xs.foldl (· + ·) x) s ∧ s ≤ magnitude (2 ^ 52) e
  | [], _, p, hx, hle, _ => ⟨p, hx, hle⟩
  | y :: r, x, p, hx, hle, hall => by
    obtain ⟨q, hy, hq⟩ := hall y List.mem_cons_self
    have hsum : p + q ≤ magnitude (2 ^ 52) e + 2 ^ e / 2 := add_le_add hle hq
    have hunit : (0 : ℚ) < 2 ^ e := by positivity
    have hlargest : p + q ≤ largest := by
      calc p + q ≤ magnitude (2 ^ 52 + 1) e := by rw [magnitude_succ]; linarith
        _ ≤ largest := (magnitude_lt_of_lt (by decide) (by decide) (by omega)).le
    obtain ⟨s, hworth, hrounds⟩ := hx.add hy hlargest
    exact foldl_add he he' r _ s hworth (hrounds.le_of_stagnant he hsum) fun z hz =>
      hall z (List.mem_cons_of_mem y hz)

/-- Adding to the negative zero changes nothing. -/
theorem Worth.negativeZero_add (h : Worth x q) : Worth (-Scalar.zero + x) q := by
  have hsum : (-Scalar.zero + x).toModel.unpack = UnpackedFloat.unpack Format.binary64
      (UnpackedFloat.pack Format.binary64
        (UnpackedFloat.add Format.binary64 (.zero .negative) x.toModel.unpack)) := rfl
  have hright : UnpackedFloat.add Format.binary64 (.zero .negative) x.toModel.unpack =
      x.toModel.unpack := by
    rcases h.cases with ⟨hX, -⟩ | ⟨m, e, hm, -, hX, -⟩ <;> rw [hX] <;> rfl
  rw [hright, h.unpack_pack] at hsum
  exact h.of_unpack hsum

end

end Slideshow.Decimal
