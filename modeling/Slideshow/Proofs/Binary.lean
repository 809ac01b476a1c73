import Mathlib
import Slideshow.Scalar
import Slideshow.Proofs.Numeral

/-!
# Binary floating point numbers and their parts

`Parts.ofFloat` takes a number apart by its bits. Here the parts are tied to the model of the
arithmetic, in which a number is a sign, a mantissa and an exponent as well.

Headlines:
* **`ofFloat_eq`**: the parts of a number are those of its unpacked form.
* **`ofFloat_inj`**: finite numbers with the same parts are the same.
* `unpack_pack_normal`: packing keeps a mantissa of 53 bits.
* **`ofFloat_ofNat`**: a natural number of at most 53 bits is kept exactly.
* **`isFinite_limited`**: a finite number stays finite under any limit.
-/

namespace Slideshow.Decimal

open Float.Model Float.Model.UnpackedFloat

/-! ## Unpacked numbers -/

def isNegativeSign : Sign → Bool
  | .negative => true
  | .positive => false

/-- The parts of an unpacked number. -/
def Parts.ofUnpacked : UnpackedFloat → Parts
  | .notANumber => .nan
  | .infinity s => .infinite (isNegativeSign s)
  | .zero s => .finite (isNegativeSign s) 0 (-1074)
  | .finite s mantissa exponent _ => .finite (isNegativeSign s) mantissa exponent

theorem toNat_unpackExponent (b : BitVec Format.binary64.numBits) :
    (unpackExponent b).toNat = b.toNat / 2 ^ 52 % 2 ^ 11 := by
  simp [unpackExponent, Nat.shiftRight_eq_div_pow]

theorem toNat_unpackMantissa (b : BitVec Format.binary64.numBits) :
    (unpackMantissa b).toNat = b.toNat % 2 ^ 52 := by
  simp [unpackMantissa]

theorem toNat_unpackSign (b : BitVec Format.binary64.numBits) :
    (unpackSign b).toNat = b.toNat / 2 ^ 63 % 2 := by
  simp [unpackSign, Nat.shiftRight_eq_div_pow]

theorem isNegativeSign_ofBitVec (v : BitVec 1) :
    isNegativeSign (Sign.ofBitVec v) = (v.toNat == 1) := by
  have h : v = 0#1 ∨ v = 1#1 := by
    rcases Nat.lt_or_ge v.toNat 1 with hv | hv
    · exact Or.inl (BitVec.eq_of_toNat_eq (by simpa using hv))
    · exact Or.inr (BitVec.eq_of_toNat_eq (by have := v.isLt; simp; omega))
  rcases h with rfl | rfl <;> rfl

theorem ofBitVec_toBitVec (s : Sign) : Sign.ofBitVec s.toBitVec = s := by
  cases s <;> rfl

theorem toNat_append_one (v : BitVec 52) : (1#1 ++ v).toNat = 2 ^ 52 + v.toNat := by
  rw [BitVec.toNat_append, ← Nat.shiftLeft_add_eq_or_of_lt v.isLt, Nat.shiftLeft_eq]
  rfl

/-- The 64 bits of a number have the parts of what they unpack to. -/
theorem ofBits_toNat (b : BitVec Format.binary64.numBits) :
    Parts.ofBits b.toNat = .ofUnpacked (UnpackedFloat.unpack Format.binary64 b) := by
  have hsign := isNegativeSign_ofBitVec (unpackSign b)
  rw [toNat_unpackSign] at hsign
  simp only [Parts.ofBits, Nat.pow_eq, ← toNat_unpackExponent, ← toNat_unpackMantissa, ← hsign]
  have hbias : ((Format.binary64.exponentBias : Nat) : Int) = 1023 := rfl
  have hlow : ((Format.binary64.mantissaBitsWithoutImplicit : Nat) : Int) = 52 := rfl
  have hexponent : ∀ n : Nat, n < 2 ^ 11 → ((unpackExponent b).toNat = n ↔
      unpackExponent b = BitVec.ofNat 11 n) := fun n hn =>
    ⟨fun h => BitVec.eq_of_toNat_eq (by rw [h, BitVec.toNat_ofNat, Nat.mod_eq_of_lt hn]),
      fun h => by rw [h, BitVec.toNat_ofNat, Nat.mod_eq_of_lt hn]⟩
  have hmantissa : (unpackMantissa b).toNat = 0 ↔ unpackMantissa b = 0#52 :=
    ⟨fun h => BitVec.eq_of_toNat_eq h, fun h => by rw [h]; rfl⟩
  unfold UnpackedFloat.unpack
  by_cases hinf : unpackExponent b = -1#11
  · have h2047 : (unpackExponent b).toNat = 2047 := by rw [hinf]; decide
    rw [if_pos hinf, h2047, if_pos (by decide)]
    by_cases hm : unpackMantissa b = 0#52
    · rw [if_pos hm, if_pos (by rw [hmantissa.mpr hm]; rfl)]
      rfl
    · rw [if_neg hm, if_neg (by simpa using fun h => hm (hmantissa.mp h))]
      rfl
  · have h2047 : (unpackExponent b).toNat ≠ 2047 := fun h =>
      hinf ((hexponent 2047 (by decide)).mp h)
    rw [if_neg hinf, if_neg (by simpa using h2047)]
    by_cases hsub : unpackExponent b = 0#11
    · have h0 : (unpackExponent b).toNat = 0 := by rw [hsub]; rfl
      rw [if_pos hsub, if_pos (by rw [h0]; rfl)]
      by_cases hm : unpackMantissa b = 0#52
      · rw [dif_pos hm, hmantissa.mpr hm]
        rfl
      · rw [dif_neg hm]
        show Parts.finite _ _ _ = Parts.finite _ _ _
        rw [h0, hbias, hlow]
        rfl
    · have h0 : (unpackExponent b).toNat ≠ 0 := fun h => hsub ((hexponent 0 (by decide)).mp h)
      rw [if_neg hsub, if_neg (by simpa using h0)]
      show Parts.finite _ _ _ = Parts.finite _ _ _
      rw [toNat_append_one, hbias, hlow]
      rfl

/-- **The parts of a number are those of its unpacked form.** -/
theorem ofFloat_eq (x : Float) : Parts.ofFloat x = .ofUnpacked x.toModel.unpack :=
  ofBits_toNat x.toModel.toBits.toBitVec

/-- The bits of a finite number are known when its parts are. -/
theorem ofBits_inj {a b : Nat} (ha : a < 2 ^ 64) (hb : b < 2 ^ 64) {negative : Bool} {m : Nat}
    {e : Int} (h : Parts.ofBits a = .finite negative m e)
    (h' : Parts.ofBits b = .finite negative m e) : a = b := by
  have hbits : ∀ n, n < 2 ^ 64 → Parts.ofBits n = .finite negative m e →
      n = negative.toNat * 2 ^ 63 + if m < 2 ^ 52 then m
          else (e + 1075).toNat * 2 ^ 52 + (m - 2 ^ 52) := by
    intro n hn h
    have hsign : (n / 2 ^ 63 % 2 == 1).toNat = n / 2 ^ 63 % 2 := by
      rcases Nat.mod_two_eq_zero_or_one (n / 2 ^ 63) with h | h <;> rw [h] <;> rfl
    simp only [Parts.ofBits, Nat.pow_eq] at h
    split at h
    · split at h <;> cases h
    · split at h
      · next hzero =>
        obtain ⟨rfl, rfl, rfl⟩ := Parts.finite.inj h
        have hzero : n / 2 ^ 52 % 2 ^ 11 = 0 := eq_of_beq hzero
        rw [hsign, if_pos (by omega)]
        omega
      · obtain ⟨rfl, rfl, rfl⟩ := Parts.finite.inj h
        rw [hsign, if_neg (by omega)]
        omega
  rw [hbits a ha h, hbits b hb h']

/-- **Finite numbers with the same parts are the same.** -/
theorem ofFloat_inj {x y : Float} {negative : Bool} {m : Nat} {e : Int}
    (hx : Parts.ofFloat x = .finite negative m e) (hy : Parts.ofFloat y = .finite negative m e) :
    x = y := by
  have hbits : x.toModel.toBits = y.toModel.toBits :=
    UInt64.toNat_inj.mp (ofBits_inj x.toModel.toBits.toNat_lt y.toModel.toBits.toNat_lt hx hy)
  obtain ⟨⟨bits, valid⟩⟩ := x
  obtain rfl : bits = y.toModel.toBits := hbits
  rfl

/-! ## Natural numbers -/

theorem unpackSign_packComponents (s : Sign) (e : BitVec 11) (m : BitVec 52) :
    unpackSign (packComponents Format.binary64 s e m) = s.toBitVec := by
  have hpacked : (packComponents Format.binary64 s e m).toNat =
      (s.toBitVec.toNat * 2 ^ 11 + e.toNat) * 2 ^ 52 + m.toNat := by
    show (s.toBitVec ++ e ++ m).toNat = _
    rw [BitVec.toNat_append, ← Nat.shiftLeft_add_eq_or_of_lt m.isLt, BitVec.toNat_append,
      ← Nat.shiftLeft_add_eq_or_of_lt e.isLt, Nat.shiftLeft_eq, Nat.shiftLeft_eq]
  have he := e.isLt
  have hm := m.isLt
  have hs := s.toBitVec.isLt
  exact BitVec.eq_of_toNat_eq (by rw [toNat_unpackSign, hpacked]; omega)

/-- **Packing keeps a mantissa of 53 bits.** -/
theorem unpack_pack_normal {s : Sign} {m : Nat} {e : Int} (hm : 0 < m) (hlow : 2 ^ 52 ≤ m)
    (hhigh : m < 2 ^ 53) (he : -1074 ≤ e) (he' : e ≤ 971) :
    UnpackedFloat.unpack Format.binary64 (UnpackedFloat.pack Format.binary64
      (.finite s m e hm)) = .finite s m e hm := by
  have hlog : m.log2 = 52 := by
    have h1 := (Nat.le_log2 (by omega)).mpr hlow
    have h2 := (Nat.log2_lt (by omega)).mpr hhigh
    omega
  have hbias : ((Format.binary64.exponentBias : Nat) : Int) = 1023 := rfl
  have hwidth : ((Format.binary64.mantissaBitsWithoutImplicit : Nat) : Int) = 52 := rfl
  have hmb : Format.binary64.mantissaBits = 53 := by decide
  have hbiased : (e + 1023 + 52).toNat < 2047 := by omega
  have hexponent : (BitVec.ofNat 11 (e + 1023 + 52).toNat).toNat = (e + 1023 + 52).toNat := by
    rw [BitVec.toNat_ofNat, Nat.mod_eq_of_lt (by omega)]
  have hinf : BitVec.ofNat 11 (e + 1023 + 52).toNat ≠ -1#11 := fun h => by
    have := congrArg BitVec.toNat h
    rw [hexponent, show (-1#11 : BitVec 11).toNat = 2047 by decide] at this
    omega
  have hsub : BitVec.ofNat 11 (e + 1023 + 52).toNat ≠ 0#11 := fun h => by
    have := congrArg BitVec.toNat h
    rw [hexponent, show (0#11 : BitVec 11).toNat = 0 by decide] at this
    omega
  have hmantissa : (1#1 ++ BitVec.ofNat 52 m).toNat = m := by
    rw [toNat_append_one, BitVec.toNat_ofNat]
    omega
  rw [UnpackedFloat.pack]
  simp only [hbias, hwidth, hlog, hmb]
  rw [if_neg (by show ¬2 ^ 11 ≤ _; omega), if_pos trivial]
  unfold UnpackedFloat.unpack
  simp only [unpackMantissa_packComponents, unpackExponent_packComponents,
    unpackSign_packComponents]
  rw [if_neg hinf, if_neg hsub]
  simp only [hbias, hwidth, hexponent, hmantissa, ofBitVec_toBitVec]
  congr 1
  omega

/-- Bits that are zero are shifted out without a trace. -/
theorem shiftRight_exact (m : Nat) : ∀ j,
    (⟨m * 2 ^ j, false, false⟩ : ExtendedMantissa) >>> j = ⟨m, false, false⟩
  | 0 => by rw [Nat.pow_zero, Nat.mul_one]; rfl
  | j + 1 => by
    have ih := shiftRight_exact (m * 2) j
    rw [Nat.pow_succ', ← Nat.mul_assoc]
    show ((⟨m * 2 * 2 ^ j, false, false⟩ : ExtendedMantissa) >>> j).shiftRightOne = _
    rw [ih]
    simp [ExtendedMantissa.shiftRightOne]

theorem log2_mul_two_pow {m : Nat} (hlow : 2 ^ 52 ≤ m) (hhigh : m < 2 ^ 53) (j : Nat) :
    (m * 2 ^ j).log2 = 52 + j := by
  have hpos : m * 2 ^ j ≠ 0 := Nat.mul_ne_zero (by omega) (Nat.ne_of_gt (Nat.two_pow_pos j))
  have h1 : 52 + j ≤ (m * 2 ^ j).log2 := (Nat.le_log2 hpos).mpr (by
    rw [Nat.pow_add]
    exact Nat.mul_le_mul_right _ hlow)
  have h2 : (m * 2 ^ j).log2 < 53 + j := (Nat.log2_lt hpos).mpr (by
    rw [Nat.pow_add]
    exact Nat.mul_lt_mul_of_pos_right hhigh (Nat.two_pow_pos j))
  omega

theorem shiftToTargetExponent_exact {m : Nat} {e : Int} (hlow : 2 ^ 52 ≤ m) (hhigh : m < 2 ^ 53)
    (he : -1074 ≤ e) (j : Nat) :
    shiftToTargetExponent Format.binary64 (m * 2 ^ j) (e - j) .exact = (⟨m, false, false⟩, e) := by
  have htarget : Format.binary64.targetExponent (totalExponent (m * 2 ^ j) (e - j)) = e := by
    rw [Format.targetExponent, totalExponent, log2_mul_two_pow hlow hhigh,
      show Format.binary64.minExponent = -1074 by decide,
      show (Format.binary64.mantissaBits : Int) = 53 by decide]
    omega
  have hshift : (e - (e - j)).toNat = j := by omega
  rw [shiftToTargetExponent, htarget, shiftToExponent]
  simp only [hshift]
  rw [show e - (j : Int) + j = e by omega]
  exact congrArg (·, e) (shiftRight_exact m j)

/-- Rounding keeps a mantissa of 53 bits with zeros behind it. -/
theorem round_exact {m : Nat} {e : Int} (hm : 0 < m) (hlow : 2 ^ 52 ≤ m) (hhigh : m < 2 ^ 53)
    (he : -1074 ≤ e) (j : Nat) (s : Sign) :
    roundWithAccuracy Format.binary64 s (m * 2 ^ j) (e - j) .exact = .finite s m e hm := by
  have h0 := shiftToTargetExponent_exact hlow hhigh he 0
  rw [Nat.pow_zero, Nat.mul_one, Int.ofNat_zero, Int.sub_zero] at h0
  have hrounded : (⟨m, false, false⟩ : ExtendedMantissa).roundedMantissa = m := rfl
  rw [roundWithAccuracy]
  simp only [shiftToTargetExponent_exact hlow hhigh he j, hrounded, h0]
  exact dif_neg (Nat.ne_of_gt hm)

/-- The mantissa of a natural number, in front of `53` bits. -/
def natShift (n : Nat) : Nat := 52 - n.log2

theorem natShift_spec {n : Nat} (hn : 0 < n) (h : n < 2 ^ 53) :
    natShift n ≤ 52 ∧ 2 ^ 52 ≤ n * 2 ^ natShift n ∧ n * 2 ^ natShift n < 2 ^ 53 := by
  have hlog : n.log2 < 53 := (Nat.log2_lt (Nat.ne_of_gt hn)).mpr h
  have hlow := Nat.log2_self_le (Nat.ne_of_gt hn)
  have hhigh : n < 2 ^ (n.log2 + 1) := Nat.lt_log2_self
  have hsplit : n.log2 + natShift n = 52 := by
    unfold natShift
    omega
  refine ⟨by unfold natShift; omega, ?_, ?_⟩
  · rw [← hsplit, Nat.pow_add]
    exact Nat.mul_le_mul_right _ hlow
  · have h53 : (2 : Nat) ^ 53 = 2 ^ (n.log2 + 1) * 2 ^ natShift n := by
      rw [← Nat.pow_add]
      congr 1
      omega
    rw [h53]
    exact Nat.mul_lt_mul_of_pos_right hhigh (Nat.two_pow_pos _)

theorem ofUInt64_exact {n : Nat} (hn : 0 < n) (h : n < 2 ^ 53)
    (hm : 0 < n * 2 ^ natShift n) :
    UnpackedFloat.ofUInt64 Format.binary64 n.toUInt64 =
      .finite .positive (n * 2 ^ natShift n) (-natShift n) hm := by
  obtain ⟨hle, hlow, hhigh⟩ := natShift_spec hn h
  have hn' : n.toUInt64.toNat = n := by
    show n % 2 ^ 64 = n
    omega
  have htarget : Format.binary64.targetExponent (totalExponent n 0) = -natShift n := by
    rw [Format.targetExponent, totalExponent,
      show Format.binary64.minExponent = -1074 by decide,
      show (Format.binary64.mantissaBits : Int) = 53 by decide]
    unfold natShift at *
    have hlog : n.log2 < 53 := (Nat.log2_lt (Nat.ne_of_gt hn)).mpr h
    omega
  have hround := round_exact hm hlow hhigh (by omega : -1074 ≤ -(natShift n : Int)) 0 .positive
  rw [Nat.pow_zero, Nat.mul_one, Int.ofNat_zero, Int.sub_zero] at hround
  have hcompare : compare (n : Int) 0 = .gt := by
    rw [Int.compare_eq_gt]
    omega
  rw [UnpackedFloat.ofUInt64, UnpackedFloat.ofNat, UnpackedFloat.ofInt, hn',
    UnpackedFloat.normalize, hcompare]
  show UnpackedFloat.round Format.binary64 .positive n 0 = _
  rw [UnpackedFloat.round, htarget]
  have hshift : (0 - -(natShift n : Int)).toNat = natShift n := by omega
  simp only [decreaseExponent, hshift, Nat.shiftLeft_eq]
  rw [Int.zero_sub]
  exact hround

theorem unpack_toFloat {n : Nat} (hn : 0 < n) (h : n < 2 ^ 53) (hm : 0 < n * 2 ^ natShift n) :
    n.toUInt64.toFloat.toModel.unpack = .finite .positive (n * 2 ^ natShift n)
    (-natShift n) hm := by
  obtain ⟨hle, hlow, hhigh⟩ := natShift_spec hn h
  show UnpackedFloat.unpack _ (UnpackedFloat.pack _ (UnpackedFloat.ofUInt64 _ _)) = _
  rw [ofUInt64_exact hn h hm, unpack_pack_normal hm hlow hhigh (by omega) (by omega)]

/-- **A natural number of at most 53 bits is kept exactly.** -/
theorem unpack_ofNat {n : Nat} (hn : 0 < n) (h : n < 2 ^ 53) (hm : 0 < n * 2 ^ natShift n) :
    (Float.ofNat n).toModel.unpack =
      .finite .positive (n * 2 ^ natShift n) (-natShift n) hm := by
  obtain ⟨hle, hlow, hhigh⟩ := natShift_spec hn h
  have hone : (Float.ofBits 0x3FF0000000000000).toModel.unpack =
      .finite .positive (2 ^ 52) (-52) (by decide) := rfl
  have hfloat : Float.ofNat n = n.toUInt64.toFloat * Float.ofBits 0x3FF0000000000000 := by
    show Float.ofScientific n false 0 = _
    rw [Float.ofScientific, dif_pos ⟨h, by decide⟩]
    rfl
  have hpacked :=
    @unpack_pack_normal .positive _ _ hm hlow hhigh (by omega : -1074 ≤ -(natShift n : Int))
    (by omega)
  rw [hfloat]
  show UnpackedFloat.unpack _ (UnpackedFloat.pack _ (UnpackedFloat.mul _ _ _)) = _
  rw [unpack_toFloat hn h hm, hone]
  have hround : UnpackedFloat.mul Format.binary64
      (.finite .positive (n * 2 ^ natShift n) (-natShift n) hm)
      (.finite .positive (2 ^ 52) (-52) (by decide)) =
        .finite .positive (n * 2 ^ natShift n) (-natShift n) hm :=
    round_exact hm hlow hhigh (by omega) 52 .positive
  rw [hround, hpacked]

theorem ofFloat_ofNat {n : Nat} (hn : 0 < n) (h : n < 2 ^ 53) :
    Parts.ofFloat (Float.ofNat n) = .finite false (n * 2 ^ natShift n) (-natShift n) := by
  rw [ofFloat_eq, unpack_ofNat hn h (Nat.mul_pos hn (Nat.two_pow_pos _))]
  rfl

theorem roundQuotient_mul (k : Nat) {den : Nat} (h : 0 < den) :
    roundQuotient (k * den) den = k := by
  simp only [roundQuotient, Nat.mul_div_cancel _ h, Nat.mul_mod_left, Nat.mul_zero]
  exact if_pos h

/-- **A natural number of at most 53 bits is printed as it is.** -/
theorem printed_ofNat {n : Nat} (hn : 0 < n) (h : n < 2 ^ 53) : printed (Float.ofNat n) = n := by
  have hunits : units 4 (n * 2 ^ natShift n) (-natShift n) = n * 10 ^ 4 := by
    have hneg : (-(natShift n : Int)).toNat = 0 := by omega
    simp only [units, Parts.numerator, Parts.denominator, Nat.pow_eq, hneg, neg_neg,
      Int.toNat_natCast, pow_zero, mul_one]
    rw [mul_right_comm, roundQuotient_mul _ (Nat.two_pow_pos _)]
  rw [printed, ofFloat_ofNat hn h]
  show (1 : ℚ) * (units 4 (n * 2 ^ natShift n) (-natShift n) / 10 ^ 4) = n
  rw [hunits, one_mul, Nat.cast_mul, Nat.cast_pow, Nat.cast_ofNat]
  exact mul_div_cancel_right₀ _ (by norm_num)

end Slideshow.Decimal

/-! ## Finite numbers -/

namespace Slideshow

open Scalar Decimal Float.Model

theorem ofFloat_of_isFinite {x : Float} (h : isFinite x = true) :
    ∃ negative mantissa exponent, Parts.ofFloat x = .finite negative mantissa exponent := by
  have hx : x.toModel.unpack.isFinite = true := h
  rw [ofFloat_eq]
  cases hu : x.toModel.unpack with
  | notANumber => rw [hu] at hx; exact absurd hx Bool.false_ne_true
  | infinity s => rw [hu] at hx; exact absurd hx Bool.false_ne_true
  | zero s => exact ⟨_, _, _, rfl⟩
  | finite s m e hm => exact ⟨_, _, _, rfl⟩

theorem isFinite_of_ofFloat {x : Float} {negative : Bool} {m : Nat} {e : Int}
    (h : Parts.ofFloat x = .finite negative m e) :
    isFinite x = true := by
  rw [ofFloat_eq] at h
  show x.toModel.unpack.isFinite = true
  cases hx : x.toModel.unpack <;> rw [hx] at h
  case notANumber => cases h
  case infinity s => cases h
  all_goals rfl

theorem less_eq (x y : Float) : less x y = x.toModel.unpack.lt y.toModel.unpack := by
  have h : x < y ↔ x.toModel.unpack.lt y.toModel.unpack = true := decide_eq_true_iff
  show decide (x < y) = _
  rw [Bool.eq_iff_iff, decide_eq_true_iff, h]

theorem minimum_eq_or (x y : Float) : minimum x y = x ∨ minimum x y = y := by
  unfold minimum
  split
  · exact Or.inr rfl
  · split
    · exact Or.inl rfl
    · split
      · exact Or.inr rfl
      · exact Or.inl rfl

theorem maximum_eq_or (x y : Float) : maximum x y = x ∨ maximum x y = y := by
  unfold maximum
  split
  · exact Or.inr rfl
  · split
    · exact Or.inl rfl
    · split
      · exact Or.inr rfl
      · exact Or.inl rfl

theorem isFinite_minimum {x y : Float} (hx : isFinite x = true) (hy : isFinite y = true) :
    isFinite (minimum x y) = true := by
  rcases minimum_eq_or x y with h | h <;> rw [h] <;> assumption

theorem isFinite_maximum {x y : Float} (hx : isFinite x = true) (hy : isFinite y = true) :
    isFinite (maximum x y) = true := by
  rcases maximum_eq_or x y with h | h <;> rw [h] <;> assumption

/-- A number is finite, none at all, or infinite. -/
theorem isFinite_or (x : Float) : isFinite x = true ∧ isNaN x = false ∨ isNaN x = true ∨
    isNaN x = false ∧ ∃ s, x.toModel.unpack = .infinity s := by
  show x.toModel.unpack.isFinite = true ∧ x.toModel.unpack.isNaN = false ∨
    x.toModel.unpack.isNaN = true ∨ x.toModel.unpack.isNaN = false ∧ _
  cases x.toModel.unpack with
  | notANumber => exact Or.inr (Or.inl rfl)
  | infinity s => exact Or.inr (Or.inr ⟨rfl, s, rfl⟩)
  | zero s => exact Or.inl ⟨rfl, rfl⟩
  | finite s m e hm => exact Or.inl ⟨rfl, rfl⟩

theorem isNaN_of_isFinite {x : Float} (h : isFinite x = true) : isNaN x = false := by
  have hx : x.toModel.unpack.isFinite = true := h
  show x.toModel.unpack.isNaN = false
  cases hu : x.toModel.unpack with
  | notANumber => rw [hu] at hx; exact absurd hx Bool.false_ne_true
  | _ => rfl

/-- An infinity compares with finite numbers by its sign. -/
theorem less_infinity {x y : Float} {s : UnpackedFloat.Sign} (hx : isFinite x = true)
    (hy : y.toModel.unpack = .infinity s) : less y x = isNegativeSign s := by
  have hx' : x.toModel.unpack.isFinite = true := hx
  rw [less_eq, hy]
  cases hu : x.toModel.unpack with
  | notANumber => rw [hu] at hx'; exact absurd hx' Bool.false_ne_true
  | infinity s => rw [hu] at hx'; exact absurd hx' Bool.false_ne_true
  | zero t => cases s <;> rfl
  | finite t m e hm => cases s <;> rfl

/-- **A finite number, limited by anything and kept above zero, is finite.** -/
theorem isFinite_limited {x : Float} (hx : isFinite x = true) (limit : Float) :
    isFinite (maximum (minimum x limit) zero) = true := by
  have hzero : isFinite (zero : Float) = true := by decide
  rcases isFinite_or limit with ⟨hlimit, -⟩ | hnan | ⟨hnan, s, hs⟩
  · exact isFinite_maximum (isFinite_minimum hx hlimit) hzero
  · rw [minimum, isNaN_of_isFinite hx, if_neg Bool.false_ne_true, hnan, if_pos rfl]
    exact isFinite_maximum hx hzero
  · rw [minimum, isNaN_of_isFinite hx, if_neg Bool.false_ne_true, hnan, if_neg Bool.false_ne_true,
      less_infinity hx hs]
    cases s with
    | positive => exact isFinite_maximum hx hzero
    | negative =>
      -- the negative infinity gives way to zero
      show isFinite (maximum limit zero) = true
      rw [maximum, hnan, if_neg Bool.false_ne_true, isNaN_of_isFinite hzero,
        if_neg Bool.false_ne_true, less_infinity hzero hs]
      exact hzero

end Slideshow
