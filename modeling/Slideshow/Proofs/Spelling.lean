import Slideshow.Proofs.Arithmetic

/-!
# How numbers are spelled

Every length, offset, zoom and amplitude of a filter is spelled (`num`) as a numeral of at most four
places. Nothing is lost that the places can hold: the text is the one numeral of the nearest number
with four places, and what is smaller never has the larger text.

* `signed?` reads a decimal that may have a minus, `fractionOf` the digits behind a point.
* `rational x` is what a finite number stands for.
* `Rounded q k`: an integer is the nearest one to a rational; a half goes to the even neighbour.

Headlines:
* **`Numeral.eq_of_value`**: a number has one numeral.
* **`float_le_iff_rational`**: comparing finite numbers compares what they stand for.
* **`Rounded.mono`**, **`Rounded.unique`**: rounding keeps the order and has one result.
* **`numeralChars_canonical`**: a finite number is spelled as the numeral of the nearest number with
  four places; this keeps the order, and two numbers have the same text exactly if they are rounded
  to the same.
-/

namespace Slideshow.Decimal

open Float.Model Float.Model.UnpackedFloat

/-! ## Digits behind a point -/

/-- The number that digits behind a point stand for. -/
def fractionOf (cs : List Char) : ℚ := natOfDigits cs / 10 ^ cs.length

theorem fractionOf_nil : fractionOf [] = 0 := zero_div _

theorem fractionOf_cons (c : Char) (cs : List Char) :
    fractionOf (c :: cs) = (digitValue c + fractionOf cs) / 10 := by
  have hpow : (10 : ℚ) ^ cs.length ≠ 0 := pow_ne_zero _ (by norm_num)
  rw [fractionOf, fractionOf, natOfDigits_cons, List.length_cons, pow_succ]
  push_cast
  field_simp

theorem fractionOf_nonneg (cs : List Char) : 0 ≤ fractionOf cs := by
  unfold fractionOf
  positivity

theorem fractionOf_lt_one {cs : List Char} (h : ∀ c ∈ cs, isDigit c = true) :
    fractionOf cs < 1 := by
  rw [fractionOf, div_lt_one (by positivity)]
  exact_mod_cast natOfDigits_lt h

theorem digitValue_inj {c d : Char} (hc : isDigit c = true) (hd : isDigit d = true)
    (h : digitValue c = digitValue d) : c = d := by
  have hlow : ∀ {c : Char}, isDigit c = true → '0'.toNat ≤ c.toNat := fun h =>
    of_decide_eq_true (Bool.and_eq_true_iff.mp h).1
  have hc := hlow hc
  have hd := hlow hd
  rw [digitValue, digitValue] at h
  exact Char.toNat_inj.mp (by omega)

theorem getLast?_tail {c d : Char} {cs : List Char} (h : (c :: cs).getLast? ≠ some d) :
    cs.getLast? ≠ some d := by
  cases cs with
  | nil => exact nofun
  | cons b bs => rwa [List.getLast?_cons_cons] at h

/-- Without a zero at the end, only no digits stand for zero. -/
theorem eq_nil_of_fractionOf {cs : List Char} (h : ∀ c ∈ cs, isDigit c = true)
    (hlast : cs.getLast? ≠ some '0') (hzero : fractionOf cs = 0) : cs = [] := by
  induction cs with
  | nil => rfl
  | cons c cs ih =>
    obtain ⟨hc, hcs⟩ := List.forall_mem_cons.mp h
    have hrest := fractionOf_nonneg cs
    rw [fractionOf_cons, div_eq_zero_iff] at hzero
    have hsum : (digitValue c : ℚ) + fractionOf cs = 0 := hzero.resolve_right (by norm_num)
    have hdigit : (0 : ℚ) ≤ digitValue c := Nat.cast_nonneg _
    obtain rfl := ih hcs (getLast?_tail hlast) (by linarith)
    have hvalue : digitValue c = digitValue '0' := by
      have hnone : (digitValue c : ℚ) = 0 := by linarith
      exact Nat.cast_eq_zero.mp hnone
    rw [digitValue_inj hc (by decide) hvalue] at hlast
    exact absurd rfl hlast

/-- **Digits without a zero at the end are known by what they stand for.** -/
theorem fractionOf_inj {as bs : List Char} (has : ∀ c ∈ as, isDigit c = true)
    (hbs : ∀ c ∈ bs, isDigit c = true) (hlast : as.getLast? ≠ some '0')
    (hlast' : bs.getLast? ≠ some '0') (h : fractionOf as = fractionOf bs) : as = bs := by
  induction as generalizing bs with
  | nil => exact (eq_nil_of_fractionOf hbs hlast' (h.symm.trans fractionOf_nil)).symm
  | cons a as ih =>
    cases bs with
    | nil => exact eq_nil_of_fractionOf has hlast (h.trans fractionOf_nil)
    | cons b bs =>
      obtain ⟨ha, has⟩ := List.forall_mem_cons.mp has
      obtain ⟨hb, hbs⟩ := List.forall_mem_cons.mp hbs
      rw [fractionOf_cons, fractionOf_cons, div_left_inj' (by norm_num)] at h
      -- the first digits are the whole parts of ten times the fractions
      have hfloor := congrArg Nat.floor h
      rw [add_comm, add_comm (digitValue b : ℚ), Nat.floor_add_natCast (fractionOf_nonneg as),
        Nat.floor_add_natCast (fractionOf_nonneg bs), Nat.floor_eq_zero.mpr (fractionOf_lt_one has),
        Nat.floor_eq_zero.mpr (fractionOf_lt_one hbs), zero_add, zero_add] at hfloor
      rw [hfloor, add_right_inj] at h
      rw [digitValue_inj ha hb hfloor, ih has hbs (getLast?_tail hlast) (getLast?_tail hlast') h]

/-! ## Numerals -/

/-- The number that a decimal stands for, which may have a sign. -/
def signed? (cs : List Char) : Option ℚ :=
  let (negative, rest) := readSign cs
  (readLiteral? rest).map fun l => if negative then -l.rational else l.rational

namespace Numeral

variable {m n : Numeral}

theorem size_eq_add (n : Numeral) : n.size = n.whole + fractionOf n.places := rfl

theorem size_nonneg (n : Numeral) : 0 ≤ n.size :=
  add_nonneg (Nat.cast_nonneg _) (fractionOf_nonneg _)

theorem whole_eq (n : Numeral) : n.whole = ⌊n.size⌋₊ := by
  rw [size_eq_add, add_comm, Nat.floor_add_natCast (fractionOf_nonneg _),
    Nat.floor_eq_zero.mpr (fractionOf_lt_one n.digits), zero_add]

theorem size_pos_of_negative (h : n.negative = true) : 0 < n.size := by
  refine lt_of_le_of_ne n.size_nonneg fun hzero => ?_
  have hfraction := fractionOf_nonneg n.places
  have hcount : (0 : ℚ) ≤ n.whole := Nat.cast_nonneg _
  rw [size_eq_add] at hzero
  have hwhole : (n.whole : ℚ) = 0 := by linarith
  rcases n.signed h with hne | hne
  · exact hne (Nat.cast_eq_zero.mp hwhole)
  · exact hne (eq_nil_of_fractionOf n.digits n.last (by linarith))

/-- A numeral below zero has a minus, and no other one. -/
theorem value_neg_iff : n.value < 0 ↔ n.negative = true := by
  rw [value]
  constructor
  · intro h
    by_contra hn
    rw [if_neg hn] at h
    exact absurd n.size_nonneg (not_le.mpr h)
  · intro h
    rw [if_pos h]
    exact neg_neg_of_pos (size_pos_of_negative h)

theorem abs_value (n : Numeral) : |n.value| = n.size := by
  rw [value]
  split
  · rw [abs_neg, abs_of_nonneg n.size_nonneg]
  · exact abs_of_nonneg n.size_nonneg

/-- The whole part of a numeral has all digits that the number has before its point. -/
theorem whole_of_value {k : ℤ} {d : ℕ} (h : n.value = (k : ℚ) / d) : n.whole = k.natAbs / d := by
  have hk : |(k : ℚ)| = (k.natAbs : ℚ) := by rw [Nat.cast_natAbs, Int.cast_abs]
  rw [n.whole_eq, ← n.abs_value, h, abs_div, hk, Nat.abs_cast]
  exact Nat.floor_div_eq_div k.natAbs d

/-- **A number has one numeral.** -/
theorem eq_of_value (h : m.value = n.value) : m = n := by
  have hsize : m.size = n.size := by rw [← m.abs_value, h, n.abs_value]
  have hnegative : m.negative = n.negative := by
    rw [Bool.eq_iff_iff, ← value_neg_iff, ← value_neg_iff, h]
  have hwhole : m.whole = n.whole := by rw [m.whole_eq, hsize, ← n.whole_eq]
  have hplaces : m.places = n.places := by
    rw [size_eq_add, size_eq_add, hwhole, add_right_inj] at hsize
    exact fractionOf_inj m.digits n.digits m.last n.last hsize
  cases m
  cases n
  simp_all

/-- A numeral is read as the number that it stands for. -/
theorem signed?_text (n : Numeral) : signed? n.text = some n.value := by
  have hrational : (⟨natDigits n.whole, n.places, 0⟩ : Literal).rational = n.size := by
    have hbody := n.literalValue_body
    rwa [literalValue, n.readLiteral?_body] at hbody
  obtain ⟨c, r, hbody, hc⟩ := n.exists_body_eq
  have hsign : ∀ negative, readSign ((if negative then ['-'] else []) ++ n.body) =
      (negative, n.body) := by
    rintro (_ | _)
    · rw [if_neg Bool.false_ne_true, List.nil_append, hbody]
      -- a digit is no sign
      rw [readSign]
      all_goals
        rintro r ⟨⟩
        exact absurd hc (by decide)
    · rfl
  rw [text, signed?, hsign]
  show (readLiteral? n.body).map _ = _
  rw [readLiteral?_body, Option.map_some, hrational, value]

end Numeral

/-! ## Rounding to an integer -/

/-- An integer is the nearest one to a rational: no other one is nearer, and if one is as near, the
integer is even. -/
def Rounded (q : ℚ) (k : ℤ) : Prop :=
  ∀ j : ℤ, j ≠ k → |q - k| < |q - j| ∨ |q - k| = |q - j| ∧ Even k

section
variable {p q : ℚ} {j k : ℤ}

theorem Rounded.le (h : Rounded q k) (j : ℤ) : |q - k| ≤ |q - j| := by
  by_cases hj : j = k
  · rw [hj]
  · exact (h j hj).elim le_of_lt fun h => h.1.le

theorem Rounded.neg (h : Rounded q k) : Rounded (-q) (-k) := by
  intro j hj
  have hmirror : ∀ i : ℤ, |-q - i| = |q - (-i : ℤ)| := fun i => by
    rw [← abs_neg]
    congr 1
    push_cast
    ring
  rw [hmirror, hmirror, neg_neg, even_neg]
  exact h (-j) fun heq => hj (by omega)

/-- What is at most half away is the nearest one, if it is even wherever it is half away. -/
theorem rounded_of_half (h : |q - k| ≤ 1 / 2) (heven : |q - k| = 1 / 2 → Even k) : Rounded q k := by
  intro j hj
  have hapart : (1 : ℚ) ≤ |(j : ℚ) - k| := by
    have hone : 1 ≤ |j - k| := Int.one_le_abs (sub_ne_zero.mpr hj)
    exact_mod_cast hone
  have hsum : |(j : ℚ) - k| ≤ |q - j| + |q - k| := by
    rw [abs_sub_comm q j]
    exact abs_sub_le (j : ℚ) q k
  rcases lt_or_eq_of_le (show |q - k| ≤ |q - j| by linarith) with hlt | heq
  · exact .inl hlt
  · exact .inr ⟨heq, heven (by linarith)⟩

/-- **Rounding keeps the order.** If not, both would lie half-way between two neighbours, and a half
goes to one of them only. -/
theorem Rounded.mono (hp : Rounded p j) (hq : Rounded q k) (h : p ≤ q) : j ≤ k := by
  by_contra hlt
  have hstep : k + 1 ≤ j := by omega
  have hcast : (k : ℚ) + 1 ≤ j := by exact_mod_cast hstep
  have hhigh : (j : ℚ) + k ≤ 2 * p := by
    have hnear := sq_le_sq.mpr (hp.le k)
    nlinarith
  have hlow : 2 * q ≤ j + k := by
    have hnear := sq_le_sq.mpr (hq.le j)
    nlinarith
  obtain rfl : p = q := by linarith
  have hmiddle : 2 * p = j + k := by linarith
  have hequal : |p - j| = |p - k| := by
    rw [show p - j = -(p - k) by linarith, abs_neg]
  have hevenj : Even j := ((hp k (by omega)).resolve_left hequal.not_lt).2
  have hevenk : Even k := ((hq j (by omega)).resolve_left hequal.not_gt).2
  -- both are even, so that the one between them would be nearer
  have hgap : k + 2 ≤ j := by
    obtain ⟨a, rfl⟩ := hevenj
    obtain ⟨b, rfl⟩ := hevenk
    omega
  have hcast : (k : ℚ) + 2 ≤ j := by exact_mod_cast hgap
  have hbetween := hq.le (k + 1)
  push_cast at hbetween
  rw [abs_of_nonneg (by linarith : 0 ≤ p - k), le_abs] at hbetween
  rcases hbetween with hle | hle <;> linarith

/-- **Rounding has one result.** -/
theorem Rounded.unique (h : Rounded q j) (h' : Rounded q k) : j = k :=
  le_antisymm (h.mono h' le_rfl) (h'.mono h le_rfl)

/-- A half goes to the even quotient. -/
theorem roundQuotient_even {num den : ℕ} (h : 0 < den)
    (htie : 2 * (roundQuotient num den * den) = 2 * num + den ∨
      2 * num = 2 * (roundQuotient num den * den) + den) :
    roundQuotient num den % 2 = 0 := by
  have hdiv := Nat.div_add_mod num den
  have hmod := Nat.mod_lt num h
  have hcomm : num / den * den = den * (num / den) := Nat.mul_comm _ _
  have hsucc : (num / den + 1) * den = den * (num / den) + den := by
    rw [Nat.add_mul, Nat.one_mul, Nat.mul_comm]
  simp only [roundQuotient] at htie ⊢
  by_cases hbelow : 2 * (num % den) < den
  · rw [if_pos hbelow] at htie
    omega
  · rw [if_neg hbelow] at htie ⊢
    by_cases habove : den < 2 * (num % den)
    · rw [if_pos habove] at htie
      omega
    · rw [if_neg habove]
      split
      · next heven => exact eq_of_beq heven
      · next hodd =>
        have hne : num / den % 2 ≠ 0 := fun h => hodd (beq_iff_eq.mpr h)
        omega

theorem roundQuotient_rounded (num : ℕ) {den : ℕ} (h : 0 < den) :
    Rounded ((num : ℚ) / den) (roundQuotient num den) := by
  have hden : (0 : ℚ) < den := by exact_mod_cast h
  obtain ⟨hlow, hhigh⟩ := roundQuotient_near num h
  have hlow : 2 * (roundQuotient num den * den : ℚ) ≤ 2 * num + den := by exact_mod_cast hlow
  have hhigh : 2 * (num : ℚ) ≤ 2 * (roundQuotient num den * den) + den := by exact_mod_cast hhigh
  have hdistance : |(num : ℚ) / den - (roundQuotient num den : ℤ)| =
      |(num : ℚ) - roundQuotient num den * den| / den := by
    rw [Int.cast_natCast, ← abs_of_pos hden, ← abs_div, abs_of_pos hden, sub_div,
      mul_div_cancel_right₀ _ hden.ne']
  refine rounded_of_half ?_ fun hhalf => ?_
  · rw [hdistance, div_le_div_iff₀ hden two_pos, one_mul, ← le_div_iff₀ two_pos, abs_le]
    constructor <;> linarith
  · rw [hdistance, div_eq_div_iff hden.ne' two_ne_zero, one_mul] at hhalf
    have hmod : roundQuotient num den % 2 = 0 := by
      refine roundQuotient_even h ?_
      rcases abs_choice ((num : ℚ) - roundQuotient num den * den) with habs | habs <;>
        rw [habs] at hhalf
      · right
        have : 2 * (num : ℚ) = 2 * (roundQuotient num den * den) + den := by linarith
        exact_mod_cast this
      · left
        have : 2 * (roundQuotient num den * den : ℚ) = 2 * num + den := by linarith
        exact_mod_cast this
    exact_mod_cast Nat.even_iff.mpr hmod

end

/-! ## What finite numbers stand for -/

/-- What the parts of a finite number stand for. -/
def Parts.rational : Parts → ℚ
  | .finite negative mantissa exponent => (if negative then -1 else 1) * magnitude mantissa exponent
  | _ => 0

/-- What a finite number stands for. -/
def rational (x : Float) : ℚ := (Parts.ofFloat x).rational

theorem magnitude_pos {m : ℕ} (e : ℤ) (h : 0 < m) : 0 < magnitude m e :=
  mul_pos (Nat.cast_pos.mpr h) (by positivity)

section
variable {x y : Float}

/-- A finite number is a zero, or stands for something above or below it. -/
theorem rational_cases (h : Scalar.isFinite x = true) :
    (∃ s, x.toModel.unpack = .zero s) ∧ rational x = 0 ∨
      ∃ m e, ∃ hm : 0 < m, Canonical m e ∧
        (x.toModel.unpack = .finite .positive m e hm ∧ rational x = magnitude m e ∨
        x.toModel.unpack = .finite .negative m e hm ∧ rational x = -magnitude m e) := by
  have hparts := ofFloat_eq x
  have hx : x.toModel.unpack.isFinite = true := h
  cases hu : x.toModel.unpack with
  | notANumber => rw [hu] at hx; exact absurd hx Bool.false_ne_true
  | infinity s => rw [hu] at hx; exact absurd hx Bool.false_ne_true
  | zero s =>
    rw [hu] at hparts
    refine .inl ⟨⟨s, rfl⟩, ?_⟩
    rw [rational, hparts, Parts.ofUnpacked, Parts.rational, magnitude, Nat.cast_zero, zero_mul,
      mul_zero]
  | finite s m e hm =>
    rw [hu] at hparts
    refine .inr ⟨m, e, hm, canonical_of_ofFloat hparts, ?_⟩
    cases s with
    | positive => exact .inl ⟨rfl, by rw [rational, hparts]; exact one_mul _⟩
    | negative => exact .inr ⟨rfl, by rw [rational, hparts]; exact neg_one_mul _⟩

/-- **Comparing finite numbers** compares what they stand for. -/
theorem float_lt_iff_rational (hx : Scalar.isFinite x = true) (hy : Scalar.isFinite y = true) :
    x < y ↔ rational x < rational y := by
  rw [float_lt_iff]
  rcases rational_cases hx with ⟨⟨s, hX⟩, hp⟩ | ⟨m, e, hm, hcm, ⟨hX, hp⟩ | ⟨hX, hp⟩⟩ <;>
    rcases rational_cases hy with ⟨⟨t, hY⟩, hq⟩ | ⟨n, f, hn, hcn, ⟨hY, hq⟩ | ⟨hY, hq⟩⟩ <;>
    rw [hX, hY, hp, hq]
  · simp [rank]
  · simp [rank, Prod.Lex.toLex_lt_toLex, magnitude_pos f hn]
  · simp [rank, Prod.Lex.toLex_lt_toLex, (magnitude_pos f hn).le]
  · simp [rank, Prod.Lex.toLex_lt_toLex, (magnitude_pos e hm).le]
  · rw [hcm.lt_iff hcn]
    simp [rank, Prod.Lex.toLex_lt_toLex]
  · have hless : -magnitude n f < magnitude m e := by
      linarith [magnitude_pos e hm, magnitude_pos f hn]
    simp [rank, Prod.Lex.toLex_lt_toLex, hless.le]
  · simp [rank, Prod.Lex.toLex_lt_toLex, magnitude_pos e hm]
  · have hless : -magnitude m e < magnitude n f := by
      linarith [magnitude_pos e hm, magnitude_pos f hn]
    simp [rank, Prod.Lex.toLex_lt_toLex, hless]
  · -- among the negative ones the larger is the one with the smaller magnitude
    rw [neg_lt_neg_iff, hcn.lt_iff hcm]
    simp [rank, Prod.Lex.toLex_lt_toLex, eq_comm]

theorem float_le_iff_rational (hx : Scalar.isFinite x = true) (hy : Scalar.isFinite y = true) :
    x ≤ y ↔ rational x ≤ rational y := by
  rw [← not_lt, ← float_lt_iff_rational hy hx]
  exact ⟨float_not_lt, float_le_of_not_lt (float_le_self hx) (float_le_self hy)⟩

/-! ## The text of a finite number -/

theorem units_rounded (m : ℕ) (e : ℤ) : Rounded (magnitude m e * 10 ^ 4) (units 4 m e) := by
  have h := roundQuotient_rounded (Parts.numerator m e * 10 ^ 4) (Parts.denominator_pos e)
  rwa [Nat.cast_mul, mul_div_right_comm, numerator_div_denominator, Nat.cast_pow,
    Nat.cast_ofNat] at h

/-- A finite number is spelled as the numeral of what it is rounded to. -/
theorem exists_numeral (h : Scalar.isFinite x = true) :
    ∃ (n : Numeral) (k : ℤ), numeralChars x = n.text ∧ n.places.length ≤ 4 ∧
    n.value = (k : ℚ) / 10 ^ 4 ∧ Rounded (rational x * 10 ^ 4) k := by
  obtain ⟨negative, m, e, hx⟩ := ofFloat_of_isFinite h
  have hunits := units_rounded m e
  refine ⟨.ofCount negative (units 4 m e), (if negative then -1 else 1) * units 4 m e,
    numeralChars_eq_text hx, Numeral.length_places_ofCount _ _, ?_, ?_⟩
  · rw [Numeral.value_ofCount]
    cases negative <;> push_cast <;> ring
  · rw [rational, hx, Parts.rational]
    cases negative with
    | false => simpa using hunits
    | true => simpa using hunits.neg

/-- **A finite number is spelled canonically.** Its text is a numeral with a whole part that has all
its digits and at most four places, of which the last is no zero, without a minus if it is zero; it
is read as the nearest number with four places, where a half goes to the even one. What is smaller
does not have the larger text, and two numbers have the same text exactly if they are rounded to the
same. -/
theorem numeralChars_canonical :
    (∀ x, Scalar.isFinite x = true → ∃ (n : Numeral) (k : ℤ),
      numeralChars x = n.text ∧ n.whole = k.natAbs / 10 ^ 4 ∧ n.places.length ≤ 4 ∧
        signed? (numeralChars x) = some ((k : ℚ) / 10 ^ 4) ∧ Rounded (rational x * 10 ^ 4) k) ∧
    (∀ x y, Scalar.isFinite x = true → Scalar.isFinite y = true → x ≤ y →
      ∃ p q, signed? (numeralChars x) = some p ∧ signed? (numeralChars y) = some q ∧ p ≤ q) ∧
    ∀ x y, Scalar.isFinite x = true → Scalar.isFinite y = true → (numeralChars x = numeralChars y ↔
      ∃ k, Rounded (rational x * 10 ^ 4) k ∧ Rounded (rational y * 10 ^ 4) k) := by
  have hread : ∀ {x : Float} {n : Numeral} {k : ℤ}, numeralChars x = n.text → n.value = k / 10 ^ 4 →
      signed? (numeralChars x) = some ((k : ℚ) / 10 ^ 4) := fun htext hvalue => by
    rw [htext, Numeral.signed?_text, hvalue]
  refine ⟨fun x hx => ?_, fun x y hx hy hle => ?_, fun x y hx hy => ?_⟩
  · obtain ⟨n, k, htext, hplaces, hvalue, hrounded⟩ := exists_numeral hx
    exact ⟨n, k, htext, Numeral.whole_of_value (by exact_mod_cast hvalue), hplaces,
      hread htext hvalue, hrounded⟩
  · obtain ⟨m, j, htext, -, hvalue, hrounded⟩ := exists_numeral hx
    obtain ⟨n, k, htext', -, hvalue', hrounded'⟩ := exists_numeral hy
    have hscaled : rational x * 10 ^ 4 ≤ rational y * 10 ^ 4 :=
      mul_le_mul_of_nonneg_right ((float_le_iff_rational hx hy).mp hle) (by positivity)
    refine ⟨_, _, hread htext hvalue, hread htext' hvalue',
      div_le_div_of_nonneg_right ?_ (by positivity)⟩
    exact_mod_cast hrounded.mono hrounded' hscaled
  · obtain ⟨m, j, htext, -, hvalue, hrounded⟩ := exists_numeral hx
    obtain ⟨n, k, htext', -, hvalue', hrounded'⟩ := exists_numeral hy
    constructor
    · intro heq
      have hsame := (hread htext hvalue).symm.trans (heq ▸ hread htext' hvalue')
      have hint : j = k := by
        have hquotient := Option.some.inj hsame
        rw [div_left_inj' (by norm_num)] at hquotient
        exact_mod_cast hquotient
      exact ⟨k, hint ▸ hrounded, hrounded'⟩
    · rintro ⟨i, hi, hi'⟩
      obtain rfl := hrounded.unique hi
      obtain rfl := hrounded'.unique hi'
      rw [htext, htext', Numeral.eq_of_value (hvalue.trans hvalue'.symm)]

/-- A number just below zero has no minus left, and a half of the last place goes to the even
neighbour. -/
theorem numeralChars_canonical_tie :
    Scalar.isFinite (-0.00001) = true ∧ Scalar.isFinite 0.03125 = true ∧
      (-0.00001 : Float) ≤ 0.03125 ∧
      numeralChars (-0.00001) = ['0'] ∧ numeralChars 0.03125 = ['0', '.', '0', '3', '1', '2'] ∧
      (∃ (n : Numeral) (k : ℤ),
        numeralChars 0.03125 = n.text ∧ n.whole = k.natAbs / 10 ^ 4 ∧ n.places.length ≤ 4 ∧
          signed? (numeralChars 0.03125) = some ((k : ℚ) / 10 ^ 4) ∧
            Rounded (rational 0.03125 * 10 ^ 4) k) ∧
      (∃ p q, signed? (numeralChars (-0.00001)) = some p ∧ signed? (numeralChars 0.03125) = some q ∧
        p ≤ q) ∧
      (numeralChars (-0.00001) = numeralChars 0.03125 ↔
        ∃ k, Rounded (rational (-0.00001) * 10 ^ 4) k ∧ Rounded (rational 0.03125 * 10 ^ 4) k) := by
  have hx : Scalar.isFinite (-0.00001) = true := rfl
  have hy : Scalar.isFinite 0.03125 = true := rfl
  have hle : (-0.00001 : Float) ≤ 0.03125 := rfl
  obtain ⟨hspelled, hordered, hsame⟩ := numeralChars_canonical
  exact ⟨hx, hy, hle, rfl, by
    decide +kernel, hspelled _ hy, hordered _ _ hx hy hle, hsame _ _ hx hy⟩

end

end Slideshow.Decimal
