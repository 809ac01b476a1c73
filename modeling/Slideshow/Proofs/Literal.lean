import Slideshow.Proofs.Unbounded

/-!
# Decimals are rounded once

The reader of decimals has three ways to a number: two numbers that are exact, if the digits are
few; the arithmetic of mantissas, if they are more; and neither of them, if the decimal is far
beyond the numbers. All three round the decimal itself, and once.

* `Signs`, `Power`, `Spells` say how signs, powers of ten and unsigned decimals are written.
* `Reads`: what a signed decimal counts.

Headlines:
* **`nearly_nearest`**: what is read is the number nearest to the decimal.
* **`readLiteral?_eq_some_iff`**: which texts are unsigned decimals, and what their digits are.
* **`exists_counts`**, **`Reads.exists_read`**: what is read is a decimal or too large, and decimals
  are read.
-/

namespace Slideshow.Decimal

open Float.Model Float.Model.UnpackedFloat

/-! ## Rounding a decimal -/

theorem worth_powerOfTen {k : ℕ} (hk : k < Float.exactlyRepresentablePowersOfTen.size) :
    Worth Float.exactlyRepresentablePowersOfTen[k] (10 ^ k) := by
  have hparts : ∀ i : Fin 23, (match Float.exactlyRepresentablePowersOfTen[i].toModel.unpack with
      | .finite .positive m e _ => Parts.numerator m e == 10 ^ i.val * Parts.denominator e
      | _ => false) = true := by decide +kernel
  have hpart := hparts ⟨k, hk⟩
  split at hpart
  · next m e hm hunpack =>
    have hvalue : magnitude m e = 10 ^ k := by
      rw [← numerator_div_denominator, eq_of_beq hpart]
      push_cast
      exact mul_div_cancel_right₀ _ (by exact_mod_cast (Parts.denominator_pos e).ne')
    exact hvalue ▸ worth_of_unpack hunpack
  · cases hpart

/-- A mantissa and a power of ten are rounded once, if the power is not far beyond the numbers. -/
theorem nearly_ofScientific {m : ℕ} {e : ℤ} (hm : 0 < m) (hlow : -(2 ^ 11 + m.log2) ≤ e)
    (hhigh : e ≤ 2 ^ 11) :
    Nearly (Float.ofScientific m (decide (e < 0)) e.natAbs) (m * 10 ^ e) := by
  by_cases hfast : m < 2 ^ 53 ∧ e.natAbs ≤ 22
  · have hmantissa : Worth m.toUInt64.toFloat m := by
      have hworth :=
        worth_of_unpack (unpack_toFloat hm hfast.1 (Nat.mul_pos hm (Nat.two_pow_pos _)))
      rwa [magnitude_natShift] at hworth
    have hten : (0 : ℚ) < 10 ^ e.natAbs := by positivity
    rw [Float.ofScientific, dif_pos hfast]
    by_cases he : e < 0
    · rw [decide_eq_true he, if_pos rfl, zpow_eq_div (by norm_num) e,
        show e.toNat = 0 by omega, show (-e).toNat = e.natAbs by omega, pow_zero, mul_one_div]
      exact (RoundsOnce.div (worth_powerOfTen _) hten).nearly hmantissa
    · rw [decide_eq_false he, if_neg Bool.false_ne_true, zpow_eq_div (by norm_num) e,
        show e.toNat = e.natAbs by omega, show (-e).toNat = 0 by omega, pow_zero, div_one]
      exact (RoundsOnce.mul (worth_powerOfTen _) hten).nearly hmantissa
  · have hsigned : (if decide (e < 0) = true then Int.negOfNat e.natAbs else Int.ofNat e.natAbs) =
        e := by
      by_cases he : e < 0
      · rw [if_pos (decide_eq_true he), Int.negOfNat_eq, Int.ofNat_eq_natCast]
        omega
      · rw [if_neg (by simpa using he), Int.ofNat_eq_natCast]
        omega
    have hmodel : Float.ofScientific m (decide (e < 0)) e.natAbs =
        Float.ofModel (Float.Model.ofScientific m e) := by
      rw [Float.ofScientific, dif_neg hfast]
      simp only [hsigned]
    obtain ⟨k, g, hk, hnearest, hround⟩ := scientific_rounded hm hlow hhigh
    rw [hmodel]
    exact ⟨k, g, hk, hnearest,
      congrArg (fun u => UnpackedFloat.unpack _ (UnpackedFloat.pack _ u)) hround⟩

/-- What is far beyond the numbers is infinite. -/
theorem nearly_infinity {q : ℚ} (hq : 2 ^ 1024 ≤ q) : Nearly infinity q := by
  obtain ⟨m, e, hm, hnearest⟩ := exists_nearest ((by positivity : (0 : ℚ) ≤ 2 ^ 1024).trans hq)
  have hvalue : magnitude (2 ^ 52) 972 = 2 ^ 1024 := by
    rw [magnitude, Nat.cast_pow,
      Nat.cast_ofNat, ← zpow_natCast, ← zpow_natCast, ← zpow_add₀ two_ne_zero]
    rfl
  have hle := hnearest.le_magnitude_of_le (by decide : 2 ^ 52 < 2 ^ 53)
    (by decide : (-1074 : ℤ) ≤ 972) (hvalue ▸ hq)
  have he : 971 < e := by
    have hexponent := Canonical.exponent_le ⟨by decide, by decide, fun _ => le_rfl⟩ hm hle
    omega
  exact ⟨m, e, hm, hnearest, (unpack_pack_overflow (hm.pos (by omega)) he).symm⟩

/-- What is far below them is zero. -/
theorem nearly_tiny {q : ℚ} (hq : 0 ≤ q) (hle : q ≤ 2 ^ (-1075 : ℤ)) : Nearly 0 q := by
  obtain ⟨m, e, hm, hnearest⟩ := exists_nearest hq
  obtain rfl := (hnearest.eq_zero_iff hm hq).mpr hle
  exact ⟨0, e, hm, hnearest, rfl⟩

/-- With that many digits in front of the point, a decimal is beyond the numbers. -/
theorem two_pow_le_decimal {m n : ℕ} {e : ℤ} (hm : 10 ^ n ≤ m) (hlarge : 310 ≤ n + e) :
    (2 : ℚ) ^ 1024 ≤ m * 10 ^ e := by
  calc (2 ^ 1024 : ℚ) ≤ 2 ^ (205 * 5) := pow_le_pow_right₀ (by norm_num) (by norm_num)
    _ = (2 ^ 205) ^ 5 := pow_mul _ _ _
    _ ≤ (10 ^ 62) ^ 5 := pow_le_pow_left₀ (by positivity) (by norm_num) 5
    _ = 10 ^ (62 * 5) := (pow_mul _ _ _).symm
    _ ≤ 10 ^ ((n : ℤ) + e) := by
      rw [← zpow_natCast]; exact zpow_le_zpow_right₀ (by norm_num) (by omega)
    _ = 10 ^ n * 10 ^ e := by rw [zpow_add₀ (by norm_num), zpow_natCast]
    _ ≤ m * 10 ^ e := mul_le_mul_of_nonneg_right (by exact_mod_cast hm) (by positivity)

/-- With that many zeros behind it, a decimal is below them. -/
theorem decimal_le_two_pow {m n : ℕ} {e : ℤ} (hm : m ≤ 10 ^ n) (hsmall : n + e ≤ -400) :
    (m * 10 ^ e : ℚ) ≤ 2 ^ (-1075 : ℤ) := by
  calc (m * 10 ^ e : ℚ) ≤ 10 ^ n * 10 ^ e :=
    mul_le_mul_of_nonneg_right (by exact_mod_cast hm) (by positivity)
    _ = 10 ^ ((n : ℤ) + e) := by rw [zpow_add₀ (by norm_num), zpow_natCast]
    _ ≤ 10 ^ (-(400 : ℕ) : ℤ) := zpow_le_zpow_right₀ (by norm_num) hsmall
    _ = (10 ^ 400)⁻¹ := by rw [zpow_neg, zpow_natCast]
    _ ≤ ((2 ^ 3) ^ 400)⁻¹ :=
      inv_anti₀ (by positivity) (pow_le_pow_left₀ (by norm_num) (by norm_num) 400)
    _ = 2 ^ (-(3 * 400 : ℕ) : ℤ) := by rw [← pow_mul, zpow_neg, zpow_natCast]
    _ ≤ 2 ^ (-1075 : ℤ) := zpow_le_zpow_right₀ (by norm_num) (by omega)

/-- **What is read is the number nearest to the decimal.** -/
theorem nearly_nearest (m : ℕ) (e : ℤ) : Nearly (nearest m e) (m * 10 ^ e) := by
  unfold nearest
  split
  · next hzero =>
    rw [eq_of_beq hzero, Nat.cast_zero, zero_mul]
    exact nearly_zero rfl
  next hne =>
  have hm : 0 < m := Nat.pos_of_ne_zero fun h => hne (beq_iff_eq.mpr h)
  have hlow := pow_length_natDigits_le hm
  have hhigh := lt_pow_length_natDigits m
  have hlength : 0 < (natDigits m).length := List.length_pos_iff.mpr (natDigits_ne_nil m)
  change Nearly
    (if ((natDigits m).length : ℤ) + e > 310 then _ else if ((natDigits m).length : ℤ) + e <
      -400 then _ else _) _
  split
  · exact nearly_infinity (two_pow_le_decimal hlow (by omega))
  split
  · exact nearly_tiny (by positivity) (decimal_le_two_pow hhigh.le (by omega))
  · have hlog : (natDigits m).length - 1 ≤ m.log2 :=
      (Nat.le_log2 hm.ne').mpr ((Nat.pow_le_pow_left (by decide) _).trans hlow)
    exact nearly_ofScientific hm (by omega) (by omega)

/-! ## Texts of decimals -/

/-- How a sign is written; a plus may be left out. -/
inductive Signs : Bool → List Char → Prop
  | none : Signs false []
  | plus : Signs false ['+']
  | minus : Signs true ['-']

/-- How a power of ten is written; none is the power zero. -/
inductive Power : List Char → ℤ → Prop
  | none : Power [] 0
  | some {mark : Char} {negative : Bool} {sign ds : List Char} (hmark : mark = 'e' ∨ mark = 'E')
  (hsign : Signs negative sign) (hne : ds ≠ []) (hds : ∀ c ∈ ds, isDigit c = true) :
      Power (mark :: (sign ++ ds)) (if negative then -(natOfDigits ds : ℤ) else natOfDigits ds)

/-- How an unsigned decimal is written: digits with a point before, among or behind them or with
none, and a power of ten. -/
structure Spells (cs : List Char) (l : Literal) : Prop where
  whole : ∀ c ∈ l.whole, isDigit c = true
  fraction : ∀ c ∈ l.fraction, isDigit c = true
  digits : l.whole ≠ [] ∨ l.fraction ≠ []
  text : ∃ point power, cs = l.whole ++ (point ++ (l.fraction ++ power)) ∧
    (point = ['.'] ∨ point = [] ∧ l.fraction = []) ∧
    Power power l.exponent

/-- What a signed decimal counts: what it is rounded to, and behind a minus nothing but zero. -/
def Reads (cs : List Char) (q : ℚ) : Prop :=
  ∃ negative sign digits l, Signs negative sign ∧ cs = sign ++ digits ∧ Spells digits l ∧
  Rounds l.rational q ∧ (negative = true → q = 0)

section
variable {cs rest : List Char} {negative : Bool} {l : Literal} {q : ℚ}

theorem exists_of_readSign (h : readSign cs = (negative, rest)) :
    ∃ sign, Signs negative sign ∧ cs = sign ++ rest := by
  unfold readSign at h
  split at h
  all_goals
    obtain ⟨rfl, rfl⟩ := Prod.mk.inj h
  · exact ⟨_, .minus, rfl⟩
  · exact ⟨_, .plus, rfl⟩
  · exact ⟨_, .none, rfl⟩

/-- A sign is read if what is behind it cannot be one. -/
theorem Signs.readSign {sign : List Char} (h : Signs negative sign) (hplus : rest.head? ≠ some '+')
    (hminus : rest.head? ≠ some '-') :
    readSign (sign ++ rest) = (negative, rest) := by
  cases h with
  | plus => rfl
  | minus => rfl
  | none =>
    rw [List.nil_append, Decimal.readSign]
    · exact fun r hr => hminus (hr ▸ rfl)
    · exact fun r hr => hplus (hr ▸ rfl)

theorem head?_ne_of_digit {c : Char} (hne : cs ≠ []) (hcs : ∀ d ∈ cs, isDigit d = true)
    (hc : isDigit c = false) (rest : List Char) :
    (cs ++ rest).head? ≠ some c := by
  cases cs with
  | nil => exact absurd rfl hne
  | cons d cs =>
    rintro ⟨⟩
    exact Bool.false_ne_true (hc.symm.trans (hcs _ List.mem_cons_self))

theorem readExponent?_eq_some_iff {e : ℤ} : readExponent? cs = some e ↔ Power cs e := by
  constructor
  · intro h
    cases cs with
    | nil =>
      obtain rfl := Option.some.inj h
      exact .none
    | cons c r =>
      rw [readExponent?] at h
      split at h
      · next hmark =>
        obtain ⟨⟨negative, ds⟩, hsign⟩ : ∃ p, readSign r = p := ⟨_, rfl⟩
        rw [hsign] at h
        dsimp only at h
        split at h
        · cases h
        · next hds =>
          simp only [Bool.or_eq_true, List.isEmpty_iff, Bool.not_eq_true', not_or,
            Bool.not_eq_false, List.all_eq_true] at hds
          obtain rfl := Option.some.inj h
          obtain ⟨sign, hsigns, rfl⟩ := exists_of_readSign hsign
          exact .some (by simpa using hmark) hsigns hds.1 hds.2
      · cases h
  · intro h
    cases h with
    | none => rfl
    | @some mark negative sign ds hmark hsign hne hds =>
      have hread : readSign (sign ++ ds) = (negative, ds) :=
        hsign.readSign (by simpa using head?_ne_of_digit hne hds (by decide) [])
          (by simpa using head?_ne_of_digit hne hds (by decide) [])
      rw [readExponent?, if_pos (by simpa using hmark), hread]
      dsimp only
      rw [if_neg (by simpa [hne] using hds)]

theorem Power.head {e : ℤ} (h : Power cs e) : ∀ c ∈ cs.head?, isDigit c = false ∧ c ≠ '.' := by
  cases h with
  | none => exact fun c hc => absurd hc (Option.not_mem_none c)
  | some hmark hsign hne hds =>
    rintro c ⟨⟩
    rcases hmark with rfl | rfl <;> decide

theorem readLiteral?_point {r : List Char} (h : cs.dropWhile isDigit = '.' :: r) : readLiteral? cs =
    if (cs.takeWhile isDigit).isEmpty && (r.takeWhile isDigit).isEmpty then none
    else (readExponent? (r.dropWhile isDigit)).map fun e =>
      ⟨cs.takeWhile isDigit, r.takeWhile isDigit, e⟩ := by
  simp only [readLiteral?, h]

theorem readLiteral?_plain (h : ∀ r, cs.dropWhile isDigit ≠ '.' :: r) : readLiteral? cs =
    if (cs.takeWhile isDigit).isEmpty then none
    else (readExponent? (cs.dropWhile isDigit)).map fun e => ⟨cs.takeWhile isDigit, [], e⟩ := by
  generalize hrest : cs.dropWhile isDigit = rest at h
  simp only [readLiteral?, hrest, List.isEmpty_nil, Bool.and_true]

/-- What is read is spelled by the text. -/
theorem Spells.of_readLiteral? (h : readLiteral? cs = some l) : Spells cs l := by
  have hsplit := (List.takeWhile_append_dropWhile (p := isDigit) (l := cs)).symm
  by_cases hpoint : ∃ r, cs.dropWhile isDigit = '.' :: r
  · obtain ⟨r, hr⟩ := hpoint
    rw [readLiteral?_point hr] at h
    split at h
    · cases h
    next hdigits =>
    obtain ⟨e, he, rfl⟩ := Option.map_eq_some_iff.mp h
    rw [Bool.and_eq_true, List.isEmpty_iff, List.isEmpty_iff, not_and_or] at hdigits
    refine ⟨fun _ => List.mem_takeWhile_imp, fun _ => List.mem_takeWhile_imp, hdigits, ['.'], _, ?_,
      .inl rfl, readExponent?_eq_some_iff.mp he⟩
    rw [List.takeWhile_append_dropWhile, List.singleton_append, ← hr]
    exact hsplit
  · rw [readLiteral?_plain (not_exists.mp hpoint)] at h
    split at h
    · cases h
    next hdigits =>
    obtain ⟨e, he, rfl⟩ := Option.map_eq_some_iff.mp h
    exact ⟨fun _ => List.mem_takeWhile_imp, fun _ h => absurd h List.not_mem_nil,
      .inl (by simpa using hdigits), [], _, hsplit, .inr ⟨rfl, rfl⟩,
      readExponent?_eq_some_iff.mp he⟩

/-- What a text spells is read from it. -/
theorem Spells.readLiteral? (h : Spells cs l) : Decimal.readLiteral? cs = some l := by
  obtain ⟨whole, fraction, e⟩ := l
  obtain ⟨hwhole, hfraction, hdigits, point, power, rfl, hpoint, hpower⟩ := h
  have hexponent := readExponent?_eq_some_iff.mpr hpower
  have hend : ∀ c ∈ power.head?, isDigit c = false := fun c hc => (hpower.head c hc).1
  rcases hpoint with rfl | ⟨rfl, hnone⟩
  · have hdot : ∀ c ∈ ('.' :: (fraction ++ power)).head?, isDigit c = false := by
      rintro c ⟨⟩
      decide
    obtain ⟨htake, hdrop⟩ := span_of_forall hwhole hdot
    obtain ⟨htake', hdrop'⟩ := span_of_forall hfraction hend
    have hempty : ¬(whole.isEmpty && fraction.isEmpty) = true := by
      rwa [Bool.and_eq_true, List.isEmpty_iff, List.isEmpty_iff, not_and_or]
    rw [List.singleton_append, readLiteral?_point hdrop, htake, htake', hdrop', if_neg hempty,
      hexponent]
    rfl
  · obtain rfl : fraction = [] := hnone
    obtain ⟨htake, hdrop⟩ := span_of_forall hwhole hend
    have hplain : ∀ r, (whole ++ power).dropWhile isDigit ≠ '.' :: r := fun r hr => by
      rw [hdrop] at hr
      exact (hpower.head '.' (hr ▸ rfl)).2 rfl
    have hempty : ¬whole.isEmpty = true := by simpa using hdigits.resolve_right (not_not.mpr rfl)
    rw [List.nil_append, List.nil_append, readLiteral?_plain hplain, htake, hdrop, if_neg hempty,
      hexponent]
    rfl

/-- **The texts of unsigned decimals**, and the digits that are read from them. -/
theorem readLiteral?_eq_some_iff : readLiteral? cs = some l ↔ Spells cs l :=
  ⟨.of_readLiteral?, Spells.readLiteral?⟩

/-- An unsigned decimal begins with a digit or a point, which is no letter. -/
theorem Spells.head (h : Spells cs l) : ∃ c r, cs = c :: r ∧ c.toNat < 58 ∧ c ≠ '+' ∧ c ≠ '-' := by
  have hdigit : ∀ {c}, isDigit c = true → c.toNat < 58 ∧ c ≠ '+' ∧ c ≠ '-' := by
    intro c hc
    refine ⟨?_, ?_, ?_⟩
    · rw [isDigit, Bool.and_eq_true, decide_eq_true_eq, decide_eq_true_eq] at hc
      exact Nat.lt_succ_of_le hc.2
    · rintro rfl
      exact absurd hc (by decide)
    · rintro rfl
      exact absurd hc (by decide)
  obtain ⟨hwhole, hfraction, hdigits, point, power, rfl, hpoint, -⟩ := h
  cases hw : l.whole with
  | cons c r => exact ⟨c, _, rfl, hdigit (hwhole c (hw ▸ List.mem_cons_self))⟩
  | nil =>
    rcases hpoint with rfl | ⟨-, hnone⟩
    · exact ⟨'.', _, rfl, by decide⟩
    · exact absurd hnone (hdigits.resolve_left (not_not.mpr hw))

theorem toLower_of_lt {c : Char} (h : c.toNat < 65) : c.toLower = c := by
  unfold Char.toLower
  split
  · next hcapital =>
    have hlow : 'A'.val.toNat ≤ c.val.toNat := UInt32.le_iff_toNat_le.mp hcapital.1
    exact absurd h (not_lt.mpr hlow)
  · rfl

/-- A decimal is none of the words that are numbers. -/
theorem Spells.readMagnitude? (h : Spells cs l) : readMagnitude? cs = some l.value := by
  have hliteral := readLiteral?_eq_some_iff.mpr h
  obtain ⟨c, r, rfl, hc, -⟩ := h.head
  have hlower := toLower_of_lt (hc.trans (by decide))
  have hword : ∀ {d : Char} {ds : List Char}, 58 ≤ d.toNat →
      ¬((c :: r).map Char.toLower == d :: ds) = true := by
    intro d ds hd hword
    obtain ⟨rfl, -⟩ := List.cons.inj (eq_of_beq hword)
    rw [hlower] at hd
    omega
  unfold Decimal.readMagnitude?
  dsimp only
  rw [if_neg, if_neg (hword (by decide)), hliteral]
  · rfl
  · rw [Bool.or_eq_true, not_or]
    exact ⟨hword (by decide), hword (by decide)⟩

/-- What is read of an unsigned decimal is what it is rounded to. -/
theorem exists_holds_value (l : Literal) : ∃ q, Rounds l.rational q ∧ Holds l.value q :=
  (nearly_nearest _ _).holds

/-- The infinity holds something that is too large. -/
theorem exists_holds_infinity : ∃ q, Holds infinity q ∧ largest < q := by
  obtain ⟨q, -, hholds⟩ := (nearly_infinity le_rfl).holds
  have hlarge := hholds.cases.resolve_left fun hworth => absurd hworth.isFinite (by decide)
  exact ⟨q, hholds, hlarge.1⟩

/-- What is read is a decimal or one of the words, with a sign. -/
theorem of_read? {x : Float} (h : read? cs = some x) :
    ∃ negative sign digits v, Signs negative sign ∧ cs = sign ++ digits ∧
    x = (if negative then -v else v) ∧
        (v = infinity ∨ v = notANumber ∨ ∃ l : Literal, Spells digits l ∧ v = l.value) := by
  obtain ⟨⟨negative, digits⟩, hsign⟩ : ∃ p, readSign cs = p := ⟨_, rfl⟩
  obtain ⟨sign, hsigns, rfl⟩ := exists_of_readSign hsign
  rw [read?, hsign] at h
  obtain ⟨v, hv, rfl⟩ := Option.map_eq_some_iff.mp h
  refine ⟨negative, sign, digits, v, hsigns, rfl, rfl, ?_⟩
  unfold Decimal.readMagnitude? at hv
  dsimp only at hv
  split at hv
  · exact .inl (Option.some.inj hv).symm
  split at hv
  · exact .inr (.inl (Option.some.inj hv).symm)
  · obtain ⟨l, hl, rfl⟩ := Option.map_eq_some_iff.mp hv
    exact .inr (.inr ⟨l, readLiteral?_eq_some_iff.mp hl, rfl⟩)

/-- **A number that is read is counted** if it is not below zero: it is a decimal then, or too
large. -/
theorem exists_counts {x : Float} (h : read? cs = some x) (hle : 0 ≤ x) :
    ∃ q, Counts x q ∧ (q ≤ largest → Reads cs q) := by
  obtain ⟨negative, sign, digits, v, hsigns, rfl, rfl, hv⟩ := of_read? h
  rcases hv with rfl | rfl | ⟨l, hspells, rfl⟩
  · obtain ⟨q, hholds, hlarge⟩ := exists_holds_infinity
    cases negative with
    | false => exact ⟨q, .inl hholds, fun hq => absurd hlarge hq.not_gt⟩
    | true => exact absurd hle (by decide)
  · cases negative <;> exact absurd hle (by decide)
  · obtain ⟨q, hq, hholds⟩ := exists_holds_value l
    cases negative with
    | false =>
      exact ⟨q, .inl hholds, fun _ =>
        ⟨false, sign, digits, l, hsigns, rfl, hspells, hq, fun h => nomatch h⟩⟩
    | true =>
      obtain rfl := hholds.eq_zero_of_neg hle
      exact ⟨0, hholds.neg, fun _ =>
        ⟨true, sign, digits, l, hsigns, rfl, hspells, hq, fun _ => rfl⟩⟩

/-- Without a minus, no negative zero is read. -/
theorem holds_of_unsigned {x : Float} (h : read? cs = some x) (hhead : cs.head? ≠ some '-')
    (hx : Counts x q) : Holds x q := by
  refine hx.resolve_right fun hzero => ?_
  obtain ⟨negative, sign, digits, v, hsigns, rfl, rfl, hv⟩ := of_read? h
  obtain rfl : negative = false := by
    cases hsigns with
    | minus => exact absurd rfl hhead
    | _ => rfl
  rw [if_neg Bool.false_ne_true] at hzero
  rcases hv with rfl | rfl | ⟨l, -, rfl⟩
  · exact nomatch hzero.1
  · exact nomatch hzero.1
  · obtain ⟨r, -, hholds⟩ := exists_holds_value l
    rcases hholds.cases with hworth | ⟨-, hX⟩
    · rcases hworth.cases with ⟨hX, -⟩ | ⟨m, e, hm, -, hX, -⟩ <;>
        exact nomatch hX.symm.trans hzero.1
    · exact nomatch hX.symm.trans hzero.1

/-- An unsigned decimal counts what it is rounded to. -/
theorem Spells.reads (h : Spells cs l) (hq : Rounds l.rational q) : Reads cs q :=
  ⟨false, [], cs, l, .none, rfl, h, hq, fun h => nomatch h⟩

/-- **A decimal is read** as the number that it counts. -/
theorem Reads.exists_read (h : Reads cs q) : ∃ x, read? cs = some x ∧ Counts x q := by
  obtain ⟨negative, sign, digits, l, hsigns, rfl, hspells, hq, hminus⟩ := h
  obtain ⟨c, r, rfl, -, hplus, hdash⟩ := hspells.head
  obtain ⟨q', hq', hholds⟩ := exists_holds_value l
  obtain rfl := hq.unique hq'
  have hsign :=
    hsigns.readSign (show (c :: r).head? ≠ some '+' from fun h => hplus (Option.some.inj h))
    (show (c :: r).head? ≠ some '-' from fun h => hdash (Option.some.inj h))
  have hread : read? (sign ++ c :: r) = some (if negative then -l.value else l.value) := by
    rw [read?, hsign]
    dsimp only
    rw [hspells.readMagnitude?]
    rfl
  refine ⟨_, hread, ?_⟩
  cases negative with
  | false => exact .inl hholds
  | true =>
    obtain rfl := hminus rfl
    exact hholds.neg

end

end Slideshow.Decimal
