import Slideshow.Narration.Duration
import Slideshow.Proofs.Literal

/-!
# Which texts are time codes

A time code (`parse_timecode`, `parse_hms`) is read by the reader of decimals, part by part, and
that reader knows more than the digits of a clock: signs, powers of ten, points without digits
before or behind them, and blanks around it all. Everything of that kind counts as a time, and
nothing else.

The arithmetic rounds, and may leave the numbers on its way. `Sums` follows its roundings as if
there were no largest number; what ends beyond it is no time.

* `Stamp`: hours, minutes and seconds as digits; `Clocks`: whatever stands for a time.
* `Stamp.Totals`: what the arithmetic makes of a stamp.

Headlines:
* **`Clocks.hms?_eq`**, **`exists_clocks`**: which texts are read as a time, and as which one.
* **`Stamp.Totals.near`**: what a stamp is read as is not far from its exact time.
* **`timecode_reads`**: every text is read as a finite number, a stamp as its time, and as zero what
  does not stand for a time.
-/

namespace Slideshow

open Decimal Scalar Text

/-! ## Parts of a text -/

theorem colonParts_eq (cs : List Char) : colonParts cs = cs.splitOn ':' := by
  induction cs with
  | nil => rfl
  | cons c r ih =>
    rw [colonParts, ih, List.splitOn_eq_splitOnP, List.splitOn_eq_splitOnP,
      List.splitOnP_cons_eq_if_modifyHead]
    split
    · rfl
    · cases h : r.splitOnP (· == ':') with
      | nil => exact absurd h (List.splitOnP_ne_nil _ r)
      | cons p ps => rfl

theorem trimChars_eq (cs : List Char) : trimChars cs = (cs.dropWhile isBlank).rdropWhile isBlank :=
  rfl

/-- What is trimmed does not begin with a blank. -/
theorem head?_trimChars (cs : List Char) : ∀ c ∈ (trimChars cs).head?, isBlank c = false := by
  intro c hc
  obtain ⟨rest, hrest⟩ := List.rdropWhile_prefix isBlank (cs.dropWhile isBlank)
  have hhead : (cs.dropWhile isBlank).head? = some c := by
    rw [← hrest, List.head?_append, ← trimChars_eq, Option.mem_def.mp hc]
    rfl
  have hfirst := List.head?_dropWhile_not isBlank cs
  rw [hhead] at hfirst
  simpa using hfirst

/-- A text that does not begin with a blank keeps its first character when it is trimmed. -/
theorem head?_trimChars_cons {c : Char} (h : isBlank c = false) (cs : List Char) :
    (trimChars (c :: cs)).head? = some c := by
  obtain ⟨rest, hrest⟩ := List.rdropWhile_prefix isBlank (c :: cs)
  rw [trimChars_eq, List.dropWhile_cons_of_neg (by simp [h])]
  cases hkept : (c :: cs).rdropWhile isBlank with
  | nil =>
    have hblank := List.rdropWhile_eq_nil_iff.mp hkept c List.mem_cons_self
    exact absurd (h.symm.trans hblank) Bool.false_ne_true
  | cons d ds =>
    rw [hkept] at hrest
    rw [(List.cons.inj hrest).1]
    rfl

theorem trimChars_of_forall {cs : List Char} (h : ∀ c ∈ cs, isBlank c = false) :
    trimChars cs = cs :=
  trimChars_eq_self (fun c hc => h c (List.mem_of_mem_head? hc)) fun c hc =>
    h c (List.mem_of_mem_getLast? hc)

/-! ## What the arithmetic makes of hours, minutes and seconds -/

/-- Hours and minutes in seconds, and both sums, each of them rounded. -/
def Sums (h m s t : ℚ) : Prop :=
  ∃ a b c, Rounds (h * 3600) a ∧ Rounds (m * 60) b ∧ Rounds (a + b) c ∧ Rounds (c + s) t

section
variable {h m s t t' : ℚ}

theorem Sums.unique (hsum : Sums h m s t) (hsum' : Sums h m s t') : t = t' := by
  obtain ⟨a, b, c, ha, hb, hc, ht⟩ := hsum
  obtain ⟨a', b', c', ha', hb', hc', ht'⟩ := hsum'
  obtain rfl := ha.unique ha'
  obtain rfl := hb.unique hb'
  obtain rfl := hc.unique hc'
  exact ht.unique ht'

/-- No part is beyond the sum. -/
theorem Sums.le (hsum : Sums h m s t) (hh : Rounds h h) (hm : Rounds m m) (hs : Rounds s s) :
    h ≤ t ∧ m ≤ t ∧ s ≤ t := by
  obtain ⟨a, b, c, ha, hb, hc, ht⟩ := hsum
  have hha := hh.mono ha (le_mul_of_one_le_right hh.nonneg (by norm_num))
  have hmb := hm.mono hb (le_mul_of_one_le_right hm.nonneg (by norm_num))
  have hac := ha.self.mono hc (le_add_of_nonneg_right hb.nonneg)
  have hbc := hb.self.mono hc (le_add_of_nonneg_left ha.nonneg)
  have hct := hc.self.mono ht (le_add_of_nonneg_right hs.nonneg)
  exact ⟨(hha.trans hac).trans hct, (hmb.trans hbc).trans hct,
    hs.mono ht (le_add_of_nonneg_left hc.nonneg)⟩

theorem exists_sum (hh : 0 ≤ h) (hm : 0 ≤ m) (hs : 0 ≤ s) : ∃ t, Sums h m s t := by
  obtain ⟨a, ha⟩ := exists_rounds (mul_nonneg hh (by norm_num : (0 : ℚ) ≤ 3600))
  obtain ⟨b, hb⟩ := exists_rounds (mul_nonneg hm (by norm_num : (0 : ℚ) ≤ 60))
  obtain ⟨c, hc⟩ := exists_rounds (add_nonneg ha.nonneg hb.nonneg)
  obtain ⟨t, ht⟩ := exists_rounds (add_nonneg hc.nonneg hs)
  exact ⟨t, a, b, c, ha, hb, hc, ht⟩

/-- **The parts are added with one rounding for each operation.** -/
theorem exists_sums {x y z : Float} (hx : Holds x h) (hy : Counts y m) (hz : Counts z s) :
    ∃ t, Sums h m s t ∧ Holds (x * 3600 + y * 60 + z) t := by
  have hhour : Worth 3600 3600 := worth_ofNat (n := 3600) (by decide)
  have hminute : Worth 60 60 := worth_ofNat (n := 60) (by decide)
  obtain ⟨a, ha, hproduct⟩ := hx.mul hhour (by norm_num)
  obtain ⟨b, hb, hproduct'⟩ := hy.mul hminute (by norm_num)
  obtain ⟨c, hc, hsum⟩ := hproduct.add_counts hproduct'
  obtain ⟨t, ht, htotal⟩ := hsum.add_counts hz
  exact ⟨t, ⟨a, b, c, ha, hb, hc, ht⟩, htotal⟩

/-- No part of a time is below zero. -/
theorem of_secondsOf {x y z v : Float} (h : secondsOf x y z = some v) : 0 ≤ x ∧ 0 ≤ y ∧ 0 ≤ z := by
  unfold secondsOf at h
  dsimp only at h
  split at h
  · next hchecks =>
    simp only [Bool.and_eq_true, decide_eq_true_eq] at hchecks
    exact ⟨hchecks.1.1.2, hchecks.1.2, hchecks.2⟩
  · cases h

/-- The sum is a time unless it is too large. -/
theorem secondsOf_counts {x y z : Float} (hx : Holds x h) (hy : Counts y m) (hz : Counts z s) :
    ∃ t, Sums h m s t ∧
        ((secondsOf x y z = none ∧ largest < t) ∨ ∃ v, secondsOf x y z = some v ∧ Worth v t) := by
  obtain ⟨t, hsums, hholds⟩ := exists_sums hx hy hz
  refine ⟨t, hsums, ?_⟩
  unfold secondsOf
  rcases hholds.cases with hworth | ⟨hlarge, hX⟩
  · right
    have hfinite : (x * 3600 + y * 60 + z).isFinite = true := hworth.isFinite
    have hx' := (Counts.zero_le (.inl hx) : 0 ≤ x)
    simp only [hfinite, Bool.true_and, Bool.and_eq_true, decide_eq_true_eq]
    rw [if_pos ⟨⟨hx', hy.zero_le⟩, hz.zero_le⟩]
    exact ⟨_, rfl, hworth⟩
  · left
    have hinfinite : (x * 3600 + y * 60 + z).isFinite = false := by
      show (x * 3600 + y * 60 + z).toModel.unpack.isFinite = false
      rw [hX]
      rfl
    simp only [hinfinite, Bool.false_and]
    exact ⟨if_neg Bool.false_ne_true, hlarge⟩

end

/-! ## What stands for a time -/

/-- A text that stands for a time: three parts between colons, each of them a decimal with blanks
around it, and no minus in front. -/
def Clocks (cs : List Char) (t : ℚ) : Prop :=
  cs.head? ≠ some '-' ∧ ∃ a b c h m s, cs.splitOn ':' = [a, b, c] ∧
  Reads (trimChars a) h ∧ Reads (trimChars b) m ∧ Reads (trimChars c) s ∧ Sums h m s t

/-- The first part has no minus in front if the text has none. -/
theorem head?_first_ne {cs a : List Char} {parts : List (List Char)}
    (hblank : ∀ c ∈ cs.head?, isBlank c = false) (hminus : cs.head? ≠ some '-')
    (hparts : cs.splitOn ':' = a :: parts) : (trimChars a).head? ≠ some '-' := by
  have hjoined : [':'].intercalate (a :: parts) = cs := by rw [← hparts, List.intercalate_splitOn]
  cases a with
  | nil => exact fun h => nomatch h
  | cons c r =>
    have hhead : cs.head? = some c := by
      rw [← hjoined]
      cases parts <;> rfl
    rw [head?_trimChars_cons (hblank c hhead), ← hhead]
    exact hminus

theorem hms?_eq_of_parts {text a b c : List Char} (hminus : (trimChars text).head? ≠ some '-')
    (hparts : (trimChars text).splitOn ':' = [a, b, c]) {x y z : Float}
    (hx : read? (trimChars a) = some x) (hy : read? (trimChars b) = some y)
    (hz : read? (trimChars c) = some z) : hms? text = secondsOf x y z := by
  have hhead : ((trimChars text).head? == some '-') = false := by simpa using hminus
  simp only [hms?, hhead, colonParts_eq, hparts, List.map_cons, List.map_nil, hx, hy, hz]
  rfl

/-- **What stands for a time is read as it**, unless it is too large. -/
theorem Clocks.hms?_eq {text : List Char} {t : ℚ} (h : Clocks (trimChars text) t) :
    (hms? text = none ∧ largest < t) ∨ ∃ v, hms? text = some v ∧ Worth v t := by
  obtain ⟨hminus, a, b, c, p, q, r, hparts, hp, hq, hr, hsums⟩ := h
  obtain ⟨x, hx, hxp⟩ := hp.exists_read
  obtain ⟨y, hy, hyq⟩ := hq.exists_read
  obtain ⟨z, hz, hzr⟩ := hr.exists_read
  have hhours := holds_of_unsigned hx (head?_first_ne (head?_trimChars text) hminus hparts) hxp
  obtain ⟨t', hsums', hread⟩ := secondsOf_counts hhours hyq hzr
  obtain rfl := hsums.unique hsums'
  rwa [hms?_eq_of_parts hminus hparts hx hy hz]

/-- **What is read as a time stands for it.** -/
theorem exists_clocks {text : List Char} {v : Float} (h : hms? text = some v) :
    ∃ t, Clocks (trimChars text) t ∧ Worth v t := by
  unfold hms? at h
  dsimp only at h
  split at h
  · cases h
  next hminus =>
  have hminus : (trimChars text).head? ≠ some '-' := fun heq => hminus (beq_iff_eq.mpr heq)
  rw [colonParts_eq] at h
  split at h
  · next x y z hmapped =>
    obtain ⟨a, b, c, hparts, hx, hy, hz⟩ : ∃ a b c, (trimChars text).splitOn ':' = [a, b, c] ∧
      read? (trimChars a) = some x ∧
        read? (trimChars b) = some y ∧ read? (trimChars c) = some z := by
      obtain ⟨a, parts, hparts, hx, hmapped⟩ := List.map_eq_cons_iff.mp hmapped
      obtain ⟨b, parts, rfl, hy, hmapped⟩ := List.map_eq_cons_iff.mp hmapped
      obtain ⟨c, parts, rfl, hz, hmapped⟩ := List.map_eq_cons_iff.mp hmapped
      obtain rfl := List.map_eq_nil_iff.mp hmapped
      exact ⟨a, b, c, hparts, hx, hy, hz⟩
    have hbounds := of_secondsOf h
    obtain ⟨p, hxp, hp⟩ := exists_counts hx hbounds.1
    obtain ⟨q, hyq, hq⟩ := exists_counts hy hbounds.2.1
    obtain ⟨r, hzr, hr⟩ := exists_counts hz hbounds.2.2
    have hhours := holds_of_unsigned hx (head?_first_ne (head?_trimChars text) hminus hparts) hxp
    obtain ⟨t, hsums, ⟨hnone, -⟩ | ⟨w, hw, hworth⟩⟩ := secondsOf_counts hhours hyq hzr
    · exact nomatch h.symm.trans hnone
    · obtain rfl := Option.some.inj (h.symm.trans hw)
      obtain ⟨hpt, hqt, hrt⟩ := hsums.le hhours.rounds hyq.rounds hzr.rounds
      have hle := hworth.le_largest
      exact ⟨t,
        ⟨hminus, a, b, c, p, q, r, hparts, hp (hpt.trans hle), hq (hqt.trans hle),
          hr (hrt.trans hle), hsums⟩, hworth⟩
  · cases h

/-! ## Stamps -/

/-- One digit or more. -/
structure Digits where
  chars : List Char
  nonempty : chars ≠ []
  digits : ∀ c ∈ chars, isDigit c = true

/-- Hours, minutes and seconds as digits, with digits behind a point or without. -/
structure Stamp where
  hours : Digits
  minutes : Digits
  seconds : Digits
  fraction : Option Digits

theorem isBlank_of_digit {c : Char} (h : isDigit c = true) : isBlank c = false := by
  rw [isDigit, Bool.and_eq_true, decide_eq_true_eq, decide_eq_true_eq] at h
  have hlow : 48 ≤ c.toNat := h.1
  have hhigh : c.toNat ≤ 57 := h.2
  simp only [isBlank, Bool.or_eq_false_iff, Bool.and_eq_false_iff, decide_eq_false_iff_not,
    beq_eq_false_iff_ne]
  omega

namespace Digits

def value (d : Digits) : ℕ := natOfDigits d.chars

theorem spells (d : Digits) : Spells d.chars ⟨d.chars, [], 0⟩ where
  whole := d.digits
  fraction := fun _ h => absurd h List.not_mem_nil
  digits := .inl d.nonempty
  text := ⟨[], [], by simp, .inr ⟨rfl, rfl⟩, .none⟩

theorem rational (d : Digits) : (Literal.mk d.chars [] 0).rational = d.value := by
  rw [Literal.rational, List.append_nil, List.length_nil, Nat.cast_zero, sub_zero, zpow_zero,
    mul_one]
  rfl

end Digits

namespace Stamp

/-- The point and the digits behind it. -/
def behind (s : Stamp) : List Char := s.fraction.elim [] fun f => '.' :: f.chars

def text (s : Stamp) : List Char :=
  s.hours.chars ++ ':' :: (s.minutes.chars ++ ':' :: (s.seconds.chars ++ s.behind))

/-- The seconds with their fraction. -/
def rest (s : Stamp) : ℚ := s.seconds.value + s.fraction.elim (0 : ℚ) fun f =>
    f.value / 10 ^ f.chars.length

/-- The time of a stamp in seconds. -/
def exact (s : Stamp) : ℚ := s.hours.value * 3600 + s.minutes.value * 60 + s.rest

/-- What the arithmetic makes of a stamp: hours, minutes and seconds are rounded before they are put
together. -/
def Totals (s : Stamp) (t : ℚ) : Prop :=
  ∃ h m r, Rounds s.hours.value h ∧ Rounds s.minutes.value m ∧ Rounds s.rest r ∧ Sums h m r t

/-- What stands behind the minutes are digits and points. -/
theorem mem_rest {s : Stamp} : ∀ c ∈ s.seconds.chars ++ s.behind, isDigit c = true ∨ c = '.' := by
  intro c hc
  rcases List.mem_append.mp hc with hc | hc
  · exact .inl (s.seconds.digits c hc)
  · unfold behind at hc
    cases hfraction : s.fraction with
    | none =>
      rw [hfraction] at hc
      exact absurd hc List.not_mem_nil
    | some f =>
      rw [hfraction] at hc
      exact (List.mem_cons.mp hc).symm.imp (f.digits c) id

theorem mem_text {s : Stamp} {c : Char} (h : c ∈ s.text) :
    isDigit c = true ∨ c = ':' ∨ c = '.' := by
  simp only [text, List.mem_append, List.mem_cons] at h
  rcases h with h | rfl | h | rfl | h
  · exact .inl (s.hours.digits c h)
  · exact .inr (.inl rfl)
  · exact .inl (s.minutes.digits c h)
  · exact .inr (.inl rfl)
  · exact (mem_rest c (List.mem_append.mpr h)).imp id .inr

theorem spells_rest (s : Stamp) :
    ∃ l, Spells (s.seconds.chars ++ s.behind) l ∧ l.rational = s.rest := by
  unfold behind rest
  cases s.fraction with
  | none =>
    rw [Option.elim_none, Option.elim_none, List.append_nil, add_zero]
    exact ⟨_, s.seconds.spells, s.seconds.rational⟩
  | some f =>
    refine ⟨⟨s.seconds.chars, f.chars, 0⟩,
      ⟨s.seconds.digits, f.digits, .inl s.seconds.nonempty, ['.'], [], ?_, .inl rfl, .none⟩, ?_⟩
    · rw [List.append_nil]
      rfl
    · show (natOfDigits (s.seconds.chars ++ f.chars) : ℚ) * 10 ^ (0 - (f.chars.length : ℤ)) = _
      rw [natOfDigits_append, zero_sub, zpow_neg, zpow_natCast, Nat.cast_add, Nat.cast_mul,
        Nat.cast_pow, Nat.cast_ofNat, add_mul,
        mul_inv_cancel_right₀ (by positivity), ← div_eq_mul_inv]
      rfl

theorem rest_nonneg (s : Stamp) : 0 ≤ s.rest := by
  unfold rest
  cases s.fraction with
  | none => exact add_nonneg (Nat.cast_nonneg _) le_rfl
  | some f => exact add_nonneg (Nat.cast_nonneg _) (div_nonneg (Nat.cast_nonneg _) (by positivity))

theorem splitOn_text (s : Stamp) :
    s.text.splitOn ':' = [s.hours.chars, s.minutes.chars, s.seconds.chars ++ s.behind] := by
  have hcolon : ∀ d : Digits, ':' ∉ d.chars := fun d h => absurd (d.digits _ h) (by decide)
  have hrest : ':' ∉ s.seconds.chars ++ s.behind := fun h => by
    rcases mem_rest _ h with hdigit | hpoint
    · exact absurd hdigit (by decide)
    · exact absurd hpoint (by decide)
  have hjoined : s.text = [':'].intercalate
      [s.hours.chars, s.minutes.chars, s.seconds.chars ++ s.behind] := by
    simp [text, List.intercalate_cons_cons]
  rw [hjoined]
  exact List.splitOn_intercalate ':' (by simp [hcolon, hrest]) (List.cons_ne_nil _ _)

/-- **A stamp stands for what the arithmetic makes of it.** -/
theorem exists_totals (s : Stamp) : ∃ t, s.Totals t ∧ Clocks s.text t := by
  obtain ⟨l, hspells, hvalue⟩ := s.spells_rest
  obtain ⟨h, hh⟩ := exists_rounds (Nat.cast_nonneg s.hours.value)
  obtain ⟨m, hm⟩ := exists_rounds (Nat.cast_nonneg s.minutes.value)
  obtain ⟨r, hr⟩ := exists_rounds s.rest_nonneg
  obtain ⟨t, hsums⟩ := exists_sum hh.nonneg hm.nonneg hr.nonneg
  have hdigits : ∀ d : Digits, trimChars d.chars = d.chars :=
    fun d => trimChars_of_forall fun c hc => isBlank_of_digit (d.digits c hc)
  have hrest : trimChars (s.seconds.chars ++ s.behind) = s.seconds.chars ++ s.behind :=
    trimChars_of_forall fun c hc => (mem_rest c hc).elim isBlank_of_digit fun h => by rw [h]; decide
  have hhead : s.text.head? ≠ some '-' :=
    head?_ne_of_digit s.hours.nonempty s.hours.digits (by decide) _
  refine ⟨t, ⟨h, m, r, hh, hm, hr, hsums⟩, hhead, _, _, _, h, m, r, s.splitOn_text, ?_, ?_, ?_,
    hsums⟩
  · rw [hdigits]
    exact s.hours.spells.reads (s.hours.rational ▸ hh)
  · rw [hdigits]
    exact s.minutes.spells.reads (s.minutes.rational ▸ hm)
  · rw [hrest]
    exact hspells.reads (hvalue ▸ hr)

/-- **What a stamp is read as is not far from its exact time.** -/
theorem Totals.near {s : Stamp} {t : ℚ} (h : s.Totals t) :
    |t - s.exact| ≤ s.exact / 2 ^ 49 + 2 ^ (-1060 : ℤ) := by
  obtain ⟨h, m, r, hh, hm, hr, a, b, c, ha, hb, hc, ht⟩ := h
  have hleast : (2 : ℚ) ^ (-1060 : ℤ) = 2 ^ 15 * 2 ^ (-1075 : ℤ) := by
    rw [← zpow_natCast, ← zpow_add₀ two_ne_zero]
    rfl
  have hpositive : (0 : ℚ) < 2 ^ (-1075 : ℤ) := by positivity
  have hrest := s.rest_nonneg
  have hhours := abs_le.mp (hh.near (Nat.cast_nonneg _))
  have hminutes := abs_le.mp (hm.near (Nat.cast_nonneg _))
  have hseconds := abs_le.mp (hr.near hrest)
  have hfirst := abs_le.mp (ha.near (mul_nonneg hh.nonneg (by norm_num)))
  have hsecond := abs_le.mp (hb.near (mul_nonneg hm.nonneg (by norm_num)))
  have hthird := abs_le.mp (hc.near (add_nonneg ha.nonneg hb.nonneg))
  have hlast := abs_le.mp (ht.near (add_nonneg hc.nonneg hr.nonneg))
  rw [hleast, exact, abs_le]
  generalize (2 : ℚ) ^ (-1075 : ℤ) = least at *
  have hhours' : (0 : ℚ) ≤ s.hours.value := Nat.cast_nonneg _
  have hminutes' : (0 : ℚ) ≤ s.minutes.value := Nat.cast_nonneg _
  constructor <;> linarith

end Stamp

/-! ## Time codes -/

/-- **What a text is read as.** It is a finite number that is not below zero. A stamp is read as
what the arithmetic makes of its parts, which is its exact time but for a part in `2 ^ 49`, unless
that is too large. What is not read as zero stands for a time, and is read as that. -/
theorem timecode_reads (text : String) : ∃ t, Worth (timecode text) t ∧
    (∀ s : Stamp, trimChars text.toList = s.text → ∃ r,
      s.Totals r ∧ |r - s.exact| ≤ s.exact / 2 ^ 49 + 2 ^ (-1060 : ℤ) ∧
        t = if r ≤ largest then r else 0) ∧
    (t ≠ 0 → Clocks (trimChars text.toList) t) := by
  unfold timecode
  cases hread : hms? text.toList with
  | none =>
    refine ⟨0, worth_zero, fun s hs => ?_, fun hne => absurd rfl hne⟩
    obtain ⟨r, htotals, hclocks⟩ := s.exists_totals
    refine ⟨r, htotals, htotals.near, ?_⟩
    rcases (hs ▸ hclocks).hms?_eq with ⟨-, hlarge⟩ | ⟨v, hv, -⟩
    · rw [if_neg hlarge.not_ge]
    · exact nomatch hread.symm.trans hv
  | some v =>
    obtain ⟨t, hclocks, hworth⟩ := exists_clocks hread
    refine ⟨t, hworth, fun s hs => ?_, fun _ => hclocks⟩
    obtain ⟨r, htotals, hclocks⟩ := s.exists_totals
    refine ⟨r, htotals, htotals.near, ?_⟩
    rcases (hs ▸ hclocks).hms?_eq with ⟨hnone, -⟩ | ⟨w, hw, hworth'⟩
    · exact nomatch hread.symm.trans hnone
    · obtain rfl := Option.some.inj (hread.symm.trans hw)
      rw [if_pos hworth'.le_largest]
      exact hworth.unique hworth'

example : timecode " 01:02:03.5\n" = 3723.5 := rfl

/-- **Texts that are no stamps are read as times**: one with a power of ten, and one with a plus,
with blanks inside and without digits before the point. -/
theorem timecode_tolerates :
    (∀ text ∈ ["1e3:0:0", "+1: 2 :.5"], ∀ s : Stamp, trimChars text.toList ≠ s.text) ∧
    timecode "1e3:0:0" = 3600000 ∧ timecode "+1: 2 :.5" = 3720.5 := by
  refine ⟨fun text htext s hs => ?_, rfl, rfl⟩
  have hforeign : ∃ c ∈ trimChars text.toList, isDigit c = false ∧ c ≠ ':' ∧ c ≠ '.' := by
    rcases List.mem_pair.mp htext with rfl | rfl
    · exact ⟨'e', by decide, by decide⟩
    · exact ⟨'+', by decide, by decide⟩
  obtain ⟨c, hc, hdigit, hcolon, hpoint⟩ := hforeign
  rcases Stamp.mem_text (hs ▸ hc) with h | h | h
  · exact Bool.false_ne_true (hdigit.symm.trans h)
  · exact hcolon h
  · exact hpoint h

end Slideshow
