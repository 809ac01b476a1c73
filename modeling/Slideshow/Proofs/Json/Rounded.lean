import Slideshow.Proofs.Json.Printed
import Slideshow.Proofs.Shortest

/-!
# Numbers that are rounded

The digits of a finite number are a text that is rounded to this number. So whatever reads numbers
is the inverse of writing them, if it rounds correctly.

* `NumberText.RoundsTo` says what a text is rounded to, `FloatReader.Correct` that a reader rounds
  to that.
* `Denotes` says what number a text without a sign stands for; `denotes_positional` and
  `denotes_scientific` are its two layouts.

Headlines:
* **`roundsTo_jsonNumber?`**: the digits of a number are rounded to it.
* **`kept_of_correct`**: a reader that rounds correctly reads every finite number back.
-/

namespace Slideshow.Json

open Decimal Scalar

/-! ## What a text is rounded to -/

/-- The number that a text stands for, without its sign. -/
def NumberText.magnitude (t : NumberText) : ℚ :=
  natOfDigits (t.whole ++ t.fraction) * 10 ^ (t.exponent - t.fraction.length)

/-- A text is rounded to a number: to the nearest one, with the sign of the text. -/
def NumberText.RoundsTo (t : NumberText) (x : Float) : Prop :=
  ∃ m e, Parts.ofFloat x = .finite t.negative m e ∧ Nearest t.magnitude m e

/-- **A text is rounded to one number only.** -/
theorem NumberText.RoundsTo.unique {t : NumberText} {x y : Float} (h : t.RoundsTo x)
    (h' : t.RoundsTo y) : x = y := by
  obtain ⟨m, e, hx, hm⟩ := h
  obtain ⟨n, f, hy, hn⟩ := h'
  obtain ⟨rfl, rfl⟩ := hm.unique (canonical_of_ofFloat hx) (canonical_of_ofFloat hy) hn
  exact ofFloat_inj hx hy

/-- A reader rounds correctly: what is rounded to a number is read as that number. -/
def FloatReader.Correct (r : FloatReader) : Prop :=
  ∀ (t : NumberText) (x : Float), t.RoundsTo x → r.read t = .float x

open Classical in
/-- The reader that does nothing but round. -/
noncomputable abbrev rounding : FloatReader where
  read t := if h : ∃ x, t.RoundsTo x then .float h.choose else .unreadable

theorem rounding_correct : rounding.Correct := by
  intro t x h
  have hexists : ∃ x, t.RoundsTo x := ⟨x, h⟩
  exact (dif_pos hexists).trans (congrArg Document.float (hexists.choose_spec.unique h))

/-! ## Parts of a number -/

section
variable {negative : Bool} {whole fraction rest : List Char}

/-- A power of ten with its sign is read. -/
theorem readPower?_written (power : ℤ) :
    readPower? ((if power < 0 then '-' else '+') :: natDigits power.natAbs) = some (power, []) := by
  obtain ⟨htake, hdrop⟩ := span_natDigits power.natAbs
  have hne : (natDigits power.natAbs).isEmpty = false := by
    simpa using natDigits_ne_nil power.natAbs
  by_cases hpower : power < 0
  · rw [if_pos hpower]
    simp only [readPower?, readSign, htake, hdrop, hne, natOfDigits_natDigits]
    rw [if_neg Bool.false_ne_true, if_pos trivial, show -(power.natAbs : ℤ) = power by omega]
  · rw [if_neg hpower]
    simp only [readPower?, readSign, htake, hdrop, hne, natOfDigits_natDigits]
    rw [if_neg Bool.false_ne_true, if_neg Bool.false_ne_true, show (power.natAbs : ℤ) = power by
      omega]

theorem readEnd?_written (negative point : Bool) (whole fraction : List Char) (power : ℤ) :
    readEnd? negative whole fraction point
      ('e' :: (if power < 0 then '-' else '+') :: natDigits power.natAbs) =
      some (⟨negative, whole, fraction, power, true⟩, []) := by
  rw [readEnd?, if_pos (by decide), readPower?_written]
  rfl

/-- Digits behind a point are read up to what is no digit. -/
theorem readFraction?_point (hne : fraction ≠ []) (hfraction : ∀ c ∈ fraction, isDigit c = true)
    (hrest : ∀ c ∈ rest.head?, isDigit c = false) :
    readFraction? ('.' :: (fraction ++ rest)) = some (fraction, true, rest) := by
  obtain ⟨htake, hdrop⟩ := span_of_forall hfraction hrest
  rw [readFraction?]
  simp only [htake, hdrop]
  rw [if_neg (by simpa using hne)]

/-- Digits that may stand in front of a point: they do not begin with a zero, unless that is all. -/
structure Leading (cs : List Char) : Prop where
  digits : ∀ c ∈ cs, isDigit c = true
  head : cs = ['0'] ∨ ∃ c r, cs = c :: r ∧ c ≠ '0'

theorem leading_digit {c : Char} (h : isDigit c = true) : Leading [c] :=
  ⟨List.forall_mem_singleton.mpr h, (em (c = '0')).imp (congrArg fun d => [d]) fun hc =>
    ⟨c, [], rfl, hc⟩⟩

theorem readUnsigned?_leading (h : Leading whole) (hrest : ∀ c ∈ rest.head?, isDigit c = false) :
    readUnsigned? negative (whole ++ rest) = readTail? negative whole rest := by
  obtain ⟨htake, hdrop⟩ := span_of_forall h.digits hrest
  rw [readUnsigned?, htake, hdrop]
  rcases h.head with rfl | ⟨c, r, rfl, hc⟩
  · rfl
  · split
    · next h => cases h
    · next h => exact absurd (List.cons.inj h).1 hc
    · rfl

/-- A number is read with its sign. -/
theorem readNumber?_signed {cs : List Char} {t : NumberText}
    (h : readUnsigned? negative cs = some (t, [])) :
    readNumber? ((if negative then ['-'] else []) ++ cs) = some (t, []) := by
  cases negative with
  | true => exact h
  | false =>
    cases cs with
    | nil => cases h
    | cons c cs =>
      have hc : c ≠ '-' := by
        rintro rfl
        rw [readUnsigned?, List.takeWhile_cons_of_neg (by decide)] at h
        cases h
      show readNumber? (c :: cs) = _
      rwa [show readNumber? (c :: cs) = readUnsigned? false (c :: cs) by simp [readNumber?, hc]]

/-! ## Layouts -/

/-- A text without a sign is read as a number, with a point or an exponent, that stands for `q`. -/
def Denotes (negative : Bool) (q : ℚ) (cs : List Char) : Prop :=
  ∃ t, readUnsigned? negative cs = some (t, []) ∧ t.negative = negative ∧ t.marked = true ∧
    t.magnitude = q

theorem denotes_point (hwhole : Leading whole) (hne : fraction ≠ [])
    (hfraction : ∀ c ∈ fraction, isDigit c = true) :
    Denotes negative (natOfDigits (whole ++ fraction) * 10 ^ (0 - fraction.length : ℤ))
    (whole ++ '.' :: fraction) := by
  have hread : readFraction? ('.' :: fraction) = some (fraction, true, []) := by
    have h := @readFraction?_point fraction [] hne hfraction fun _ h => nomatch h
    rwa [List.append_nil] at h
  refine ⟨⟨negative, whole, fraction, 0, true⟩, ?_, rfl, rfl, rfl⟩
  rw [readUnsigned?_leading hwhole (by rintro c ⟨⟩; decide), readTail?, hread]
  rfl

theorem denotes_power {c : Char} (hc : isDigit c = true)
    (hfraction : ∀ c ∈ fraction, isDigit c = true) (power : ℤ) :
    Denotes negative (natOfDigits (c :: fraction) * 10 ^ (power - fraction.length))
      ([c] ++
          (pointed fraction ++
              'e' :: (if power < 0 then '-' else '+') :: natDigits power.natAbs)) := by
  have hstop : ∀ rest : List Char, ∀ d ∈ ('e' :: rest).head?, isDigit d = false := by
    rintro rest d ⟨⟩; decide
  refine ⟨⟨negative, [c], fraction, power, true⟩, ?_, rfl, rfl, rfl⟩
  unfold pointed
  split
  · next hnil =>
    rw [List.nil_append, readUnsigned?_leading (leading_digit hc) (hstop _), hnil]
    exact readEnd?_written negative false [c] [] power
  · next hne =>
    rw [readUnsigned?_leading (leading_digit hc) (by rintro d ⟨⟩; decide), readTail?,
      List.cons_append, readFraction?_point hne hfraction (hstop _)]
    exact readEnd?_written negative true [c] fraction power

end

section
variable {d : Decimal.Significand} (hd : d.Proper) (negative : Bool)
include hd

/-- Zeros come behind the point of a number below one tenth. -/
theorem denotes_small (h : d.point ≤ 0) :
    Denotes negative d.value (['0'] ++ '.' :: (zeros (-d.point).toNat ++ d.digits)) := by
  obtain ⟨c, r, hdigits, -⟩ := hd.head
  have hdenotes :=
    @denotes_point negative ['0'] (zeros (-d.point).toNat ++ d.digits) (leading_digit (by decide))
    (by simp [hdigits]) fun c hc => (List.mem_append.mp hc).elim isDigit_of_mem_zeros (hd.digits c)
  have hvalue : natOfDigits (['0'] ++ (zeros (-d.point).toNat ++ d.digits)) =
      natOfDigits d.digits := by
    rw [← List.append_assoc,
      show ['0'] ++ zeros (-d.point).toNat = zeros ((-d.point).toNat + 1) from rfl,
      natOfDigits_zeros_append]
  have hpower : (0 - ((zeros (-d.point).toNat ++ d.digits).length : ℤ)) =
      d.point - d.digits.length := by
    rw [List.length_append, zeros, List.length_replicate]
    omega
  rwa [hvalue, hpower] at hdenotes

/-- Zeros come in front of the point of a whole number, and one behind it. -/
theorem denotes_whole (h : d.digits.length ≤ d.point.toNat) :
    Denotes negative d.value
        (d.digits ++ zeros (d.point.toNat - d.digits.length) ++ '.' :: ['0']) := by
  obtain ⟨c, r, hdigits, hc⟩ := hd.head
  have hleading : Leading (d.digits ++ zeros (d.point.toNat - d.digits.length)) :=
    ⟨fun c hc => (List.mem_append.mp hc).elim (hd.digits c) isDigit_of_mem_zeros,
      .inr ⟨c, r ++ zeros (d.point.toNat - d.digits.length), by rw [hdigits]; rfl, hc⟩⟩
  have hdenotes := @denotes_point negative _ ['0'] hleading (List.cons_ne_nil _ _)
    (List.forall_mem_singleton.mpr (by decide))
  have hvalue : natOfDigits (d.digits ++ zeros (d.point.toNat - d.digits.length) ++ ['0']) =
      natOfDigits d.digits * 10 ^ (d.point.toNat - d.digits.length) * 10 := by
    rw [show ['0'] = zeros 1 from rfl, natOfDigits_append_zeros, natOfDigits_append_zeros, pow_one]
  have hlength : 0 < d.digits.length := by simp [hdigits]
  have hpower : (10 : ℚ) ^ (d.point - d.digits.length) =
      10 ^ (d.point.toNat - d.digits.length) := by
    rw [← zpow_natCast]
    congr 1
    omega
  rw [hvalue] at hdenotes
  rw [Decimal.Significand.value, hpower]
  convert hdenotes using 1
  rw [List.length_singleton, Nat.cast_one, zero_sub, zpow_neg_one]
  push_cast
  ring

/-- The point comes among the digits of any other number. -/
theorem denotes_between (hpoint : 0 < d.point) (h : d.point.toNat < d.digits.length) :
    Denotes negative d.value
        (d.digits.take d.point.toNat ++ '.' :: d.digits.drop d.point.toNat) := by
  obtain ⟨c, r, hdigits, hc⟩ := hd.head
  obtain ⟨k, hk⟩ : ∃ k, d.point.toNat = k + 1 := ⟨d.point.toNat - 1, by omega⟩
  have hleading : Leading (d.digits.take d.point.toNat) :=
    ⟨fun c hc => hd.digits c (List.mem_of_mem_take hc),
      .inr ⟨c, r.take k, by rw [hdigits, hk, List.take_succ_cons], hc⟩⟩
  have hdenotes := @denotes_point negative _ (d.digits.drop d.point.toNat) hleading
    (List.ne_nil_of_length_pos (by rw [List.length_drop]; omega)) fun c hc =>
      hd.digits c (List.mem_of_mem_drop hc)
  have hpower : (0 - ((d.digits.drop d.point.toNat).length : ℤ)) = d.point - d.digits.length := by
    rw [List.length_drop]
    omega
  rwa [List.take_append_drop, hpower] at hdenotes

/-- Digits with a point stand for their number; one that is whole is marked. -/
theorem denotes_positional :
    Denotes negative d.value
        (d.positional ++ if d.digits.length ≤ d.point.toNat then ['.', '0'] else []) := by
  obtain ⟨c, r, hdigits, -⟩ := hd.head
  have hlength : 0 < d.digits.length := by simp [hdigits]
  unfold Decimal.Significand.positional
  split
  · next hsmall =>
    rw [if_neg (by omega), List.append_nil]
    exact denotes_small hd negative hsmall
  · next hpoint =>
    split
    · next hwhole => exact denotes_whole hd negative hwhole
    · next hshort =>
      rw [List.append_nil]
      exact denotes_between hd negative (not_le.mp hpoint) (not_le.mp hshort)

/-- Digits with a power of ten stand for their number. -/
theorem denotes_scientific : Denotes negative d.value d.scientific := by
  obtain ⟨c, r, hdigits, -⟩ := hd.head
  have hall : ∀ x ∈ c :: r, isDigit x = true := hdigits ▸ hd.digits
  have h := @denotes_power negative r c (hall c List.mem_cons_self)
    (fun x hx => hall x (List.mem_cons_of_mem c hx))
    (d.point - 1)
  have htext : d.scientific =
      [c] ++
          (pointed r ++ 'e' :: (if d.point - 1 < 0 then '-' else '+') ::
              natDigits (d.point - 1).natAbs) := by
    rw [Decimal.Significand.scientific, hdigits]
    cases r <;> rfl
  have hpower : d.point - 1 - (r.length : ℤ) = d.point - d.digits.length := by
    rw [hdigits, List.length_cons]
    omega
  rw [hpower, ← hdigits] at h
  rw [htext]
  exact h

end

/-- A finite number is written as what is rounded to it. -/
theorem denotes_finite (negative : Bool) {m : ℕ} {e : ℤ} (h : Canonical m e) :
    ∃ q cs, jsonLayout.finite negative m e = (if negative then ['-'] else []) ++ cs ∧
        Denotes negative q cs ∧ Nearest q m e := by
  rcases Nat.eq_zero_or_pos m with rfl | hm
  · have hzero : isDigit '0' = true := by decide
    have hdenotes :=
      @denotes_point negative ['0'] ['0'] (leading_digit hzero) (List.cons_ne_nil _ _)
      (List.forall_mem_singleton.mpr hzero)
    refine ⟨_, ['0', '.', '0'], rfl, hdenotes, ?_⟩
    have hself := nearest_self 0 e
    rw [magnitude, Nat.cast_zero, zero_mul] at hself
    rwa [show natOfDigits (['0'] ++ ['0']) = 0 by decide, Nat.cast_zero, zero_mul]
  · obtain ⟨hproper, hnearest⟩ := nearest_shortest hm h jsonLayout.tie
    have hzero : (m == 0) = false := by simpa using hm.ne'
    unfold Layout.finite
    rw [hzero, if_neg Bool.false_ne_true]
    dsimp only
    split
    · exact ⟨_, _, List.append_assoc _ _ _, denotes_positional hproper negative, hnearest⟩
    · exact ⟨_, _, rfl, denotes_scientific hproper negative, hnearest⟩

/-! ## Numbers read back -/

/-- **The digits of a number are rounded to it.** -/
theorem roundsTo_jsonNumber? {x : Float} (h : isFinite x = true) :
    ∃ cs t, jsonNumber? x = some cs ∧ readNumber? cs = some (t, []) ∧ t.marked = true ∧
        t.RoundsTo x := by
  obtain ⟨negative, m, e, hx⟩ := ofFloat_of_isFinite h
  obtain ⟨q, cs, htext, ⟨t, hread, hnegative, hmarked, hmagnitude⟩, hnearest⟩ :=
    denotes_finite negative (canonical_of_ofFloat hx)
  refine ⟨_, t, by
    rw [jsonNumber?, hx], htext ▸ readNumber?_signed hread, hmarked, m, e, ?_,
      hmagnitude ▸ hnearest⟩
  rw [hx, hnegative]

/-- **A reader that rounds correctly reads every finite number back.** -/
theorem kept_of_correct [r : FloatReader] (hcorrect : r.Correct) {x : Float}
    (h : isFinite x = true) : Kept x := by
  obtain ⟨cs, t, htext, hread, hmarked, hrounds⟩ := roundsTo_jsonNumber? h
  have hdocument : t.document = .float x := by
    unfold NumberText.document
    dsimp only
    rw [hmarked, Bool.true_or, if_pos rfl]
    exact hcorrect t x hrounds
  rw [Kept, reread?, htext]
  simp [hread, hdocument]

end Slideshow.Json
