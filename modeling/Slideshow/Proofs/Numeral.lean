import Slideshow.Decimal.Fixed
import Slideshow.Decimal.Reader
import Mathlib.Data.List.DropRight
import Mathlib.Data.List.TakeWhile
import Mathlib.Data.Rat.Defs
import Mathlib.Algebra.Order.Field.Rat
import Mathlib.Tactic.FieldSimp
import Mathlib.Tactic.Ring

/-!
# Numerals read back

The text of a number inside filters: a sign, the digits before the point, and the digits after it
without trailing zeros. Read back, it is the number rounded to four places.

* `Numeral` is a decimal with nothing too many; `Numeral.ofCount` is the one of a count of units.

Headlines:
* `natOfDigits_natDigits`, `natOfDigits_append`: digits stand for the number that they were made of.
* `readLiteral?_digits`: how digits with a point are read.
* **`trimPlaces_placed`**: what is left of a number with all its places is a numeral.
* **`numeralChars_finite`**: the text of a finite number reads as the number rounded to four places.
-/

namespace Slideshow.Decimal

/-! ## Digits -/

theorem isDigit_of_mem_natDigits {n : Nat} {c : Char} (h : c ∈ natDigits n) : isDigit c = true :=
  Nat.isDigit_of_mem_toDigits (by decide) (by decide) h

theorem natDigits_ne_nil (n : Nat) : natDigits n ≠ [] := Nat.toDigits_ne_nil

theorem isDigit_of_mem_zeros {n : Nat} {c : Char} (h : c ∈ zeros n) : isDigit c = true := by
  rw [List.eq_of_mem_replicate h]
  decide

theorem natOfDigits_eq (cs : List Char) : natOfDigits cs = Nat.ofDigitChars 10 cs 0 := rfl

theorem natOfDigits_natDigits (n : Nat) : natOfDigits (natDigits n) = n :=
  Nat.ofDigitChars_toDigits (by decide) (by decide)

theorem natOfDigits_append (as bs : List Char) :
    natOfDigits (as ++ bs) = natOfDigits as * 10 ^ bs.length + natOfDigits bs := by
  rw [natOfDigits_eq, Nat.ofDigitChars_append, Nat.ofDigitChars_eq_ofDigitChars_zero,
    Nat.mul_comm]
  rfl

theorem natOfDigits_zeros (n : Nat) : natOfDigits (zeros n) = 0 := by
  rw [natOfDigits_eq, zeros, Nat.ofDigitChars_replicate_zero, Nat.mul_zero]

theorem natOfDigits_zeros_append (n : Nat) (cs : List Char) :
    natOfDigits (zeros n ++ cs) = natOfDigits cs := by
  rw [natOfDigits_append, natOfDigits_zeros, Nat.zero_mul, Nat.zero_add]

theorem natOfDigits_append_zeros (cs : List Char) (n : Nat) :
    natOfDigits (cs ++ zeros n) = natOfDigits cs * 10 ^ n := by
  rw [natOfDigits_append, natOfDigits_zeros, zeros, List.length_replicate, Nat.add_zero]

theorem digitValue_lt {c : Char} (h : isDigit c = true) : digitValue c < 10 := by
  have hle : c.toNat ≤ '9'.toNat := by
    rw [isDigit, Bool.and_eq_true, decide_eq_true_eq, decide_eq_true_eq] at h
    exact h.2
  rw [digitValue]
  exact Nat.lt_of_le_of_lt (Nat.sub_le_sub_right hle _) (by decide)

theorem natOfDigits_cons (c : Char) (cs : List Char) :
    natOfDigits (c :: cs) = digitValue c * 10 ^ cs.length + natOfDigits cs := by
  rw [← List.singleton_append, natOfDigits_append]
  simp [natOfDigits]

theorem natOfDigits_lt {cs : List Char} (h : ∀ c ∈ cs, isDigit c = true) :
    natOfDigits cs < 10 ^ cs.length := by
  induction cs with
  | nil => decide
  | cons c cs ih =>
    obtain ⟨hc, hcs⟩ := List.forall_mem_cons.mp h
    have hvalue := Nat.mul_le_mul_right (10 ^ cs.length) (Nat.le_of_lt_succ (digitValue_lt hc))
    have hrest := ih hcs
    rw [natOfDigits_cons, List.length_cons, Nat.pow_succ]
    omega

/-- A number does not begin with a zero, unless it is zero. -/
theorem natDigits_ne_zero_cons (n : Nat) (c : Char) (cs : List Char) :
    natDigits n ≠ '0' :: c :: cs := by
  intro h
  have hdigits : ∀ d ∈ c :: cs, isDigit d = true := fun d hd =>
    isDigit_of_mem_natDigits (n := n) (by rw [h]; exact List.mem_cons_of_mem _ hd)
  have hvalue : natOfDigits (c :: cs) = n := by
    have hn := natOfDigits_natDigits n
    rw [h, natOfDigits_cons] at hn
    simpa [digitValue] using hn
  have hlength : (natDigits n).length ≤ (c :: cs).length :=
    (Nat.length_toDigits_le_iff (by decide) (by simp)).mpr (hvalue ▸ natOfDigits_lt hdigits)
  rw [h] at hlength
  simp at hlength

/-- A number lies between the powers of ten that have as many digits and one more. -/
theorem lt_pow_length_natDigits (n : Nat) : n < 10 ^ (natDigits n).length :=
  (Nat.length_toDigits_le_iff (by decide) (List.length_pos_iff.mpr (natDigits_ne_nil n))).mp le_rfl

theorem pow_length_natDigits_le {n : Nat} (h : 0 < n) : 10 ^ ((natDigits n).length - 1) ≤ n := by
  rcases Nat.eq_zero_or_pos ((natDigits n).length - 1) with hzero | hpos
  · rw [hzero]
    exact h
  · by_contra hlt
    have hlength : (natDigits n).length ≤ (natDigits n).length - 1 :=
      (Nat.length_toDigits_le_iff (by decide) hpos).mpr (not_le.mp hlt)
    omega

theorem isDigit_of_mem_padded {width n : Nat} {c : Char} (h : c ∈ (padded width n).toList) :
    isDigit c = true := by
  rw [padded, String.toList_ofList] at h
  exact (List.mem_append.mp h).elim isDigit_of_mem_zeros isDigit_of_mem_natDigits

theorem length_padded {width n : Nat} (hwidth : 0 < width) (h : n < 10 ^ width) :
    (padded width n).toList.length = width := by
  have hlength : (natDigits n).length ≤ width :=
    (Nat.length_toDigits_le_iff (by decide) hwidth).mpr h
  rw [padded, String.toList_ofList, List.length_append, zeros, List.length_replicate]
  omega

theorem natOfDigits_padded (width n : Nat) : natOfDigits (padded width n).toList = n := by
  rw [padded, String.toList_ofList, natOfDigits_zeros_append, natOfDigits_natDigits]

theorem padded_ne_nil (width n : Nat) : (padded width n).toList ≠ [] := by
  simp [padded, natDigits_ne_nil]

/-- Characters are taken up to one that is not. -/
theorem span_append {p : Char → Bool} {rest : List Char} (h : ∀ c ∈ rest.head?, p c = false)
    (cs : List Char) :
    (cs ++ rest).takeWhile p = cs.takeWhile p ∧
        (cs ++ rest).dropWhile p = cs.dropWhile p ++ rest := by
  induction cs with
  | nil =>
    cases rest with
    | nil => exact ⟨rfl, rfl⟩
    | cons c r =>
      have hc := h c rfl
      exact ⟨List.takeWhile_cons_of_neg (by simp [hc]), List.dropWhile_cons_of_neg (by simp [hc])⟩
  | cons c cs ih =>
    rw [List.cons_append]
    by_cases hc : p c = true
    · rw [List.takeWhile_cons_of_pos hc, List.takeWhile_cons_of_pos hc,
        List.dropWhile_cons_of_pos hc, List.dropWhile_cons_of_pos hc]
      exact ⟨congrArg (c :: ·) ih.1, ih.2⟩
    · rw [List.takeWhile_cons_of_neg hc, List.takeWhile_cons_of_neg hc,
        List.dropWhile_cons_of_neg hc, List.dropWhile_cons_of_neg hc]
      exact ⟨rfl, rfl⟩

/-- Characters of one kind are taken up to one that is not of it. -/
theorem span_of_forall {p : Char → Bool} {cs rest : List Char} (hcs : ∀ c ∈ cs, p c = true)
    (hrest : ∀ c ∈ rest.head?, p c = false) :
    (cs ++ rest).takeWhile p = cs ∧ (cs ++ rest).dropWhile p = rest := by
  obtain ⟨htake, hdrop⟩ := span_append hrest cs
  rw [htake, hdrop, List.takeWhile_eq_self_iff.mpr hcs, List.dropWhile_eq_nil_iff.mpr hcs]
  exact ⟨rfl, rfl⟩

theorem span_natDigits (n : Nat) :
    (natDigits n).takeWhile isDigit = natDigits n ∧ (natDigits n).dropWhile isDigit = [] :=
  ⟨List.takeWhile_eq_self_iff.mpr fun _ => isDigit_of_mem_natDigits,
    List.dropWhile_eq_nil_iff.mpr fun _ => isDigit_of_mem_natDigits⟩

/-! ## Reading a number -/

/-- The number that a literal stands for. -/
def Literal.rational (l : Literal) : ℚ :=
  natOfDigits (l.whole ++ l.fraction) * 10 ^ (l.exponent - l.fraction.length)

/-- The number that an unsigned decimal stands for. -/
def literalValue (cs : List Char) : ℚ := ((readLiteral? cs).map Literal.rational).getD 0

/-- A point and what is behind it, if there is anything. -/
def pointed (fraction : List Char) : List Char := if fraction = [] then [] else '.' :: fraction

theorem readLiteral?_digits {whole fraction : List Char} (hne : whole ≠ [])
    (hw : ∀ c ∈ whole, isDigit c = true) (hf : ∀ c ∈ fraction, isDigit c = true) :
    readLiteral? (whole ++ pointed fraction) = some ⟨whole, fraction, 0⟩ := by
  have hne' : whole.isEmpty = false := by simpa using hne
  unfold pointed
  by_cases h : fraction = []
  · subst h
    rw [if_pos rfl, List.append_nil]
    have htake : whole.takeWhile isDigit = whole := List.takeWhile_eq_self_iff.mpr hw
    have hdrop : whole.dropWhile isDigit = [] := List.dropWhile_eq_nil_iff.mpr hw
    simp only [readLiteral?, htake, hdrop, hne', Bool.false_and]
    rfl
  · rw [if_neg h]
    have hpoint : ∀ c ∈ ('.' :: fraction).head?, isDigit c = false := by
      rintro c ⟨⟩
      decide
    obtain ⟨htake, hdrop⟩ := span_of_forall hw hpoint
    have htake' : fraction.takeWhile isDigit = fraction := List.takeWhile_eq_self_iff.mpr hf
    have hdrop' : fraction.dropWhile isDigit = [] := List.dropWhile_eq_nil_iff.mpr hf
    simp only [readLiteral?, htake, hdrop, htake', hdrop', hne', Bool.false_and]
    rfl

theorem literalValue_digits {whole fraction : List Char} (hne : whole ≠ [])
    (hw : ∀ c ∈ whole, isDigit c = true) (hf : ∀ c ∈ fraction, isDigit c = true) :
    literalValue (whole ++ pointed fraction) =
      natOfDigits (whole ++ fraction) / 10 ^ fraction.length := by
  rw [literalValue, readLiteral?_digits hne hw hf]
  show (natOfDigits (whole ++ fraction) : ℚ) * 10 ^ (0 - (fraction.length : ℤ)) = _
  rw [zero_sub, zpow_neg, zpow_natCast, div_eq_mul_inv]

theorem literalValue_natDigits (n : Nat) : literalValue (natDigits n) = n := by
  have h := @literalValue_digits _ [] (natDigits_ne_nil n) (fun _ => isDigit_of_mem_natDigits)
    fun _ h => absurd h List.not_mem_nil
  rw [pointed, if_pos rfl, List.append_nil, natOfDigits_natDigits] at h
  rw [h, List.length_nil, pow_zero, div_one]

/-! ## Trimming -/

/-- Digits without trailing zeros. -/
def significant (cs : List Char) : List Char := cs.rdropWhile (· == '0')

theorem significant_append_zeros (cs : List Char) : ∃ k, cs = significant cs ++ zeros k :=
  ⟨(cs.rtakeWhile (· == '0')).length, by
    have hzeros : cs.rtakeWhile (· == '0') = zeros (cs.rtakeWhile (· == '0')).length :=
      List.eq_replicate_iff.mpr ⟨rfl, fun c hc => by simpa using List.mem_rtakeWhile_imp hc⟩
    rw [← hzeros]
    exact List.rdropWhile_append_rtakeWhile.symm⟩

theorem mem_of_mem_significant {cs : List Char} {c : Char} (h : c ∈ significant cs) : c ∈ cs :=
  (List.rdropWhile_prefix _ cs).subset h

/-- What is significant ends in no zero. -/
theorem significant_concat {cs front : List Char} {c : Char} (h : significant cs = front ++ [c]) :
    ¬(c == '0') = true := by
  have hne : significant cs ≠ [] := by simp [h]
  have hlast := List.rdropWhile_last_not (· == '0') cs hne
  have hc : (cs.rdropWhile (· == '0')).getLast hne = c := by
    simp only [show cs.rdropWhile (· == '0') = front ++ [c] from h, List.getLast_concat]
  rwa [hc] at hlast

theorem getLast?_significant (cs : List Char) : (significant cs).getLast? ≠ some '0' := by
  rcases List.eq_nil_or_concat' (significant cs) with h | ⟨front, c, h⟩
  · rw [h]
    exact nofun
  · rw [h, List.getLast?_concat]
    exact fun hc => significant_concat h (beq_iff_eq.mpr (Option.some.inj hc))

theorem rdropWhile_zeros (cs : List Char) : ∀ k,
    (cs ++ zeros k).rdropWhile (· == '0') = cs.rdropWhile (· == '0')
  | 0 => by rw [zeros, List.replicate_zero, List.append_nil]
  | k + 1 => by
    rw [zeros, List.replicate_succ', ← List.append_assoc, List.rdropWhile_concat_pos _ _ _ (by rfl)]
    exact rdropWhile_zeros cs k

theorem trimPlaces_eq (cs : List Char) : trimPlaces cs =
    if (cs.rdropWhile (· == '0')).rdropWhile (· == '.') == ['-', '0'] then ['0']
    else (cs.rdropWhile (· == '0')).rdropWhile (· == '.') := by
  simp only [trimPlaces, List.rdropWhile, List.reverse_reverse]

/-- Trimmed, digits in front of a point keep what is significant behind it. -/
theorem rdropWhile_pointed (front : List Char) {fraction : List Char} {c : Char}
    (hc : isDigit c = true) (hf : ∀ d ∈ fraction, isDigit d = true) :
    ((front ++ [c] ++ '.' :: fraction).rdropWhile (· == '0')).rdropWhile (· == '.') =
      front ++ [c] ++ pointed (significant fraction) := by
  have hdot : ∀ d, isDigit d = true → ¬(d == '.') = true := fun d hd h => by
    rw [eq_of_beq h] at hd
    exact absurd hd (by decide)
  have hdrop : (front ++ [c] ++ '.' :: fraction).rdropWhile (· == '0') =
      (front ++ [c] ++ '.' :: significant fraction).rdropWhile (· == '0') := by
    obtain ⟨k, hk⟩ := significant_append_zeros fraction
    conv_lhs => rw [hk, ← List.cons_append, ← List.append_assoc, rdropWhile_zeros]
  rw [hdrop]
  rcases List.eq_nil_or_concat' (significant fraction) with h | ⟨short, d, h⟩
  · rw [h, pointed, if_pos rfl, List.append_nil,
      List.rdropWhile_concat_neg (· == '0') _ _ (by decide),
      List.rdropWhile_concat_pos (· == '.') _ _ (by decide),
      List.rdropWhile_concat_neg (· == '.') _ _ (hdot c hc)]
  · have hd : isDigit d = true := hf d (mem_of_mem_significant (by simp [h]))
    rw [h, pointed, if_neg (by simp), ← List.cons_append, ← List.append_assoc,
      List.rdropWhile_concat_neg (· == '0') _ _ (significant_concat h),
      List.rdropWhile_concat_neg (· == '.') _ _ (hdot d hd)]

/-! ## Numbers with four places -/

/-- The digits behind the point of a count of units. -/
def fractionDigits (count : Nat) : List Char :=
  zeros (4 - (natDigits (count % 10 ^ 4)).length) ++ natDigits (count % 10 ^ 4)

theorem placed_eq (count : Nat) :
    placed 4 count = natDigits (count / 10 ^ 4) ++ '.' :: fractionDigits count := rfl

theorem length_fractionDigits (count : Nat) : (fractionDigits count).length = 4 := by
  have h : (natDigits (count % 10 ^ 4)).length ≤ 4 :=
    (Nat.length_toDigits_le_iff (by decide) (by decide)).mpr (Nat.mod_lt _ (by decide))
  rw [fractionDigits, List.length_append, zeros, List.length_replicate]
  omega

theorem isDigit_of_mem_fractionDigits {count : Nat} {c : Char} (h : c ∈ fractionDigits count) :
    isDigit c = true :=
  (List.mem_append.mp h).elim isDigit_of_mem_zeros isDigit_of_mem_natDigits

theorem natOfDigits_places (count : Nat) :
    natOfDigits (natDigits (count / 10 ^ 4) ++ fractionDigits count) = count := by
  rw [natOfDigits_append, length_fractionDigits, natOfDigits_natDigits, fractionDigits,
    natOfDigits_zeros_append, natOfDigits_natDigits]
  omega

/-- Without trailing zeros the digits stand for the same number. -/
theorem natOfDigits_significant (count : Nat) :
    (natOfDigits (natDigits (count / 10 ^ 4) ++ significant (fractionDigits count)) : ℚ) /
      10 ^ (significant (fractionDigits count)).length = count / 10 ^ 4 := by
  obtain ⟨k, hk⟩ := significant_append_zeros (fractionDigits count)
  have hlen := congrArg List.length hk
  rw [length_fractionDigits, List.length_append, zeros, List.length_replicate] at hlen
  have hcount := natOfDigits_places count
  rw [hk, ← List.append_assoc, natOfDigits_append_zeros] at hcount
  generalize natOfDigits (natDigits (count / 10 ^ 4) ++ significant (fractionDigits count)) = n
    at hcount ⊢
  have hpow : (10 : ℚ) ^ 4 = 10 ^ (significant (fractionDigits count)).length * 10 ^ k := by
    rw [← pow_add, ← hlen]
  have hcast : (count : ℚ) = n * 10 ^ k := by
    rw [← hcount, Nat.cast_mul, Nat.cast_pow, Nat.cast_ofNat]
  rw [hcast, hpow]
  exact (mul_div_mul_right _ _ (pow_ne_zero k (by norm_num : (10 : ℚ) ≠ 0))).symm

/-! ## Numerals -/

/-- A decimal with nothing too many: a minus only if it is not zero, the digits of its whole part,
and places behind the point that do not end in a zero. -/
structure Numeral where
  negative : Bool
  whole : Nat
  places : List Char
  digits : ∀ c ∈ places, isDigit c = true
  last : places.getLast? ≠ some '0'
  signed : negative = true → whole ≠ 0 ∨ places ≠ []

namespace Numeral

/-- A numeral without its sign. -/
def body (n : Numeral) : List Char := natDigits n.whole ++ pointed n.places

def text (n : Numeral) : List Char := (if n.negative then ['-'] else []) ++ n.body

/-- The number that a numeral stands for, without its sign. -/
def size (n : Numeral) : ℚ := n.whole + natOfDigits n.places / 10 ^ n.places.length

/-- The number that a numeral stands for. -/
def value (n : Numeral) : ℚ := if n.negative then -n.size else n.size

theorem size_eq (n : Numeral) :
    n.size = natOfDigits (natDigits n.whole ++ n.places) / 10 ^ n.places.length := by
  rw [size, natOfDigits_append, natOfDigits_natDigits]
  push_cast
  rw [add_div, mul_div_cancel_right₀ _ (pow_ne_zero _ (by norm_num : (10 : ℚ) ≠ 0))]

theorem readLiteral?_body (n : Numeral) :
    readLiteral? n.body = some ⟨natDigits n.whole, n.places, 0⟩ :=
  readLiteral?_digits (natDigits_ne_nil _) (fun _ => isDigit_of_mem_natDigits) n.digits

theorem literalValue_body (n : Numeral) : literalValue n.body = n.size := by
  rw [size_eq, body, literalValue_digits (natDigits_ne_nil _)
    (fun _ => isDigit_of_mem_natDigits) n.digits]

/-- A numeral begins with a digit behind its sign. -/
theorem exists_body_eq (n : Numeral) : ∃ c r, n.body = c :: r ∧ isDigit c = true := by
  obtain ⟨c, cs, hw⟩ := List.exists_cons_of_ne_nil (natDigits_ne_nil n.whole)
  refine ⟨c, cs ++ pointed n.places, by
    rw [body, hw, List.cons_append], isDigit_of_mem_natDigits (n := n.whole) ?_⟩
  rw [hw]
  exact List.mem_cons_self

/-- The numeral of a count of units. -/
def ofCount (negative : Bool) (count : Nat) : Numeral where
  negative := negative && count != 0
  whole := count / 10 ^ 4
  places := significant (fractionDigits count)
  digits := fun _ hc => isDigit_of_mem_fractionDigits (mem_of_mem_significant hc)
  last := getLast?_significant _
  signed h := by
    have hcount : count ≠ 0 := by simpa using (Bool.and_eq_true_iff.mp h).2
    rw [← not_and_or]
    rintro ⟨hw, hs⟩
    -- without digits there would be no units
    have hvalue := natOfDigits_significant count
    rw [hw, hs, List.append_nil, natOfDigits_natDigits, Nat.cast_zero, zero_div, eq_comm,
      div_eq_zero_iff] at hvalue
    exact hcount (Nat.cast_eq_zero.mp (hvalue.resolve_right (by norm_num)))

theorem size_ofCount (negative : Bool) (count : Nat) :
    (ofCount negative count).size = count / 10 ^ 4 := by
  rw [size_eq]
  exact natOfDigits_significant count

theorem length_places_ofCount (negative : Bool) (count : Nat) :
    (ofCount negative count).places.length ≤ 4 :=
  (List.rdropWhile_prefix _ _).length_le.trans (length_fractionDigits count).le

/-- Only the numeral of no units is a zero. -/
theorem body_ofCount_eq_zero_iff {negative : Bool} {count : Nat} :
    (ofCount negative count).body = ['0'] ↔ count = 0 := by
  constructor
  · intro h
    have hvalue := (ofCount negative count).literalValue_body
    have hzero : literalValue ['0'] = 0 := literalValue_natDigits 0
    rw [h, size_ofCount, hzero, eq_comm, div_eq_zero_iff] at hvalue
    exact Nat.cast_eq_zero.mp (hvalue.resolve_right (by norm_num))
  · rintro rfl
    show natDigits 0 ++ pointed (significant (fractionDigits 0)) = ['0']
    decide

theorem value_ofCount (negative : Bool) (count : Nat) :
    (ofCount negative count).value = (if negative then -1 else 1) * (count / 10 ^ 4) := by
  rw [value, size_ofCount]
  by_cases hcount : count = 0
  · simp [hcount]
  · have hne : (count != 0) = true := bne_iff_ne.mpr hcount
    cases negative <;> simp [ofCount, hne]

end Numeral

/-- **A number with four places loses its trailing zeros**, and its sign when nothing is left of
it. -/
theorem trimPlaces_placed (negative : Bool) (count : Nat) :
    trimPlaces ((if negative then ['-'] else []) ++ placed 4 count) =
        (Numeral.ofCount negative count).text := by
  obtain ⟨front, last, hwhole⟩ := (List.eq_nil_or_concat' (natDigits (count / 10 ^ 4))).resolve_left
    (natDigits_ne_nil _)
  have hlast : isDigit last = true := isDigit_of_mem_natDigits
    (n := count / 10 ^ 4) (by rw [hwhole]; simp)
  -- the places are trimmed in the same way behind any sign
  have hshort : ∀ sign : List Char,
    ((sign ++ placed 4 count).rdropWhile (· == '0')).rdropWhile (· == '.') =
      sign ++ (Numeral.ofCount negative count).body := by
    intro sign
    have hplaces : ∀ c ∈ fractionDigits count, isDigit c = true :=
      fun _ => isDigit_of_mem_fractionDigits
    have htrim := rdropWhile_pointed (sign ++ front) hlast hplaces
    rwa [List.append_assoc sign, ← hwhole, List.append_assoc, ← placed_eq,
      List.append_assoc] at htrim
  rw [trimPlaces_eq, hshort]
  cases negative with
  | false =>
    rw [if_neg Bool.false_ne_true, List.nil_append, if_neg]
    · rfl
    -- what starts with a digit is no signed zero
    obtain ⟨c, r, hbody, hc⟩ := (Numeral.ofCount false count).exists_body_eq
    rw [hbody]
    intro h
    obtain ⟨rfl, -⟩ := List.cons.inj (eq_of_beq h)
    exact absurd hc (by decide)
  | true =>
    rw [if_pos rfl, List.singleton_append]
    by_cases hcount : count = 0
    · rw [Numeral.body_ofCount_eq_zero_iff.mpr hcount, hcount]
      rfl
    · have hne : (count != 0) = true := bne_iff_ne.mpr hcount
      have hbody : ¬('-' :: (Numeral.ofCount true count).body == ['-', '0']) = true := fun h =>
        hcount (Numeral.body_ofCount_eq_zero_iff.mp (List.cons.inj (eq_of_beq h)).2)
      rw [if_neg hbody, Numeral.text, show (Numeral.ofCount true count).negative = true from hne,
        if_pos rfl, List.singleton_append]

/-! ## The text of a number -/

/-- A finite number rounded to four places. -/
def Parts.rounded : Parts → ℚ
  | .finite negative mantissa exponent =>
    (if negative then -1 else 1) * (units 4 mantissa exponent / 10 ^ 4)
  | _ => 0

/-- What a number is in the text of a filter. -/
def printed (x : Float) : ℚ := (Parts.ofFloat x).rounded

/-- A finite number is written as the numeral of its units. -/
theorem numeralChars_eq_text {x : Float} {negative : Bool} {mantissa : Nat} {exponent : Int}
    (h : Parts.ofFloat x = .finite negative mantissa exponent) :
    numeralChars x = (Numeral.ofCount negative (units 4 mantissa exponent)).text := by
  rw [← trimPlaces_placed, numeralChars, fixedChars, h]

theorem printed_eq_value {x : Float} {negative : Bool} {mantissa : Nat} {exponent : Int}
    (h : Parts.ofFloat x = .finite negative mantissa exponent) :
    printed x = (Numeral.ofCount negative (units 4 mantissa exponent)).value := by
  rw [Numeral.value_ofCount, printed, h]
  rfl

/-- **The text of a finite number reads as the number rounded to four places**: an unsigned decimal,
or a negative sign and one. -/
theorem numeralChars_finite {x : Float} {negative : Bool} {mantissa : Nat} {exponent : Int}
    (h : Parts.ofFloat x = .finite negative mantissa exponent) :
    ∃ whole fraction, whole ≠ [] ∧ (∀ c ∈ whole, isDigit c = true) ∧
      (∀ c ∈ fraction, isDigit c = true) ∧
      (numeralChars x = whole ++ pointed fraction ∧
          printed x = literalValue (whole ++ pointed fraction) ∨
        numeralChars x = '-' :: (whole ++ pointed fraction) ∧
          printed x = -literalValue (whole ++ pointed fraction)) := by
  have htext := numeralChars_eq_text h
  have hprinted := printed_eq_value h
  generalize Numeral.ofCount negative (units 4 mantissa exponent) = n at htext hprinted
  rw [Numeral.text] at htext
  rw [Numeral.value, ← n.literalValue_body] at hprinted
  refine ⟨natDigits n.whole, n.places, natDigits_ne_nil _, fun _ => isDigit_of_mem_natDigits,
    n.digits, ?_⟩
  cases hn : n.negative with
  | false =>
    rw [hn, if_neg Bool.false_ne_true] at htext hprinted
    exact .inl ⟨htext, hprinted⟩
  | true =>
    rw [hn, if_pos rfl] at htext hprinted
    exact .inr ⟨htext, hprinted⟩

end Slideshow.Decimal
