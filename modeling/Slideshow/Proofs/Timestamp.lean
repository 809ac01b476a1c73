import Slideshow.Proofs.Calendar
import Slideshow.Proofs.Numeral

/-!
# Moments that are read back

The text of a moment is read as that moment.

* `Valid` says which moments there are: their years are bounded, and only the last second of a
  minute may be a leap second.
* `year?_yearText`, `number?_padded`, `fraction?_fractionText`: one lemma for each part of the text,
  with the rest open.

Headline:
* **`parse?_text`**: a moment is read back.
-/

namespace Slideshow.Timestamp

open Decimal

/-- The moments that there are. -/
structure Valid (t : Timestamp) : Prop where
  year : isYear t.date.year = true
  nanos : t.nanos < 1000000000 ∨ t.nanos < 2000000000 ∧ t.seconds % 60 = 59

/-! ## Parts of the text -/

theorem isBlank_of_isDigit {c : Char} (h : isDigit c = true) : Text.isBlank c = false := by
  rw [isDigit, Bool.and_eq_true, decide_eq_true_eq, decide_eq_true_eq] at h
  have hlow : 48 ≤ c.toNat := h.1
  have hhigh : c.toNat ≤ 57 := h.2
  simp only [Text.isBlank, Bool.or_eq_false_iff, Bool.and_eq_false_iff, beq_eq_false_iff_ne,
    decide_eq_false_iff_not]
  omega

theorem skipBlanks_cons {c : Char} (h : Text.isBlank c = false) (r : List Char) :
    skipBlanks (c :: r) = c :: r :=
  List.dropWhile_cons_of_neg (by simp [h])

theorem skipBlanks_padded (width n : Nat) (r : List Char) :
    skipBlanks ((padded width n).toList ++ r) = (padded width n).toList ++ r := by
  obtain ⟨c, cs, hcs⟩ := List.exists_cons_of_ne_nil (padded_ne_nil width n)
  have hc : isDigit c = true :=
    @isDigit_of_mem_padded width n c (by rw [hcs]; exact List.mem_cons_self)
  rw [hcs, List.cons_append, skipBlanks_cons (isBlank_of_isDigit hc)]

/-- Digits are read as far as they may go. -/
theorem digits?_append {width : Nat} {ds r : List Char} (hne : ds ≠ [])
    (hds : ∀ c ∈ ds, isDigit c = true) (hwidth : ds.length ≤ width)
    (hstop : ∀ c ∈ (r.take (width - ds.length)).head?, isDigit c = false) :
    digits? width (ds ++ r) = some (natOfDigits ds, r) := by
  have htake : ((ds ++ r).take width).takeWhile isDigit = ds := by
    rw [List.take_append, List.take_of_length_le hwidth]
    exact (span_of_forall hds hstop).1
  unfold digits?
  simp only [htake]
  rw [if_neg (by simpa using hne), List.drop_left]

/-- A number that fills its width is read. -/
theorem number?_padded {width n : Nat} (hwidth : 0 < width) (h : n < 10 ^ width) (r : List Char) :
    number? width ((padded width n).toList ++ r) = some (n, r) := by
  have hlength := length_padded hwidth h
  rw [number?, skipBlanks_padded,
    digits?_append (padded_ne_nil width n) (fun _ => isDigit_of_mem_padded) (Nat.le_of_eq hlength)
      (by simp [hlength]), natOfDigits_padded]

/-- A number that is followed by something else is read. -/
theorem digits?_padded (width n : Nat) (r : List Char) :
    digits? ((padded width n).toList ++ '-' :: r).length ((padded width n).toList ++ '-' :: r) =
      some (n, '-' :: r) := by
  rw [digits?_append (padded_ne_nil width n) (fun _ => isDigit_of_mem_padded) (by simp)
    (by simp; decide),
    natOfDigits_padded]

theorem mark?_cons {c : Char} (h : Text.isBlank c = false) (r : List Char) :
    mark? c (c :: r) = some r := by
  rw [mark?, skipBlanks_cons h]
  simp

/-- A year is read up to the mark behind it. -/
theorem year?_yearText (year : Int) (r : List Char) :
    year? ((yearText year).toList ++ '-' :: r) = some (year, '-' :: r) := by
  have hminus : ∀ cs, year? ('-' :: cs) = (digits? cs.length cs).map fun p => (-(p.1 : Int), p.2) :=
    fun cs => by
    rw [year?, skipBlanks_cons (by decide)]
    rfl
  have hplus : ∀ cs, year? ('+' :: cs) = (digits? cs.length cs).map fun p => ((p.1 : Int), p.2) :=
    fun cs => by
    rw [year?, skipBlanks_cons (by decide)]
    rfl
  have hdigits : ∀ cs, year? ((padded 4 year.toNat).toList ++ cs) =
      (number? 4 ((padded 4 year.toNat).toList ++ cs)).map fun p => ((p.1 : Int), p.2) :=
        fun cs => by
    obtain ⟨d, ds, hds⟩ := List.exists_cons_of_ne_nil (padded_ne_nil 4 year.toNat)
    have hd : isDigit d = true := @isDigit_of_mem_padded 4 year.toNat d (by simp [hds])
    have h1 : d ≠ '-' := fun h => by rw [h] at hd; exact absurd hd (by decide)
    have h2 : d ≠ '+' := fun h => by rw [h] at hd; exact absurd hd (by decide)
    rw [number?, hds, List.cons_append, year?, skipBlanks_cons (isBlank_of_isDigit hd)]
    split
    · next h => exact absurd (List.cons.inj h).1 h1
    · next h => exact absurd (List.cons.inj h).1 h2
    · rfl
  unfold yearText
  split
  · next h =>
    simp only [Bool.and_eq_true, decide_eq_true_eq] at h
    have hyear : (year.toNat : Int) = year := by omega
    rw [hdigits, number?_padded (by decide) (by omega), Option.map_some, hyear]
  · split
    · have hyear : -(year.natAbs : Int) = year := by omega
      rw [String.toList_append]
      show year? ('-' :: ((padded 4 year.natAbs).toList ++ '-' :: r)) = _
      rw [hminus, digits?_padded, Option.map_some, hyear]
    · have hyear : (year.natAbs : Int) = year := by omega
      rw [String.toList_append]
      show year? ('+' :: ((padded 4 year.natAbs).toList ++ '-' :: r)) = _
      rw [hplus, digits?_padded, Option.map_some, hyear]

/-- A fraction of so many places is read in nanoseconds. -/
theorem fraction?_padded {places n : Nat} (hplaces : 0 < places) (hnine : places ≤ 9)
    (h : n < 10 ^ places) {r : List Char} (hr : ∀ c ∈ r.head?, isDigit c = false) :
    fraction? ('.' :: ((padded places n).toList ++ r)) = some (n * 10 ^ (9 - places), r) := by
  have hlength := length_padded hplaces h
  obtain ⟨htake, hdrop⟩ := span_of_forall (fun _ => @isDigit_of_mem_padded places n _) hr
  rw [fraction?, htake, hdrop]
  simp only [List.isEmpty_iff, padded_ne_nil, if_false, hlength]
  rw [List.take_of_length_le (by omega), ← zeros, natOfDigits_append_zeros, natOfDigits_padded]

/-- The fraction of a second is read, whatever number of places it has. -/
theorem fraction?_fractionText {nanos : Nat} (h : nanos < 1000000000) (r : List Char) :
    fraction? ((fractionText nanos).toList ++ 'Z' :: r) = some (nanos, 'Z' :: r) := by
  have hend : ∀ c ∈ ('Z' :: r).head?, isDigit c = false := by
    rintro c hc
    cases hc
    decide
  have hplaces : ∀ {places n : Nat}, 0 < places → places ≤ 9 → n < 10 ^ places →
    n * 10 ^ (9 - places) = nanos →
      fraction? (("." ++ padded places n).toList ++ 'Z' :: r) = some (nanos, 'Z' :: r) := by
    intro places n hpos hnine hn hnanos
    rw [String.toList_append]
    exact hnanos ▸ fraction?_padded hpos hnine hn hend
  unfold fractionText
  split
  · next hzero =>
    rw [beq_iff_eq.mp hzero]
    rfl
  · split
    · next hmilli =>
      have hmilli := beq_iff_eq.mp hmilli
      exact hplaces (by decide) (by decide) (by omega) (by omega)
    · split
      · next hmicro =>
        have hmicro := beq_iff_eq.mp hmicro
        exact hplaces (by decide) (by decide) (by omega) (by omega)
      · exact hplaces (by decide) (by decide) (by omega) (by omega)

/-! ## The whole text -/

/-- The second of the minute, with the leap second in it. -/
def secondText (t : Timestamp) : Nat := t.secondOfDay % 60 + t.nanos / 1000000000

theorem toList_dateText (t : Timestamp) :
    (t.dateText "-").toList = (yearText t.date.year).toList ++ '-' ::
    ((padded 2 t.date.month).toList ++ '-' :: (padded 2 t.date.day).toList) := by
  simp [dateText]

theorem toList_clockText (t : Timestamp) :
    (t.clockText ":").toList = (padded 2 (t.secondOfDay / 3600)).toList ++
    ':' ::
        ((padded 2 (t.secondOfDay / 60 % 60)).toList ++ ':' :: (padded 2 t.secondText).toList) := by
  simp [clockText, secondText]

theorem toList_text (t : Timestamp) : t.text.toList = (t.dateText "-").toList ++ 'T' ::
    ((t.clockText ":").toList ++ ((fractionText (t.nanos % 1000000000)).toList ++ ['Z'])) := by
  simp [text]

theorem number?_two {n : Nat} (h : n < 100) (r : List Char) :
    number? 2 ((padded 2 n).toList ++ r) = some (n, r) := number?_padded (by decide) h r

theorem daysInMonth_le (year : Int) (month : Nat) : daysInMonth year month ≤ 31 := by
  unfold daysInMonth
  split
  · split <;> decide
  · split <;> decide

/-- The date of a moment is read. -/
theorem readDate?_dateText (t : Timestamp) (r : List Char) :
    readDate? ((t.dateText "-").toList ++ r) = some (t.date, r) := by
  obtain ⟨hmonth, hday⟩ : t.date.InCalendar := dateOfDays_inCalendar _
  have hdayLe := daysInMonth_le t.date.year t.date.month
  have hmark : ∀ r, mark? '-' ('-' :: r) = some r := mark?_cons (by decide)
  rw [toList_dateText, List.append_assoc, List.cons_append, List.append_assoc, List.cons_append,
    readDate?, year?_yearText]
  simp only [Option.bind_eq_bind, Option.bind_some, hmark,
    number?_two (show t.date.month < 100 by omega), number?_two (show t.date.day < 100 by omega)]
  rfl

theorem secondOfDay_spec (t : Timestamp) :
    86400 * t.seconds.fdiv 86400 + t.secondOfDay = t.seconds ∧ t.secondOfDay < 86400 := by
  rw [secondOfDay, Int.fdiv_eq_ediv_of_nonneg _ (by decide)]
  omega

theorem Valid.secondText_le {t : Timestamp} (h : t.Valid) : t.secondText ≤ 60 := by
  have := h.nanos
  unfold secondText
  omega

/-- The time of a moment is read. -/
theorem readClock?_clockText {t : Timestamp} (h : t.Valid) (r : List Char) :
    readClock? ((t.clockText ":").toList ++ r) =
      some ((t.secondOfDay / 3600, t.secondOfDay / 60 % 60, t.secondText), r) := by
  have hsecondOfDay := (secondOfDay_spec t).2
  have hsecond := h.secondText_le
  have hmark : ∀ r, mark? ':' (':' :: r) = some r := mark?_cons (by decide)
  rw [toList_clockText, List.append_assoc, List.cons_append, List.append_assoc, List.cons_append,
    readClock?, number?_two (by omega)]
  simp only [Option.bind_eq_bind, Option.bind_some, hmark,
    number?_two (show t.secondOfDay / 60 % 60 < 100 by omega),
      number?_two (show t.secondText < 100 by omega)]
  rfl

/-- The numbers that the text of a moment tells. -/
def told (t : Timestamp) : Reading where
  date := t.date
  hour := t.secondOfDay / 3600
  minute := t.secondOfDay / 60 % 60
  second := t.secondText
  nanos := t.nanos % 1000000000
  offset := 0

/-- The numbers of a moment are read. -/
theorem reading?_text {t : Timestamp} (h : t.Valid) : reading? t.text = some t.told := by
  have hseparator : ∀ r, separator? ('T' :: r) = some r := fun _ => rfl
  have hoffset : offset? (skipBlanks ['Z']) = some (0, []) := by decide
  rw [reading?, toList_text, readDate?_dateText]
  simp only [Option.bind_eq_bind, Option.bind_some, hseparator, readClock?_clockText h,
    fraction?_fractionText (Nat.mod_lt t.nanos (by decide)), hoffset]
  rfl

theorem isValid_told {t : Timestamp} (h : t.Valid) : t.told.isValid = true := by
  obtain ⟨hmonth, hday⟩ : t.date.InCalendar := dateOfDays_inCalendar _
  have hsecondOfDay := (secondOfDay_spec t).2
  have hhour : t.secondOfDay / 3600 ≤ 23 := by omega
  have hminute : t.secondOfDay / 60 % 60 ≤ 59 := by omega
  simp [Reading.isValid, told, h.year, h.secondText_le, hmonth, hday, hhour, hminute]

/-- The numbers of a moment tell it. -/
theorem moment_told {t : Timestamp} (h : t.Valid) : t.told.moment = t := by
  have hdays : daysOfDate t.date.year t.date.month t.date.day = t.seconds.fdiv 86400 :=
    daysOfDate_dateOfDays _
  have hsecondOfDay := secondOfDay_spec t
  have hnanos := h.nanos
  unfold Reading.moment told
  by_cases hleap : 1000000000 ≤ t.nanos
  · have hsecond : t.secondText = 60 := by
      unfold secondText
      omega
    have hnanos' : t.nanos % 1000000000 + 1000000000 = t.nanos := by omega
    simp only [hsecond, hdays, hnanos', if_pos (show (60 == 60) = true from rfl)]
    congr 1
    omega
  · have hsecond : t.secondText = t.secondOfDay % 60 := by
      unfold secondText
      omega
    have hnanos' : t.nanos % 1000000000 + 0 = t.nanos := by omega
    simp only [hsecond, hdays, if_neg (show ¬(t.secondOfDay % 60 == 60) = true by simp; omega),
      hnanos']
    congr 1
    omega

/-- **A moment is read back.** -/
theorem parse?_text {t : Timestamp} (h : t.Valid) : parse? t.text = some t := by
  rw [parse?, reading?_text h, Option.bind_some, moment_told h, isValid_told h, h.year]
  rfl

/-! ## What is read -/

theorem fraction?_lt {cs r : List Char} {nanos : Nat} (h : fraction? cs = some (nanos, r)) :
    nanos < 1000000000 := by
  unfold fraction? at h
  split at h
  · next cs =>
    dsimp only at h
    split at h
    · cases h
    · obtain ⟨rfl, -⟩ := Prod.mk.inj (Option.some.inj h)
      have hdigits :
        ∀ c ∈ (cs.takeWhile isDigit).take 9 ++ List.replicate (9 -
          (cs.takeWhile isDigit).length) '0',
          isDigit c = true := fun c hc => (List.mem_append.mp hc).elim
        (fun hc => List.mem_takeWhile_imp (List.mem_of_mem_take hc)) isDigit_of_mem_zeros
      have hlength : ((cs.takeWhile isDigit).take 9 ++
          List.replicate (9 - (cs.takeWhile isDigit).length) '0').length = 9 := by
        rw [List.length_append, List.length_take, List.length_replicate]
        omega
      have hlt := natOfDigits_lt hdigits
      rw [hlength] at hlt
      exact hlt
  · cases h
    decide

/-- Offsets are whole minutes. -/
theorem offset?_mod {cs r : List Char} {offset : Int} (h : offset? cs = some (offset, r)) :
    offset % 60 = 0 := by
  unfold offset? at h
  split at h
  · cases h
    rfl
  split at h
  · cases h
  split at h
  · cases h
    rfl
  obtain ⟨negative, -, h⟩ := Option.bind_eq_some_iff.mp h
  obtain ⟨⟨minutes, rest⟩, -, h⟩ := Option.bind_eq_some_iff.mp h
  obtain ⟨rfl, -⟩ := Prod.mk.inj (Option.some.inj h)
  split <;> omega

theorem reading?_eq_some {s : String} {r : Reading} (h : reading? s = some r) :
    r.nanos < 1000000000 ∧ r.offset % 60 = 0 := by
  simp only [reading?, Option.bind_eq_bind, Option.bind_eq_some_iff] at h
  obtain ⟨⟨date, r1⟩, -, r2, -, ⟨⟨hour, minute, second⟩, r3⟩, -, ⟨nanos, r4⟩, hnanos, ⟨offset, r5⟩,
    hoffset, h⟩ := h
  split at h
  · cases h
    exact ⟨fraction?_lt hnanos, offset?_mod hoffset⟩
  · cases h

/-- **What is read is a moment that there is.** -/
theorem valid_of_parse? {s : String} {t : Timestamp} (h : parse? s = some t) : t.Valid := by
  obtain ⟨r, hreading, h⟩ := Option.bind_eq_some_iff.mp h
  obtain ⟨hnanos, hoffset⟩ := reading?_eq_some hreading
  split at h
  · next hvalid =>
    cases h
    obtain ⟨hvalid, hyear⟩ := Bool.and_eq_true_iff.mp hvalid
    refine ⟨hyear, ?_⟩
    unfold Reading.moment
    dsimp only
    split
    · right
      omega
    · left
      omega
  · cases h

end Slideshow.Timestamp
