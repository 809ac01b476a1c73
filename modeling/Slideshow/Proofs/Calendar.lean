import Mathlib.Init
import Slideshow.Timestamp

/-!
# Days and dates

Every day has a date, and the date counts back to the day. The calendar repeats every 400 years, an
era, in which years start in March; `newYear` is the day of an era on which a year starts.

* `yearOf_eq`: the division that gives the year of a day is right on the first and the last day of
  each year, and it never decreases.
* `month_spec`: the same for months, of which there is one table.

Headlines:
* **`dateOfDays_isDate`**: the date of a day is one of the calendar.
* **`daysOfDate_dateOfDays`**: it counts back to the day.
-/

namespace Slideshow.Timestamp

/-! ## Years of an era -/

/-- The day of its era on which a year starts. -/
def newYear (year : Nat) : Nat := 365 * year + year / 4 - year / 100 + year / 400

/-- The days of an era up to one, without the leap days. -/
def commonDays (day : Nat) : Nat := day - day / 1460 + day / 36524 - day / 146096

theorem commonDays_succ (day : Nat) : commonDays day ≤ commonDays (day + 1) := by
  have hcentury : day / 146096 = day / 36524 / 4 := (Nat.div_div_eq_div_mul day 36524 4).symm
  have hcentury' : (day + 1) / 146096 = (day + 1) / 36524 / 4 :=
    (Nat.div_div_eq_div_mul (day + 1) 36524 4).symm
  have hfour : day / 1460 ≤ day ∧ (day + 1) / 1460 ≤ day / 1460 + 1 ∧
    (day + 1) / 1460 ≤ day + 1 := by omega
  have hcenturies : day / 36524 ≤ (day + 1) / 36524 ∧ (day + 1) / 36524 ≤ day / 36524 + 1 := by
    omega
  unfold commonDays
  rw [hcentury, hcentury']
  generalize day / 36524 = b, (day + 1) / 36524 = b' at hcenturies ⊢
  generalize day / 1460 = a, (day + 1) / 1460 = a' at hfour ⊢
  omega

theorem commonDays_mono {a b : Nat} (h : a ≤ b) : commonDays a ≤ commonDays b := by
  induction h with
  | refl => exact Nat.le_refl _
  | step _ ih => exact Nat.le_trans ih (commonDays_succ _)

/-- A year starts on its first day, and the next one does not start on its last day. -/
theorem commonDays_year : ∀ year : Fin 400, 365 * year ≤ commonDays (newYear year) ∧
    commonDays (newYear (year + 1) - 1) < 365 * (year + 1) := by
  decide +kernel

/-- The year of a day of an era. -/
theorem yearOf_eq {day : Nat} (h : day < 146097) :
    ∃ year : Fin 400, commonDays day / 365 = year ∧ newYear year ≤ day ∧
        day < newYear (year + 1) := by
  -- some year has the day
  have hsome : ∀ n ≤ 400, day < newYear n → ∃ year < n, newYear year ≤ day ∧
      day < newYear (year + 1) := by
    intro n
    induction n with
    | zero => exact fun _ h => absurd h (Nat.not_lt_zero day)
    | succ n ih =>
      intro hn hday
      by_cases hlast : day < newYear n
      · obtain ⟨year, hyear, hdays⟩ := ih (Nat.le_of_succ_le hn) hlast
        exact ⟨year, Nat.lt_succ_of_lt hyear, hdays⟩
      · exact ⟨n, n.lt_succ_self, Nat.le_of_not_lt hlast, hday⟩
  obtain ⟨year, hyear, hfirst, hnext⟩ := hsome 400 (Nat.le_refl 400) h
  obtain ⟨hlow, hhigh⟩ := commonDays_year ⟨year, hyear⟩
  have hge := Nat.le_trans hlow (commonDays_mono hfirst)
  have hlt := Nat.lt_of_le_of_lt (commonDays_mono (Nat.le_sub_one_of_lt hnext)) hhigh
  refine ⟨⟨year, hyear⟩, ?_, hfirst, hnext⟩
  dsimp only at hge hlt ⊢
  omega

/-- Only a year before a leap year has a last day more. -/
theorem newYear_succ : ∀ year : Fin 400, newYear (year + 1) - newYear year =
    if (year.val + 1) % 4 = 0 ∧
        ((year.val + 1) % 100 ≠ 0 ∨ (year.val + 1) % 400 = 0) then 366 else 365 := by
  decide +kernel

/-! ## Months of a year -/

/-- The month of a day of the year, from March on. -/
def monthOf (day : Nat) : Nat := (5 * day + 2) / 153

/-- The day of the year on which a month starts. -/
def monthStart (month : Nat) : Nat := (153 * month + 2) / 5

/-- **A day of the year in its month.** February is the last month, and its 29th day the last
one. -/
theorem month_spec : ∀ day : Fin 366, monthOf day < 12 ∧ monthStart (monthOf day) ≤ day ∧
    day - monthStart (monthOf day) + 1 ≤
      (if monthOf day = 11 then (if day.val = 365 then 29 else 28)
        else if monthOf day = 1 ∨ monthOf day = 3 ∨ monthOf day = 6 ∨
            monthOf day = 8 then 30 else 31) := by
  decide +kernel

/-! ## Dates -/

/-- A date of the calendar. -/
structure Date.InCalendar (d : Date) : Prop where
  month : 1 ≤ d.month ∧ d.month ≤ 12
  day : 1 ≤ d.day ∧ d.day ≤ daysInMonth d.year d.month

/-- A day by its era, the year of the era and the day of the year. -/
structure Split (days : Int) where
  era : Int
  year : Fin 400
  day : Fin 366
  era_eq : (days + 719468).fdiv 146097 = era
  year_eq : commonDays (newYear year + day) / 365 = year
  days_eq : days + 719468 = 146097 * era + (newYear year + day : Nat)
  leap : day.val = 365 → (year.val + 1) % 4 = 0 ∧
    ((year.val + 1) % 100 ≠ 0 ∨ (year.val + 1) % 400 = 0)

theorem exists_split (days : Int) : Nonempty (Split days) := by
  have hera : 0 ≤ days + 719468 - 146097 * (days + 719468).fdiv 146097 ∧
      days + 719468 - 146097 * (days + 719468).fdiv 146097 < 146097 := by
    rw [Int.fdiv_eq_ediv_of_nonneg _ (by decide)]
    omega
  generalize hdays : (days + 719468 - 146097 * (days + 719468).fdiv 146097).toNat = dayOfEra
  obtain ⟨year, hyear, hfirst, hnext⟩ := @yearOf_eq dayOfEra (by omega)
  have hlength := newYear_succ year
  have hday : dayOfEra - newYear year < 366 := by split at hlength <;> omega
  have hsum : newYear year + (dayOfEra - newYear year) = dayOfEra := by omega
  refine ⟨⟨_, year, ⟨_, hday⟩, rfl, by rw [hsum, hyear], by rw [hsum]; omega, fun hlast => ?_⟩⟩
  split at hlength
  · assumption
  · dsimp only at hlast
    omega

section
variable {days : Int} (s : Split days)

/-- The month of a day, from January on. -/
def Split.month : Nat := if monthOf s.day < 10 then monthOf s.day + 3 else monthOf s.day - 9

theorem dateOfDays_eq : dateOfDays days =
    { year := (s.year : Nat) + 400 * s.era + (if s.month ≤ 2 then 1 else 0)
      month := s.month
      day := s.day - monthStart (monthOf s.day) + 1 } := by
  have hdayOfEra : (days + 719468 - 146097 * s.era).toNat = newYear s.year + s.day := by
    have := s.days_eq
    omega
  have hyear := s.year_eq
  have hday : newYear s.year + s.day - (365 * s.year + s.year / 4 - s.year / 100) = s.day := by
    have := Nat.div_eq_of_lt s.year.isLt
    unfold newYear
    omega
  unfold commonDays at hyear
  unfold dateOfDays
  simp only [s.era_eq, hdayOfEra, hyear, hday]
  rfl

theorem Split.month_le : 1 ≤ s.month ∧ s.month ≤ 12 := by
  have hmonth := (month_spec s.day).1
  unfold Split.month
  split <;> omega

/-- Counted from March, the month is the one that was found. -/
theorem Split.month_mod : (s.month + 9) % 12 = monthOf s.day := by
  have hmonth := (month_spec s.day).1
  unfold Split.month
  split <;> omega

theorem Split.isLeapYear (h : s.day.val = 365) :
    isLeapYear ((s.year : Nat) + 400 * s.era + 1) = true := by
  have hleap := s.leap h
  have hmod : ∀ a b : Int, a.emod b = a % b := fun _ _ => rfl
  simp only [Timestamp.isLeapYear, hmod, Bool.and_eq_true, Bool.or_eq_true, beq_iff_eq, bne_iff_ne]
  omega

end

/-- **The date of a day is one of the calendar.** -/
theorem dateOfDays_inCalendar (days : Int) : (dateOfDays days).InCalendar := by
  obtain ⟨s⟩ := exists_split days
  obtain ⟨hmonth, hstart, hlength⟩ := month_spec s.day
  rw [dateOfDays_eq s]
  refine ⟨s.month_le, Nat.le_add_left 1 _, Nat.le_trans hlength ?_⟩
  dsimp only
  unfold daysInMonth
  by_cases hfebruary : monthOf s.day = 11
  · have htwo : s.month = 2 := by
      rw [Split.month, hfebruary]
      rfl
    rw [if_pos hfebruary, htwo, if_pos (show (2 == 2) = true from rfl), if_pos (Nat.le_refl 2)]
    by_cases hlast : s.day.val = 365
    · refine Nat.le_of_eq ?_
      rw [if_pos hlast, if_pos (s.isLeapYear hlast)]
    · rw [if_neg hlast]
      split <;> decide
  · have hother : s.month ≠ 2 := by
      unfold Split.month
      split <;> omega
    rw [if_neg hfebruary, if_neg (show ¬(s.month == 2) = true by simpa using hother)]
    simp only [Split.month, Bool.or_eq_true, beq_iff_eq]
    split <;> split <;> split <;> omega

/-- **The date of a day counts back to it.** -/
theorem daysOfDate_dateOfDays (days : Int) :
    daysOfDate (dateOfDays days).year (dateOfDays days).month (dateOfDays days).day = days := by
  obtain ⟨s⟩ := exists_split days
  have hstart := (month_spec s.day).2.1
  have hyear :
    (if s.month ≤ 2 then (s.year : Nat) + 400 * s.era + (if s.month ≤ 2 then 1 else 0) - 1
      else (s.year : Nat) + 400 * s.era + (if s.month ≤ 2 then 1 else 0)) =
          (s.year : Nat) + 400 * s.era := by
    split <;> omega
  have hera : ((s.year : Nat) + 400 * s.era : Int).fdiv 400 = s.era := by
    rw [Int.fdiv_eq_ediv_of_nonneg _ (by decide)]
    omega
  have hday : (153 * monthOf s.day + 2) / 5 + (s.day - monthStart (monthOf s.day) + 1) - 1 =
      s.day := by
    unfold monthStart at hstart ⊢
    omega
  have hdays := s.days_eq
  have hcentury := Nat.div_eq_of_lt s.year.isLt
  unfold newYear at hdays
  rw [dateOfDays_eq s]
  simp only [daysOfDate, hyear, hera, s.month_mod, hday]
  omega

end Slideshow.Timestamp
