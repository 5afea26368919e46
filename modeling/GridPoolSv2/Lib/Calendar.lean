import Mathlib.Order.Basic
import Mathlib.Tactic.Common
import Mathlib.Tactic.IntervalCases

/-!
# Lib.Calendar: the proleptic Gregorian calendar

Dates from the year 0 on, as a year, a month and a day that the month has. The calendar is given by
the leap-year rule and the lengths of the months alone; days are **counted**, first the years and
then the months (`Date.ofDays`).

* `Date.dayNumber` is the number of days since the first day of the year 0. Different dates have
  different numbers, and the order of dates is the order of their numbers (`Date.dayNumber_lt_iff`).
* `daysBeforeYear_eq` is the closed form that algorithms use.
-/

namespace Calendar

/-! ### Years and months -/

def IsLeap (year : Nat) : Prop :=
  year % 4 = 0 ∧ (year % 100 ≠ 0 ∨ year % 400 = 0)

instance (year : Nat) : Decidable (IsLeap year) :=
  inferInstanceAs (Decidable (_ ∧ _))

def yearLength (year : Nat) : Nat :=
  if IsLeap year then 366 else 365

def monthLength (year : Nat) : Nat → Nat
  | 2 => if IsLeap year then 29 else 28
  | 4 | 6 | 9 | 11 => 30
  | _ => 31

theorem yearLength_pos (year : Nat) : 0 < yearLength year := by
  unfold yearLength
  split
  · decide
  · decide

theorem monthLength_pos (year month : Nat) : 0 < monthLength year month := by
  unfold monthLength
  split
  · split
    · decide
    · decide
  all_goals decide

theorem monthLength_le (year month : Nat) : monthLength year month ≤ 31 := by
  unfold monthLength
  split
  · split
    · decide
    · decide
  all_goals decide

/-- The days of the years before this one. -/
def daysBeforeYear : Nat → Nat
  | 0 => 0
  | year + 1 => daysBeforeYear year + yearLength year

/-- The days of the months before this one. -/
def daysBeforeMonth (year : Nat) : Nat → Nat
  | 0 | 1 => 0
  | month + 2 => daysBeforeMonth year (month + 1) + monthLength year (month + 1)

theorem daysBeforeMonth_succ (year : Nat) {month : Nat} (h : 1 ≤ month) :
    daysBeforeMonth year (month + 1) = daysBeforeMonth year month + monthLength year month := by
  obtain ⟨month, rfl⟩ := Nat.exists_eq_add_of_le' h
  rfl

/-- The year 0 is a leap year, and so are all multiples of 4 but three of four centuries. -/
theorem daysBeforeYear_eq (year : Nat) :
    daysBeforeYear year + (year + 99) / 100 = 365 * year + (year + 3) / 4 + (year + 399) / 400 := by
  induction year with
  | zero => rfl
  | succ year ih =>
      rw [daysBeforeYear, yearLength]
      split
      · rename_i hleap
        unfold IsLeap at hleap
        omega
      · rename_i hcommon
        unfold IsLeap at hcommon
        omega

theorem daysBeforeMonth_thirteen (year : Nat) : daysBeforeMonth year 13 = yearLength year := by
  simp only [daysBeforeMonth, monthLength, yearLength]
  split
  · rfl
  · rfl

theorem daysBeforeYear_mono {year year' : Nat} (h : year ≤ year') :
    daysBeforeYear year ≤ daysBeforeYear year' := by
  induction h with
  | refl => exact le_rfl
  | step _ ih => exact ih.trans (Nat.le_add_right _ _)

theorem daysBeforeMonth_mono (year : Nat) {month month' : Nat} (hpos : 1 ≤ month)
    (h : month ≤ month') : daysBeforeMonth year month ≤ daysBeforeMonth year month' := by
  induction h with
  | refl => exact le_rfl
  | step hle ih =>
      rw [Nat.succ_eq_add_one, daysBeforeMonth_succ year (hpos.trans hle)]
      exact ih.trans (Nat.le_add_right _ _)

/-! ### Dates -/

/-- A day of the calendar. -/
@[ext] structure Date where
  year : Nat
  month : Nat
  day : Nat
  one_le_month : 1 ≤ month
  month_le : month ≤ 12
  one_le_day : 1 ≤ day
  day_le : day ≤ monthLength year month
  deriving Repr, DecidableEq

namespace Date

/-- The days since the first day of the year 0. -/
def dayNumber (d : Date) : Nat :=
  daysBeforeYear d.year + daysBeforeMonth d.year d.month + (d.day - 1)

/-- Earlier in the calendar. -/
def Before (d d' : Date) : Prop :=
  d.year < d'.year ∨ d.year = d'.year ∧
    (d.month < d'.month ∨ d.month = d'.month ∧ d.day < d'.day)

/-- A day lies before the end of its month. -/
theorem dayNumber_lt_month (d : Date) :
    d.dayNumber < daysBeforeYear d.year + daysBeforeMonth d.year (d.month + 1) := by
  have hlo := d.one_le_day
  have hhi := d.day_le
  rw [dayNumber, daysBeforeMonth_succ _ d.one_le_month]
  omega

theorem dayNumber_lt_year (d : Date) : d.dayNumber < daysBeforeYear (d.year + 1) := by
  refine d.dayNumber_lt_month.trans_le ?_
  have hmono : daysBeforeMonth d.year (d.month + 1) ≤ daysBeforeMonth d.year 13 :=
    daysBeforeMonth_mono d.year (Nat.le_add_left _ _) (Nat.add_le_add_right d.month_le 1)
  rw [daysBeforeMonth_thirteen] at hmono
  exact Nat.add_le_add_left hmono _

theorem dayNumber_lt_of_before {d d' : Date} (h : d.Before d') : d.dayNumber < d'.dayNumber := by
  obtain ⟨y, m, a, hm, hm', ha, ha'⟩ := d
  obtain ⟨y', m', a', hn, hn', hb, hb'⟩ := d'
  rcases h with hyear | ⟨hyear, hmonth | ⟨hmonth, hday⟩⟩
  · have hlt := dayNumber_lt_year ⟨y, m, a, hm, hm', ha, ha'⟩
    have hle : daysBeforeYear (y + 1) ≤ daysBeforeYear y' := daysBeforeYear_mono hyear
    simp only [dayNumber] at hlt ⊢
    omega
  · obtain rfl : y = y' := hyear
    have hlt := dayNumber_lt_month ⟨y, m, a, hm, hm', ha, ha'⟩
    have hle : daysBeforeMonth y (m + 1) ≤ daysBeforeMonth y m' :=
      daysBeforeMonth_mono y (Nat.le_add_left _ _) hmonth
    simp only [dayNumber] at hlt ⊢
    omega
  · obtain rfl : y = y' := hyear
    obtain rfl : m = m' := hmonth
    simp only [dayNumber] at hday ⊢
    omega

/-- Of two dates one is earlier, or they are the same. -/
theorem before_trichotomy (d d' : Date) : d.Before d' ∨ d = d' ∨ d'.Before d := by
  unfold Before
  rcases Nat.lt_trichotomy d.year d'.year with hyear | hyear | hyear
  · exact .inl (.inl hyear)
  · rcases Nat.lt_trichotomy d.month d'.month with hmonth | hmonth | hmonth
    · exact .inl (.inr ⟨hyear, .inl hmonth⟩)
    · rcases Nat.lt_trichotomy d.day d'.day with hday | hday | hday
      · exact .inl (.inr ⟨hyear, .inr ⟨hmonth, hday⟩⟩)
      · exact .inr (.inl (Date.ext hyear hmonth hday))
      · exact .inr (.inr (.inr ⟨hyear.symm, .inr ⟨hmonth.symm, hday⟩⟩))
    · exact .inr (.inr (.inr ⟨hyear.symm, .inl hmonth⟩))
  · exact .inr (.inr (.inl hyear))

theorem dayNumber_lt_iff {d d' : Date} : d.dayNumber < d'.dayNumber ↔ d.Before d' := by
  refine ⟨fun h => ?_, dayNumber_lt_of_before⟩
  rcases before_trichotomy d d' with hbefore | rfl | hafter
  · exact hbefore
  · exact absurd h (Nat.lt_irrefl _)
  · exact absurd h (Nat.lt_asymm (dayNumber_lt_of_before hafter))

theorem dayNumber_inj {d d' : Date} (h : d.dayNumber = d'.dayNumber) : d = d' := by
  rcases before_trichotomy d d' with hbefore | heq | hafter
  · exact absurd h (dayNumber_lt_of_before hbefore).ne
  · exact heq
  · exact absurd h (dayNumber_lt_of_before hafter).ne'

end Date

/-! ### Counting days -/

/-- Of the days from the first day of a year on, the year of the last one, and its place there. -/
def countYears (year days : Nat) : Nat × Nat :=
  if days < yearLength year then (year, days)
  else countYears (year + 1) (days - yearLength year)
termination_by days
decreasing_by
  have hpos := yearLength_pos year
  omega

/-- Of the days from the first day of a month on, the month of the last one, and its place there. -/
def countMonths (year month days : Nat) : Nat × Nat :=
  if days < monthLength year month then (month, days)
  else countMonths year (month + 1) (days - monthLength year month)
termination_by days
decreasing_by
  have hpos := monthLength_pos year month
  omega

theorem countYears_spec (year days : Nat) :
    (countYears year days).2 < yearLength (countYears year days).1 ∧
      daysBeforeYear (countYears year days).1 + (countYears year days).2 =
        daysBeforeYear year + days := by
  induction year, days using countYears.induct with
  | case1 year days h =>
      rw [countYears, if_pos h]
      exact ⟨h, rfl⟩
  | case2 year days h ih =>
      rw [countYears, if_neg h]
      refine ⟨ih.1, ih.2.trans ?_⟩
      rw [daysBeforeYear]
      omega

theorem countMonths_spec (year month days : Nat) (hmonth : 1 ≤ month) :
    1 ≤ (countMonths year month days).1 ∧
      (countMonths year month days).2 < monthLength year (countMonths year month days).1 ∧
      daysBeforeMonth year (countMonths year month days).1 + (countMonths year month days).2 =
        daysBeforeMonth year month + days := by
  induction month, days using countMonths.induct year with
  | case1 month days h =>
      rw [countMonths, if_pos h]
      exact ⟨hmonth, h, rfl⟩
  | case2 month days h ih =>
      obtain ⟨hpos, hlt, hsum⟩ := ih (Nat.le_add_left _ _)
      rw [countMonths, if_neg h]
      refine ⟨hpos, hlt, hsum.trans ?_⟩
      rw [daysBeforeMonth_succ year hmonth]
      omega

/-- The days of a year end with December. -/
theorem countMonths_le_twelve {year days : Nat} (h : days < yearLength year) :
    (countMonths year 1 days).1 ≤ 12 := by
  obtain ⟨-, -, hsum⟩ := countMonths_spec year 1 days le_rfl
  by_contra hlate
  have hmono : daysBeforeMonth year 13 ≤ daysBeforeMonth year (countMonths year 1 days).1 :=
    daysBeforeMonth_mono year (by decide) (Nat.lt_of_not_le hlate)
  rw [daysBeforeMonth_thirteen] at hmono
  have hstart : daysBeforeMonth year 1 = 0 := rfl
  omega

/-- The date that many days after the first day of a year: the years are counted off, and then the
months. -/
def Date.ofDays (year days : Nat) : Date :=
  let inYear := countYears year days
  let inMonth := countMonths inYear.1 1 inYear.2
  have hmonths := countMonths_spec inYear.1 1 inYear.2 le_rfl
  { year := inYear.1
    month := inMonth.1
    day := inMonth.2 + 1
    one_le_month := hmonths.1
    month_le := countMonths_le_twelve (countYears_spec year days).1
    one_le_day := Nat.le_add_left _ _
    day_le := hmonths.2.1 }

theorem Date.dayNumber_ofDays (year days : Nat) :
    (Date.ofDays year days).dayNumber = daysBeforeYear year + days := by
  obtain ⟨-, hyears⟩ := countYears_spec year days
  obtain ⟨-, -, hmonths⟩ :=
    countMonths_spec (countYears year days).1 1 (countYears year days).2 le_rfl
  have hstart : daysBeforeMonth (countYears year days).1 1 = 0 := rfl
  simp only [Date.dayNumber, Date.ofDays, Nat.add_sub_cancel]
  omega

end Calendar
