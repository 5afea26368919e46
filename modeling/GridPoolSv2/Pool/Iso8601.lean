import GridPoolSv2.Lib.Calendar
import GridPoolSv2.Lib.FixedWidth
import GridPoolSv2.Payout.PayoutMode
import Mathlib.Data.Int.Init

/-!
# Pool.Iso8601: the timestamps of proofs and telemetry

`iso8601_millis` (`pool/src/lib/gridpool.rs`) finds the date of a number of milliseconds without
counting: it shifts the start of the year to March, so that the leap day comes last, and divides by
the lengths of 400, 100, 4 and 1 years at once.

* `civil` is the middle of the function, from the day number to the date.
* `civil_eq` says that it finds every date, by going from a date to its place in the shifted year
  (`marchYear`, `marchMonth`, `marchDay`).
* `iso8601Millis_eq` and `iso8601Millis_lt_iff` compare the text with a count of the days (`utc`)
  and with the order of time.
-/

namespace GridPoolSv2.Pool

open Payout (Text)
open Calendar FixedWidth

/-! ### `iso8601_millis`

All divisions of the source round towards zero. The model does the same, although the numbers are
not negative here. -/

/-- `{n:0width}`. -/
def padInt (width : Nat) (n : Int) : Text :=
  let decimal := Nat.toDigits 10 n.natAbs
  if n < 0 then '-' :: (List.replicate (width - 1 - decimal.length) '0' ++ decimal)
  else List.replicate (width - decimal.length) '0' ++ decimal

/-- `iso8601_millis` from `z` to `year`: the year, the month and the day. Divisions stop at zero. -/
def civil (days : Int) : Int × Int × Int :=
  let z := days + 719468
  let era := (if 0 ≤ z then z else z - 146096).tdiv 146097
  let doe := z - era * 146097
  let yoe := (doe - doe.tdiv 1460 + doe.tdiv 36524 - doe.tdiv 146096).tdiv 365
  let year := yoe + era * 400
  let doy := doe - (365 * yoe + yoe.tdiv 4 - yoe.tdiv 100)
  let mp := (5 * doy + 2).tdiv 153
  let day := doy - (153 * mp + 2).tdiv 5 + 1
  let month := mp + if mp < 10 then 3 else -9
  (year + if month ≤ 2 then 1 else 0, month, day)

/-- `iso8601_millis`, with the conversion to `i64`. -/
def iso8601Millis (ms : Nat) : Text :=
  let seconds : Int := ((ms / 1000 : Nat) : Int).bmod (2 ^ 64)
  let millis := (ms % 1000) % 2 ^ 32
  let days := seconds / 86400
  let sod := seconds % 86400
  let date := civil days
  padInt 4 date.1 ++ '-' :: (padInt 2 date.2.1 ++ '-' :: (padInt 2 date.2.2 ++
    'T' :: (padInt 2 (sod.tdiv 3600) ++ ':' :: (padInt 2 ((sod.tmod 3600).tdiv 60) ++
      ':' :: (padInt 2 (sod.tmod 60) ++ '.' :: (padInt 3 (millis : Nat) ++ ['Z']))))))

example : iso8601Millis 0 = "1970-01-01T00:00:00.000Z".toList := by decide +kernel

/-! ### The year that begins in March

A date in January or February belongs to the year before. The lengths of the months from March on
follow a linear rule. -/

/-- The months from March on. -/
def marchMonth (month : Nat) : Nat :=
  if month ≤ 2 then month + 9 else month - 3

/-- They have 31, 30, 31, 30 and 31 days, over and over, up to the last one. -/
theorem monthLength_le_march (year : Nat) {month : Nat} (hpos : 1 ≤ month) (hle : month ≤ 12) :
    (153 * marchMonth month + 2) / 5 + monthLength year month ≤
      (153 * (marchMonth month + 1) + 2) / 5 := by
  by_cases hfebruary : month = 2
  · subst hfebruary
    rw [monthLength]
    split
    · decide
    · decide
  · interval_cases month
    case «2» => exact absurd rfl hfebruary
    all_goals exact le_rfl

theorem daysBeforeMonth_march (year : Nat) {month : Nat} (hthree : 3 ≤ month) (hle : month ≤ 12) :
    daysBeforeMonth year month = monthLength year 2 + 31 + (153 * marchMonth month + 2) / 5 := by
  rw [marchMonth, if_neg (by omega)]
  interval_cases month <;> simp only [daysBeforeMonth, monthLength] <;> omega

/-- From one March to the next a leap day belongs to the year it ends, so that no case is left. -/
theorem daysBeforeMarch_eq (year : Nat) :
    daysBeforeYear year + monthLength year 2 + year / 100 =
      365 * year + 29 + year / 4 + year / 400 := by
  have hnext := daysBeforeYear_eq (year + 1)
  have hlength : yearLength year = monthLength year 2 + 337 := by
    rw [yearLength, monthLength]
    split <;> rfl
  rw [daysBeforeYear, hlength] at hnext
  omega

section March

variable (d : Date)

def marchYear : Nat :=
  if d.month ≤ 2 then d.year - 1 else d.year

/-- The days since the first of March. -/
def marchDay : Nat :=
  (153 * marchMonth d.month + 2) / 5 + (d.day - 1)

variable {d}

/-- The month is read off the day of the shifted year. -/
theorem marchMonth_eq : (5 * marchDay d + 2) / 153 = marchMonth d.month := by
  have hlength := monthLength_le_march d.year d.one_le_month d.month_le
  have hday := d.day_le
  have hpos := d.one_le_day
  unfold marchDay
  omega

/-- The last day of a leap year is a leap day. -/
theorem marchDay_le (hyear : 1 ≤ d.year) :
    marchDay d ≤ 365 ∧ (marchDay d = 365 → IsLeap (marchYear d + 1)) := by
  have hpos := d.one_le_month
  have hday := d.day_le
  unfold marchDay marchYear
  by_cases hfebruary : d.month = 2
  · have hmonth : marchMonth d.month = 11 := by
      rw [hfebruary]
      rfl
    rw [hfebruary, monthLength] at hday
    rw [hmonth, if_pos hfebruary.le, Nat.sub_add_cancel hyear]
    split at hday
    · rename_i hleap
      exact ⟨by omega, fun _ => hleap⟩
    · exact ⟨by omega, fun hlast => by omega⟩
  · have hlength := monthLength_le_march d.year hpos d.month_le
    have hmonth : marchMonth d.month ≤ 10 := by
      have hle := d.month_le
      unfold marchMonth
      split
      · omega
      · omega
    exact ⟨by omega, fun hlast => by omega⟩

/-- The number of a day by its place in the shifted year. -/
theorem dayNumber_eq_march (hyear : 1 ≤ d.year) :
    d.dayNumber + marchYear d / 100 =
      60 + 365 * marchYear d + marchYear d / 4 + marchYear d / 400 + marchDay d := by
  have hpos := d.one_le_month
  unfold Date.dayNumber marchDay marchYear
  by_cases hmonth : d.month ≤ 2
  · have hyears := daysBeforeYear_eq d.year
    have hmonths : daysBeforeMonth d.year d.month = 31 * (d.month - 1) := by
      generalize d.month = month at *
      interval_cases month <;> rfl
    rw [if_pos hmonth, marchMonth, if_pos hmonth]
    omega
  · have hmarch := daysBeforeMarch_eq d.year
    rw [if_neg hmonth, daysBeforeMonth_march d.year (by omega) d.month_le]
    omega

/-- The place of a date in its 400 years: centuries, fours of years, years and days. Only the last
days of leap years have the number 365. -/
theorem exists_place (hyear : 1 ≤ d.year) :
    ∃ era c q y : Nat, marchYear d = 400 * era + 100 * c + 4 * q + y ∧ c ≤ 3 ∧ q ≤ 24 ∧ y ≤ 3 ∧
      d.dayNumber = 60 + 146097 * era + 36524 * c + 1461 * q + 365 * y + marchDay d ∧
      marchDay d ≤ 365 ∧ (marchDay d = 365 → y = 3 ∧ (q ≤ 23 ∨ c = 3)) := by
  obtain ⟨hle, hleap⟩ := marchDay_le hyear
  have hnumber := dayNumber_eq_march hyear
  refine ⟨marchYear d / 400, marchYear d % 400 / 100, marchYear d % 100 / 4, marchYear d % 4,
    by omega, by omega, by omega, by omega, by omega, hle, fun hlast => ?_⟩
  have hfour := hleap hlast
  unfold IsLeap at hfour
  omega

end March

/-! ### The closed form -/

theorem ediv_year {n year : Int} (hlo : 365 * year ≤ n) (hhi : n < 365 * year + 365) :
    n / 365 = year := by
  omega

section ClosedForm

variable {c q y x : Int} (hc : 0 ≤ c ∧ c ≤ 3) (hq : 0 ≤ q ∧ q ≤ 24) (hy : 0 ≤ y ∧ y ≤ 3)
  (hx : 0 ≤ x ∧ x ≤ 365) (hleap : x = 365 → y = 3 ∧ (q ≤ 23 ∨ c = 3))

include hc hq hy hx hleap

/-- The corrections for centuries: the last day of the 400 years is in the fourth one. -/
theorem centuries_eq :
    (36524 * c + 1461 * q + 365 * y + x) / 36524 - (36524 * c + 1461 * q + 365 * y + x) / 146096 =
      c := by
  by_cases hlast : x = 365 ∧ q = 24
  · have hc3 : c = 3 := by omega
    have hy3 : y = 3 := (hleap hlast.1).1
    rw [hlast.1, hlast.2, hc3, hy3]
    decide
  · have hcentury : (36524 * c + 1461 * q + 365 * y + x) / 36524 = c := by omega
    have hera : (36524 * c + 1461 * q + 365 * y + x) / 146096 = 0 := by omega
    omega

/-- The year is found by dividing by 365, once the leap days before it are taken off. -/
theorem yearOfEra_eq :
    (36524 * c + 1461 * q + 365 * y + x - (36524 * c + 1461 * q + 365 * y + x) / 1460 +
        (36524 * c + 1461 * q + 365 * y + x) / 36524 -
        (36524 * c + 1461 * q + 365 * y + x) / 146096) / 365 = 100 * c + 4 * q + y := by
  rw [Int.add_sub_assoc, centuries_eq hc hq hy hx hleap]
  have hlo : 365 * (100 * c + 4 * q + y) ≤ 36524 * c + 1461 * q + 365 * y + x -
      (36524 * c + 1461 * q + 365 * y + x) / 1460 + c := by omega
  have hhi : 36524 * c + 1461 * q + 365 * y + x -
      (36524 * c + 1461 * q + 365 * y + x) / 1460 + c < 365 * (100 * c + 4 * q + y) + 365 :=
        by omega
  exact ediv_year hlo hhi

end ClosedForm

theorem tdiv_era {days era doe : Int} (hera : 0 ≤ era) (hdoe : 0 ≤ doe) (hlt : doe < 146097)
    (hdays : days + 719468 = 146097 * era + doe) :
    (if 0 ≤ days + 719468 then days + 719468 else days + 719468 - 146096).tdiv 146097 = era := by
  rw [if_pos (by omega), Int.tdiv_eq_ediv_of_nonneg (by omega)]
  omega

/-- The correction for leap days, with divisions that round down. -/
theorem tdiv_yearOfEra {doe : Int} (h : 0 ≤ doe) :
    (doe - doe.tdiv 1460 + doe.tdiv 36524 - doe.tdiv 146096).tdiv 365 =
      (doe - doe / 1460 + doe / 36524 - doe / 146096) / 365 := by
  rw [Int.tdiv_eq_ediv_of_nonneg h, Int.tdiv_eq_ediv_of_nonneg h, Int.tdiv_eq_ediv_of_nonneg h,
    Int.tdiv_eq_ediv_of_nonneg (by omega)]

/-- The leap days of a year of the era. -/
theorem tdiv_leapDays {c q y : Int} (hc : 0 ≤ c) (hq : 0 ≤ q ∧ q ≤ 24) (hy : 0 ≤ y ∧ y ≤ 3) :
    (100 * c + 4 * q + y).tdiv 4 - (100 * c + 4 * q + y).tdiv 100 = 24 * c + q := by
  rw [Int.tdiv_eq_ediv_of_nonneg (by omega), Int.tdiv_eq_ediv_of_nonneg (by omega)]
  omega

/-- `civil` on a day by its place. Nothing is negative, so that the divisions of the source round
down. -/
theorem civil_of_place {era c q y x days : Int} (hera : 0 ≤ era) (hc : 0 ≤ c ∧ c ≤ 3)
    (hq : 0 ≤ q ∧ q ≤ 24) (hy : 0 ≤ y ∧ y ≤ 3) (hx : 0 ≤ x ∧ x ≤ 365)
    (hleap : x = 365 → y = 3 ∧ (q ≤ 23 ∨ c = 3))
    (hdays : days + 719468 = 146097 * era + (36524 * c + 1461 * q + 365 * y + x)) :
    civil days =
      (100 * c + 4 * q + y + era * 400 +
          (if (5 * x + 2) / 153 + (if (5 * x + 2) / 153 < 10 then 3 else -9) ≤ 2 then 1 else 0),
        (5 * x + 2) / 153 + (if (5 * x + 2) / 153 < 10 then 3 else -9),
        x - (153 * ((5 * x + 2) / 153) + 2) / 5 + 1) := by
  have hdoe : 0 ≤ 36524 * c + 1461 * q + 365 * y + x := by omega
  have hlt : 36524 * c + 1461 * q + 365 * y + x < 146097 := by omega
  have hyoe := tdiv_yearOfEra hdoe
  rw [yearOfEra_eq hc hq hy hx hleap] at hyoe
  have hrest : days + 719468 - era * 146097 = 36524 * c + 1461 * q + 365 * y + x := by omega
  have hdoy : 36524 * c + 1461 * q + 365 * y + x - (365 * (100 * c + 4 * q + y) +
      (100 * c + 4 * q + y).tdiv 4 - (100 * c + 4 * q + y).tdiv 100) = x := by
    have hleaps := tdiv_leapDays hc.1 hq hy
    omega
  have hmp : (5 * x + 2).tdiv 153 = (5 * x + 2) / 153 :=
    Int.tdiv_eq_ediv_of_nonneg (by omega)
  have hday : (153 * ((5 * x + 2) / 153) + 2).tdiv 5 = (153 * ((5 * x + 2) / 153) + 2) / 5 :=
    Int.tdiv_eq_ediv_of_nonneg (by omega)
  unfold civil
  simp only
  rw [tdiv_era hera hdoe hlt hdays, hrest, hyoe, hdoy, hmp, hday]

theorem civil_eq {d : Date} {days : Nat} (hyear : 1 ≤ d.year) (h : d.dayNumber = days + 719528) :
    civil days = ((d.year : Int), (d.month : Int), (d.day : Int)) := by
  obtain ⟨era, c, q, y, hplace, hc, hq, hy, hnumber, hle, hleap⟩ := exists_place hyear
  have hcivil := @civil_of_place era c q y (marchDay d) days (by omega) (by omega) (by omega)
    (by omega) (by omega) (by omega) (by omega)
  have hmp : (5 * (marchDay d : Int) + 2) / 153 = marchMonth d.month := by
    have heq := marchMonth_eq (d := d)
    omega
  have hplaced : marchDay d = (153 * marchMonth d.month + 2) / 5 + (d.day - 1) := rfl
  have hday := d.one_le_day
  have hmonth := d.month_le
  have hmonth' := d.one_le_month
  -- January and February are the months 10 and 11 of the year before
  have hcalendar : (marchMonth d.month : Int) +
      (if (marchMonth d.month : Int) < 10 then 3 else -9) = d.month := by
    unfold marchMonth
    split <;> split <;> omega
  rw [hcivil, hmp, hcalendar, Prod.mk.injEq, Prod.mk.injEq]
  unfold marchYear at hplace
  refine ⟨?_, rfl, by omega⟩
  split at hplace
  · rw [if_pos (by omega)]
    omega
  · rw [if_neg (by omega)]
    omega

/-! ### The text -/

/-- A number that is not negative is written with its digits. -/
theorem padInt_eq {width n : Nat} (hpos : 0 < width) (h : n < 10 ^ width) :
    padInt width n = digits width n := by
  have hsign : ¬ (n : Int) < 0 := by omega
  simp only [padInt, if_neg hsign, Int.natAbs_natCast]
  exact padded_toDigits hpos h

/-- The milliseconds from 1970 up to a year. -/
def millisBefore (year : Nat) : Nat :=
  86400000 * (daysBeforeYear year - daysBeforeYear 1970)

/-- The fields of the text with their separators. -/
def iso8601Fields : List (Nat × Char) :=
  [(4, '-'), (2, '-'), (2, 'T'), (2, ':'), (2, ':'), (2, '.'), (3, 'Z')]

/-- The date and the time of an instant, the date by counting. -/
def utc (ms : Nat) : List Nat :=
  let date := Date.ofDays 1970 (ms / 86400000)
  [date.year, date.month, date.day, ms / 3600000 % 24, ms / 60000 % 60, ms / 1000 % 60, ms % 1000]

theorem daysBeforeYear_1970 : daysBeforeYear 1970 = 719528 := by
  have hclosed := daysBeforeYear_eq 1970
  omega

/-- The milliseconds from the epoch to the year 10000. -/
theorem millisBefore_10000 : millisBefore 10000 = 253402300800000 := by
  have hclosed := daysBeforeYear_eq 10000
  rw [millisBefore, daysBeforeYear_1970]
  omega

theorem timeOfDay_eq (seconds : Nat) :
    ((seconds : Int) % 86400).tdiv 3600 = (seconds / 3600 % 24 : Nat) ∧
      (((seconds : Int) % 86400).tmod 3600).tdiv 60 = (seconds / 60 % 60 : Nat) ∧
      ((seconds : Int) % 86400).tmod 60 = (seconds % 60 : Nat) := by
  have hpos : 0 ≤ (seconds : Int) % 86400 := Int.emod_nonneg _ (by decide)
  rw [Int.tdiv_eq_ediv_of_nonneg hpos, Int.tmod_eq_emod_of_nonneg hpos,
    Int.tmod_eq_emod_of_nonneg hpos, Int.tdiv_eq_ediv_of_nonneg (Int.emod_nonneg _ (by decide))]
  refine ⟨?_, ?_, ?_⟩ <;> omega

theorem one_le_year_ofDays (days : Nat) : 1 ≤ (Date.ofDays 1970 days).year := by
  have hnumber := Date.dayNumber_ofDays 1970 days
  have hlt := (Date.ofDays 1970 days).dayNumber_lt_year
  rw [daysBeforeYear_1970] at hnumber
  by_contra hzero
  have hyear : (Date.ofDays 1970 days).year = 0 := by omega
  have hfirst : daysBeforeYear (0 + 1) = 366 := rfl
  rw [hyear] at hlt
  omega

section BeforeYear

variable {ms : Nat} (hms : ms < millisBefore 10000)

include hms

theorem year_ofDays_lt : (Date.ofDays 1970 (ms / 86400000)).year < 10000 := by
  have hnumber := Date.dayNumber_ofDays 1970 (ms / 86400000)
  rw [daysBeforeYear_1970] at hnumber
  have hlast := daysBeforeYear_eq 10000
  rw [millisBefore_10000] at hms
  by_contra hlate
  have hmono := daysBeforeYear_mono (Nat.le_of_not_lt hlate)
  unfold Date.dayNumber at hnumber
  omega

theorem fits_utc : FixedWidth.Fits iso8601Fields (utc ms) := by
  have hyear := year_ofDays_lt hms
  generalize hdate : Date.ofDays 1970 (ms / 86400000) = date at hyear
  have hmonth := date.month_le
  have hday : date.day ≤ 31 := date.day_le.trans (monthLength_le date.year date.month)
  unfold FixedWidth.Fits iso8601Fields utc
  rw [hdate]
  refine .cons hyear (.cons ?_ (.cons ?_ (.cons ?_ (.cons ?_ (.cons ?_ (.cons ?_ .nil)))))) <;>
    simp only [Nat.reducePow] <;> omega

theorem iso8601Millis_eq : iso8601Millis ms = render iso8601Fields (utc ms) := by
  have hnumber := Date.dayNumber_ofDays 1970 (ms / 86400000)
  rw [daysBeforeYear_1970, Nat.add_comm] at hnumber
  have hdate := civil_eq (one_le_year_ofDays _) hnumber
  have hfits := fits_utc hms
  unfold utc iso8601Fields at hfits ⊢
  generalize Date.ofDays 1970 (ms / 86400000) = date at hdate hfits ⊢
  rw [millisBefore_10000] at hms
  have hseconds : ((ms / 1000 : Nat) : Int).bmod (2 ^ 64) = (ms / 1000 : Nat) :=
    Int.bmod_eq_of_le (by omega) (by omega)
  have hdays : ((ms / 1000 : Nat) : Int) / 86400 = (ms / 86400000 : Nat) := by omega
  have hmillis : ms % 1000 % 2 ^ 32 = ms % 1000 := Nat.mod_eq_of_lt (by omega)
  obtain ⟨hhour, hminute, hsecond⟩ := timeOfDay_eq (ms / 1000)
  simp only [List.forall₂_cons, FixedWidth.Fits] at hfits
  obtain ⟨h₁, h₂, h₃, h₄, h₅, h₆, h₇, -⟩ := hfits
  unfold iso8601Millis
  simp only
  rw [hseconds, hdays, hdate, hmillis, hhour, hminute, hsecond, Nat.div_div_eq_div_mul,
    Nat.div_div_eq_div_mul, padInt_eq (by decide) h₁, padInt_eq (by decide) h₂,
    padInt_eq (by decide) h₃, padInt_eq (by decide) h₄, padInt_eq (by decide) h₅,
    padInt_eq (by decide) h₆, padInt_eq (by decide) h₇]
  rfl

end BeforeYear

/-! ### The order of time -/

theorem date_append_lt {d d' : Date} (h : d.Before d') (ns ns' : List Nat) :
    d.year :: d.month :: d.day :: ns < d'.year :: d'.month :: d'.day :: ns' := by
  rcases h with hyear | ⟨hyear, hmonth | ⟨hmonth, hday⟩⟩
  · exact List.cons_lt_cons_iff.mpr (.inl hyear)
  · rw [hyear]
    refine List.cons_lt_cons_iff.mpr (.inr ⟨rfl, List.cons_lt_cons_iff.mpr (.inl hmonth)⟩)
  · rw [hyear, hmonth]
    refine List.cons_lt_cons_iff.mpr (.inr ⟨rfl, List.cons_lt_cons_iff.mpr (.inr ⟨rfl, ?_⟩)⟩)
    exact List.cons_lt_cons_iff.mpr (.inl hday)

/-- Of two numbers with the same quotient by `n * k`, the digit for `n` decides, or the rest. -/
theorem digit_lt_or_eq {n k a b : Nat} (h : a < b) (hsame : a / (n * k) = b / (n * k)) :
    a / n % k < b / n % k ∨ a / n % k = b / n % k ∧ a / n = b / n := by
  rw [← Nat.div_div_eq_div_mul, ← Nat.div_div_eq_div_mul] at hsame
  have hle : a / n ≤ b / n := Nat.div_le_div_right h.le
  have ha := Nat.div_add_mod (a / n) k
  have hb := Nat.div_add_mod (b / n) k
  rw [hsame] at ha
  omega

/-- On the same day, an earlier time comes first. -/
theorem time_lt {ms ms' : Nat} (hday : ms / 86400000 = ms' / 86400000) (h : ms < ms') :
    [ms / 3600000 % 24, ms / 60000 % 60, ms / 1000 % 60, ms % 1000] <
      [ms' / 3600000 % 24, ms' / 60000 % 60, ms' / 1000 % 60, ms' % 1000] := by
  rw [List.cons_lt_cons_iff, List.cons_lt_cons_iff, List.cons_lt_cons_iff, List.cons_lt_cons_iff]
  rcases digit_lt_or_eq (n := 3600000) (k := 24) h hday with hlt | ⟨heq, hhour⟩
  · exact .inl hlt
  refine .inr ⟨heq, ?_⟩
  rcases digit_lt_or_eq (n := 60000) (k := 60) h hhour with hlt | ⟨heq, hminute⟩
  · exact .inl hlt
  refine .inr ⟨heq, ?_⟩
  rcases digit_lt_or_eq (n := 1000) (k := 60) h hminute with hlt | ⟨heq, hsecond⟩
  · exact .inl hlt
  · exact .inr ⟨heq, .inl (by omega)⟩

theorem utc_lt_utc {ms ms' : Nat} (h : ms < ms') : utc ms < utc ms' := by
  unfold utc
  rcases Nat.lt_or_ge (ms / 86400000) (ms' / 86400000) with hdays | hdays
  · refine date_append_lt (Date.dayNumber_lt_iff.mp ?_) _ _
    rw [Date.dayNumber_ofDays, Date.dayNumber_ofDays]
    exact Nat.add_lt_add_left hdays _
  · have hsame : ms / 86400000 = ms' / 86400000 :=
      Nat.le_antisymm (Nat.div_le_div_right h.le) hdays
    simp only [hsame]
    iterate 3 refine List.cons_lt_cons_iff.mpr (.inr ⟨rfl, ?_⟩)
    exact time_lt hsame h

theorem iso8601Millis_lt {ms ms' : Nat} (hms' : ms' < millisBefore 10000) (h : ms < ms') :
    iso8601Millis ms < iso8601Millis ms' := by
  rw [iso8601Millis_eq hms', iso8601Millis_eq (h.trans hms')]
  exact render_lt_render (fits_utc (h.trans hms')) (fits_utc hms') (utc_lt_utc h)

/-- The order of the texts is that of time. -/
theorem iso8601Millis_lt_iff {ms ms' : Nat} (hms : ms < millisBefore 10000)
    (hms' : ms' < millisBefore 10000) : iso8601Millis ms < iso8601Millis ms' ↔ ms < ms' := by
  refine ⟨fun htext => ?_, iso8601Millis_lt hms'⟩
  rcases Nat.lt_trichotomy ms ms' with hlt | heq | hgt
  · exact hlt
  · rw [heq] at htext
    exact absurd htext (List.lt_irrefl _)
  · exact absurd htext (List.lt_asymm (iso8601Millis_lt hms hgt))

/-- The text of an instant before the year 10000 is its date and time by the calendar, with the date
counted from 1970, and the order of such texts is the order of time. -/
theorem iso8601Millis_reads {ms : Nat} (hms : ms < millisBefore 10000) :
    iso8601Millis ms = render iso8601Fields (utc ms) ∧
      ∀ ms' < millisBefore 10000, iso8601Millis ms < iso8601Millis ms' ↔ ms < ms' :=
  ⟨iso8601Millis_eq hms, fun _ hms' => iso8601Millis_lt_iff hms hms'⟩

/-- The leap day of the year 2000, which the rule for centuries takes away and the one for four of
them gives back. -/
theorem iso8601Millis_reads_leapDay :
    951782400000 < millisBefore 10000 ∧
      iso8601Millis 951782400000 = render iso8601Fields (utc 951782400000) ∧
      ∀ ms' < millisBefore 10000, iso8601Millis 951782400000 < iso8601Millis ms' ↔
        951782400000 < ms' := by
  have hms : 951782400000 < millisBefore 10000 := by
    rw [millisBefore_10000]
    decide
  exact ⟨hms, iso8601Millis_reads hms⟩

end GridPoolSv2.Pool
