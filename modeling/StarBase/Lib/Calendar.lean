import Mathlib.Data.List.Range
import Mathlib.Tactic.IntervalCases

/-!
# The Gregorian calendar

The proleptic Gregorian calendar over all years, and the number of a day from 1970-01-01 on.

* `monthLength`, `Date` — the calendar;
* `Date.number` — the day's number, by the days of the years and months before it;
* `Date.number_lt_of_year_lt` — **PROVED**: the days of a year come before those of the next;
* `exists_marchYear` — **PROVED**: a day of a 400-year era in its century, its four years, its year and
  its place in it, with years that begin in March.
-/

namespace Calendar

def IsLeap (y : ℤ) : Prop := y % 4 = 0 ∧ (y % 100 ≠ 0 ∨ y % 400 = 0)

instance (y : ℤ) : Decidable (IsLeap y) := inferInstanceAs (Decidable (_ ∧ _))

/-- The days of a month. -/
def monthLength (y m : ℤ) : ℤ :=
  if m = 2 then if IsLeap y then 29 else 28
  else if m = 4 ∨ m = 6 ∨ m = 9 ∨ m = 11 then 30
  else 31

/-- A day that exists. -/
structure IsDate (y m d : ℤ) : Prop where
  one_le_month : 1 ≤ m
  month_le : m ≤ 12
  one_le_day : 1 ≤ d
  day_le : d ≤ monthLength y m

theorem IsDate.day_le_31 {y m d : ℤ} (h : IsDate y m d) : d ≤ 31 := by
  have hlen := h.day_le
  unfold monthLength at hlen
  split at hlen
  · split at hlen <;> omega
  · split at hlen <;> omega

structure Date where
  year : ℤ
  month : ℤ
  day : ℤ
  isDate : IsDate year month day

/-- The leap years up to a year, but for a constant. -/
def leapsThrough (y : ℤ) : ℤ := y / 4 - y / 100 + y / 400

/-- The days from 1970-01-01 to the first of January. -/
def yearStart (y : ℤ) : ℤ := 365 * (y - 1970) + (leapsThrough (y - 1) - leapsThrough 1969)

/-- The days of a year before a month. -/
def monthStart (y : ℤ) (m : ℤ) : ℤ :=
  ((List.range (m - 1).toNat).map fun i => monthLength y (i + 1)).sum

def dayNumber (y m d : ℤ) : ℤ := yearStart y + monthStart y m + (d - 1)

/-- The days from 1970-01-01. -/
def Date.number (D : Date) : ℤ := dayNumber D.year D.month D.day

theorem leapsThrough_eq (y : ℤ) :
    leapsThrough y = leapsThrough (y - 1) + if IsLeap y then 1 else 0 := by
  unfold leapsThrough
  by_cases h : IsLeap y
  · rw [if_pos h]
    unfold IsLeap at h
    omega
  · rw [if_neg h]
    unfold IsLeap at h
    omega

/-- The days of a year before a month, in numbers. -/
theorem monthStart_eq (y : ℤ) {m : ℤ} (h1 : 1 ≤ m) (h12 : m ≤ 12) : monthStart y m =
    if m ≤ 2 then 31 * (m - 1)
    else (153 * (m - 3) + 2) / 5 + 59 + (if IsLeap y then 1 else 0) := by
  unfold monthStart
  by_cases hl : IsLeap y
  · interval_cases m <;> simp [List.range_succ, monthLength, hl]
  · interval_cases m <;> simp [List.range_succ, monthLength, hl]

theorem yearStart_le_number (D : Date) : yearStart D.year ≤ D.number := by
  have hday := D.isDate.one_le_day
  have hmonth := monthStart_eq D.year D.isDate.one_le_month D.isDate.month_le
  have h1 := D.isDate.one_le_month
  unfold Date.number dayNumber
  split at hmonth
  · omega
  · split at hmonth <;> omega

theorem number_lt_yearStart (D : Date) : D.number < yearStart (D.year + 1) := by
  have hday := D.isDate.day_le
  have hmonth := monthStart_eq D.year D.isDate.one_le_month D.isDate.month_le
  have h1 := D.isDate.one_le_month
  have h12 := D.isDate.month_le
  have hleap := leapsThrough_eq D.year
  unfold monthLength at hday
  unfold Date.number dayNumber yearStart
  rw [add_sub_cancel_right]
  by_cases hl : IsLeap D.year
  · simp only [hl, if_true] at hday hmonth hleap
    omega
  · simp only [hl, if_false] at hday hmonth hleap
    omega

theorem yearStart_mono {y y' : ℤ} (h : y ≤ y') : yearStart y ≤ yearStart y' := by
  unfold yearStart leapsThrough
  omega

/-- The days of a year come before those of the next one. -/
theorem Date.number_lt_of_year_lt (D D' : Date) (h : D.year < D'.year) : D.number < D'.number :=
  calc D.number < yearStart (D.year + 1) := number_lt_yearStart D
    _ ≤ yearStart D'.year := yearStart_mono h
    _ ≤ D'.number := yearStart_le_number D'

/-- A day's place in an era of 400 years that begin in March: its century, its four years within it, its
year within these and the day of that year.  Only a fourth year has a 366th day, and the last one of a
century has none, but for the last century. -/
theorem exists_marchYear {n : ℤ} (h0 : 0 ≤ n) (h : n < 146097) : ∃ c b a r : ℤ,
    (0 ≤ c ∧ c ≤ 3) ∧ (0 ≤ b ∧ b ≤ 24) ∧ (0 ≤ a ∧ a ≤ 3) ∧ (0 ≤ r ∧ r ≤ 365) ∧
      (r = 365 → a = 3 ∧ (b = 24 → c = 3)) ∧ n = 36524 * c + 1461 * b + 365 * a + r := by
  obtain ⟨c, x, hc, hx, hn⟩ : ∃ c x : ℤ, (0 ≤ c ∧ c ≤ 3) ∧
      (0 ≤ x ∧ (x < 36524 ∨ x = 36524 ∧ c = 3)) ∧ n = 36524 * c + x := by
    by_cases hlast : n / 36524 ≤ 3
    · exact ⟨n / 36524, n % 36524, by omega, by omega, by omega⟩
    · exact ⟨3, n - 36524 * 3, by omega, by omega, by omega⟩
  obtain ⟨b, y, hb, hy, hxy⟩ : ∃ b y : ℤ, (0 ≤ b ∧ b ≤ 24) ∧ (0 ≤ y ∧ y ≤ 1460) ∧ x = 1461 * b + y :=
    ⟨x / 1461, x % 1461, by omega, by omega, by omega⟩
  by_cases hlast : y / 365 ≤ 3
  · exact ⟨c, b, y / 365, y % 365, hc, hb, by omega, by omega, by omega, by omega⟩
  · exact ⟨c, b, 3, y - 365 * 3, hc, hb, by omega, by omega, by omega, by omega⟩

end Calendar
