import Mathlib.Data.Int.Notation
import Mathlib.Tactic.SplitIfs
import Mathlib.Tactic.IntervalCases
import Mathlib.Data.Nat.Find
import Mathlib.Logic.Equiv.Defs

/-!
# The proleptic Gregorian calendar

The days are numbered by the integers, day 1 being January 1 of the year 1, and the calendar
has a year for every integer.

Results:
* `daysBeforeYear_succ`: a year has 365 days or 366.
* `yearOf_bounds`, `yearOf_eq`: the year of a day is the one whose days it is among.
* `dateEquiv`: days and calendar dates correspond to each other.
-/

namespace ProjectEvaluation.Calendar

/-! ## Years -/

/-- The leap years. -/
abbrev IsLeap (y : ℤ) : Prop := y % 4 = 0 ∧ (y % 100 ≠ 0 ∨ y % 400 = 0)

/-- The day before January 1 of a year. -/
def daysBeforeYear (y : ℤ) : ℤ := (y - 1) * 365 + (y - 1) / 4 - (y - 1) / 100 + (y - 1) / 400

/-- One day more in leap years. -/
def leapDay (y : ℤ) : ℕ := if IsLeap y then 1 else 0

theorem leapDay_le (y : ℤ) : leapDay y ≤ 1 := by
  unfold leapDay
  split_ifs <;> omega

/-- **The length of a year.** -/
theorem daysBeforeYear_succ (y : ℤ) :
    daysBeforeYear (y + 1) = daysBeforeYear y + 365 + leapDay y := by
  unfold daysBeforeYear leapDay
  split_ifs with h
  · push_cast; omega
  · push_cast; omega

theorem daysBeforeYear_mono {y z : ℤ} (h : y ≤ z) : daysBeforeYear y ≤ daysBeforeYear z := by
  unfold daysBeforeYear
  omega

/-- The year of a day. A day has `d` days before it since the year 1; these are periods of 400
    years, centuries, periods of four years and years, of which the last may be one day longer
    than the others. -/
def yearOf (n : ℤ) : ℤ :=
  let d := n - 1
  let centuries := min (d % 146097 / 36524) 3
  let rest := d % 146097 - centuries * 36524
  let years := min (rest % 1461 / 365) 3
  400 * (d / 146097) + 100 * centuries + 4 * (rest / 1461) + years + 1

/-- The days before a year, by its periods. -/
theorem daysBeforeYear_periods {a b c d : ℤ} (hb : 0 ≤ b ∧ b ≤ 3) (hc : 0 ≤ c ∧ c ≤ 24)
    (hd : 0 ≤ d ∧ d ≤ 3) :
    daysBeforeYear (400 * a + 100 * b + 4 * c + d + 1) = 146097 * a + 36524 * b + 1461 * c +
      365 * d := by
  unfold daysBeforeYear
  omega

/-- **The year of a day** is the one whose days it is among. -/
theorem yearOf_bounds (n : ℤ) : daysBeforeYear (yearOf n) < n ∧ n ≤ daysBeforeYear
    (yearOf n + 1) := by
  unfold yearOf
  simp only
  generalize hb : min ((n - 1) % 146097 / 36524) 3 = b
  generalize hrest : (n - 1) % 146097 - b * 36524 = rest
  generalize hd : min (rest % 1461 / 365) 3 = d
  have hbrange : 0 ≤ b ∧ b ≤ 3 := by omega
  have hcrange : 0 ≤ rest / 1461 ∧ rest / 1461 ≤ 24 := by omega
  have hdrange : 0 ≤ d ∧ d ≤ 3 := by omega
  refine ⟨?_, ?_⟩
  · rw [daysBeforeYear_periods hbrange hcrange hdrange]
    omega
  · -- the next year begins a longer period where this one is the last of its own
    rcases lt_or_ge d 3 with h3 | h3
    · rw [add_assoc _ d 1, add_assoc _ (d + 1) 1, ← add_assoc _ (d + 1) 1,
        daysBeforeYear_periods hbrange hcrange (by omega)]
      omega
    · obtain rfl : d = 3 := by omega
      rcases lt_or_ge (rest / 1461) 24 with h24 | h24
      · rw [show 400 * ((n - 1) / 146097) + 100 * b + 4 * (rest / 1461) + 3 + 1 + 1 =
            400 * ((n - 1) / 146097) + 100 * b + 4 * (rest / 1461 + 1) + 0 + 1 by omega,
          daysBeforeYear_periods hbrange (by omega) (by omega)]
        omega
      · rcases lt_or_ge b 3 with hb3 | hb3
        · rw [show 400 * ((n - 1) / 146097) + 100 * b + 4 * (rest / 1461) + 3 + 1 + 1 =
              400 * ((n - 1) / 146097) + 100 * (b + 1) + 4 * 0 + 0 + 1 by omega,
            daysBeforeYear_periods (by omega) (by omega) (by omega)]
          omega
        · rw [show 400 * ((n - 1) / 146097) + 100 * b + 4 * (rest / 1461) + 3 + 1 + 1 =
              400 * ((n - 1) / 146097 + 1) + 100 * 0 + 4 * 0 + 0 + 1 by omega,
            daysBeforeYear_periods (by omega) (by omega) (by omega)]
          omega

theorem yearOf_eq {n y : ℤ} (hlo : daysBeforeYear y < n) (hhi : n ≤ daysBeforeYear (y + 1)) :
    yearOf n = y := by
  obtain ⟨hlo', hhi'⟩ := yearOf_bounds n
  rcases lt_trichotomy (yearOf n) y with h | h | h
  · have := daysBeforeYear_mono (show yearOf n + 1 ≤ y by omega)
    omega
  · exact h
  · have := daysBeforeYear_mono (show y + 1 ≤ yearOf n by omega)
    omega

/-! ## Months -/

/-- The days of a year before a month. -/
def daysBeforeMonth (leap : ℕ) : ℕ → ℕ
  | 1 => 0
  | 2 => 31
  | 3 => 59 + leap
  | 4 => 90 + leap
  | 5 => 120 + leap
  | 6 => 151 + leap
  | 7 => 181 + leap
  | 8 => 212 + leap
  | 9 => 243 + leap
  | 10 => 273 + leap
  | 11 => 304 + leap
  | 12 => 334 + leap
  | _ => 365 + leap

theorem daysBeforeMonth_lt_succ {leap m : ℕ} (h1 : 1 ≤ m) (h12 : m ≤ 12) :
    daysBeforeMonth leap m < daysBeforeMonth leap (m + 1) := by
  interval_cases m <;> simp only [daysBeforeMonth] <;> omega

theorem daysBeforeMonth_mono {leap m n : ℕ} (h1 : 1 ≤ m) (hmn : m ≤ n) (h13 : n ≤ 13) :
    daysBeforeMonth leap m ≤ daysBeforeMonth leap n := by
  induction n, hmn using Nat.le_induction with
  | base => exact le_rfl
  | succ n hmn ih => exact (ih (by omega)).trans (daysBeforeMonth_lt_succ (by omega) (by omega)).le

theorem daysBeforeMonth_le {leap m : ℕ} (h1 : 1 ≤ m) (h13 : m ≤ 13) :
    daysBeforeMonth leap m ≤ 365 + leap :=
  daysBeforeMonth_mono h1 h13 le_rfl

/-- The month of a day of a year, the first of which has the number 0. -/
def monthOf (leap k : ℕ) : ℕ := Nat.findGreatest (fun m => daysBeforeMonth leap m ≤ k) 12

theorem monthOf_bounds {leap k : ℕ} (h : k < 365 + leap) :
    1 ≤ monthOf leap k ∧ monthOf leap k ≤ 12 ∧ daysBeforeMonth leap (monthOf leap k) ≤ k ∧
      k < daysBeforeMonth leap (monthOf leap k + 1) := by
  have hjanuary : daysBeforeMonth leap 1 ≤ k := Nat.zero_le k
  have hle : monthOf leap k ≤ 12 := Nat.findGreatest_le 12
  refine ⟨Nat.le_findGreatest (by omega) hjanuary, hle,
    Nat.findGreatest_spec (P := fun m => daysBeforeMonth leap m ≤ k) (by omega) hjanuary, ?_⟩
  rcases Nat.lt_or_ge (monthOf leap k) 12 with hlt | hge
  · exact Nat.not_le.mp (Nat.findGreatest_is_greatest (P := fun m => daysBeforeMonth leap m ≤ k)
      (Nat.lt_succ_self _) hlt)
  · have hdecember : monthOf leap k = 12 := by omega
    rw [hdecember]
    exact h

theorem monthOf_eq {leap k m : ℕ} (h1 : 1 ≤ m) (h12 : m ≤ 12) (hlo : daysBeforeMonth leap m ≤ k)
    (hhi : k < daysBeforeMonth leap (m + 1)) : monthOf leap k = m := by
  refine Nat.findGreatest_eq_iff.mpr ⟨h12, fun _ => hlo, fun n hmn hn => ?_⟩
  have hmono : daysBeforeMonth leap (m + 1) ≤ daysBeforeMonth leap n :=
    daysBeforeMonth_mono (by omega) hmn (by omega)
  omega

/-! ## Dates -/

/-- A date of the calendar. -/
@[ext] structure CalendarDate where
  year : ℤ
  month : ℕ
  day : ℕ
  month_range : 1 ≤ month ∧ month ≤ 12
  day_range : 1 ≤ day ∧
    daysBeforeMonth (leapDay year) month + day ≤ daysBeforeMonth (leapDay year) (month + 1)
  deriving DecidableEq

/-- The number of the day of a date. -/
def CalendarDate.toDay (c : CalendarDate) : ℤ :=
  daysBeforeYear c.year + daysBeforeMonth (leapDay c.year) c.month + c.day

/-- The days of a year before a day. -/
def dayOfYear (n : ℤ) : ℕ := (n - 1 - daysBeforeYear (yearOf n)).toNat

theorem dayOfYear_cast (n : ℤ) : (dayOfYear n : ℤ) = n - 1 - daysBeforeYear (yearOf n) := by
  have := (yearOf_bounds n).1
  unfold dayOfYear
  omega

theorem dayOfYear_lt (n : ℤ) : dayOfYear n < 365 + leapDay (yearOf n) := by
  have hbounds := yearOf_bounds n
  have hcast := dayOfYear_cast n
  rw [daysBeforeYear_succ] at hbounds
  omega

/-- The date of a day. -/
def dateOf (n : ℤ) : CalendarDate where
  year := yearOf n
  month := monthOf (leapDay (yearOf n)) (dayOfYear n)
  day := dayOfYear n - daysBeforeMonth (leapDay (yearOf n))
    (monthOf (leapDay (yearOf n)) (dayOfYear n)) + 1
  month_range :=
    have h := monthOf_bounds (dayOfYear_lt n)
    ⟨h.1, h.2.1⟩
  day_range := by
    have h := monthOf_bounds (dayOfYear_lt n)
    omega

theorem toDay_dateOf (n : ℤ) : (dateOf n).toDay = n := by
  have h := monthOf_bounds (dayOfYear_lt n)
  have hcast := dayOfYear_cast n
  unfold CalendarDate.toDay dateOf
  push_cast
  omega

theorem dateOf_toDay (c : CalendarDate) : dateOf c.toDay = c := by
  obtain ⟨hm1, hm12⟩ := c.month_range
  obtain ⟨hd1, hd⟩ := c.day_range
  have hlast : daysBeforeMonth (leapDay c.year) (c.month + 1) ≤ 365 + leapDay c.year :=
    daysBeforeMonth_le (by omega) (by omega)
  have hyear : yearOf c.toDay = c.year := by
    refine yearOf_eq ?_ ?_
    · unfold CalendarDate.toDay
      omega
    · rw [daysBeforeYear_succ]
      unfold CalendarDate.toDay
      omega
  have hday : dayOfYear c.toDay = daysBeforeMonth (leapDay c.year) c.month + (c.day - 1) := by
    have hcast := dayOfYear_cast c.toDay
    rw [hyear] at hcast
    unfold CalendarDate.toDay at hcast ⊢
    omega
  have hmonth : monthOf (leapDay c.year) (dayOfYear c.toDay) = c.month :=
    monthOf_eq hm1 hm12 (by omega) (by omega)
  ext
  · exact hyear
  · simp only [dateOf, hyear, hmonth]
  · simp only [dateOf, hyear, hmonth]
    omega

/-- **Days and dates.** -/
def dateEquiv : ℤ ≃ CalendarDate where
  toFun := dateOf
  invFun := CalendarDate.toDay
  left_inv := toDay_dateOf
  right_inv := dateOf_toDay

theorem dateOf_injective : Function.Injective dateOf := dateEquiv.injective

end ProjectEvaluation.Calendar
