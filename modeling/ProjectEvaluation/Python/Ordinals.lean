import ProjectEvaluation.Lib.Calendar
import ProjectEvaluation.Python.Dates

/-!
# Python dates among the dates of the calendar

`datetime.date` has the years 1 to 9999 of the proleptic Gregorian calendar.

Results:
* `Date.ofCalendar_eq_some`: which date of the calendar a date of Python is.
-/

namespace ProjectEvaluation.Python

open Calendar (CalendarDate leapDay)

theorem isLeap_iff (y : ℕ) : isLeap y = true ↔ Calendar.IsLeap y := by
  simp only [isLeap, Bool.and_eq_true, Bool.or_eq_true, beq_iff_eq, bne_iff_ne]
  omega

theorem leapDay_natCast (y : ℕ) : leapDay y = if isLeap y then 1 else 0 := by
  unfold leapDay
  by_cases h : isLeap y = true
  · rw [if_pos h, if_pos ((isLeap_iff y).mp h)]
  · rw [if_neg h, if_neg fun hleap => h ((isLeap_iff y).mpr hleap)]

/-- The days of a month are those before the next one that are not before it. -/
theorem daysBeforeMonth_succ (y : ℕ) {m : ℕ} (h1 : 1 ≤ m) (h12 : m ≤ 12) :
    Calendar.daysBeforeMonth (leapDay y) (m + 1) = Calendar.daysBeforeMonth (leapDay y) m +
      daysInMonth y m := by
  rw [leapDay_natCast]
  interval_cases m <;> simp only [Calendar.daysBeforeMonth, daysInMonth] <;> split_ifs <;> omega

/-- A date as a date of the calendar. -/
def Date.toCalendar (d : Date) : CalendarDate where
  year := d.year
  month := d.month
  day := d.day
  month_range := ⟨d.valid.2.2.1, d.valid.2.2.2.1⟩
  day_range := by
    obtain ⟨-, -, hm1, hm12, hd1, hd⟩ := d.valid
    rw [daysBeforeMonth_succ d.year hm1 hm12]
    exact ⟨hd1, by omega⟩

/-- The date of Python for a date of the calendar; `none` where its year is out of range. -/
def Date.ofCalendar (c : CalendarDate) : Option Date :=
  if 0 ≤ c.year then Date.mk? c.year.toNat c.month c.day else none

theorem Date.ofCalendar_toCalendar (d : Date) : Date.ofCalendar d.toCalendar = some d := by
  have hyear : 0 ≤ d.toCalendar.year := Int.natCast_nonneg d.year
  rw [Date.ofCalendar, if_pos hyear]
  exact d.mk?_eq

theorem Date.mk?_eq_some {y m n : ℕ} {d : Date} (h : Date.mk? y m n = some d) :
    d.year = y ∧ d.month = m ∧ d.day = n := by
  unfold Date.mk? at h
  split_ifs at h
  cases h
  exact ⟨rfl, rfl, rfl⟩

theorem Date.ofCalendar_eq_some {c : CalendarDate} {d : Date} :
    Date.ofCalendar c = some d ↔ d.toCalendar = c := by
  constructor
  · intro h
    unfold Date.ofCalendar at h
    split_ifs at h with hyear
    obtain ⟨hy, hm, hd⟩ := Date.mk?_eq_some h
    apply CalendarDate.ext
    · change (d.year : ℤ) = c.year
      omega
    · exact hm
    · exact hd
  · rintro rfl
    exact d.ofCalendar_toCalendar

/-- The dates of the years from 1 to 9999 are dates of Python. -/
theorem Date.ofCalendar_isSome {c : CalendarDate} : (Date.ofCalendar c).isSome = true ↔
    1 ≤ c.year ∧ c.year ≤ 9999 := by
  constructor
  · intro h
    obtain ⟨d, hd⟩ := Option.isSome_iff_exists.mp h
    obtain ⟨hlo, hhi, -⟩ := d.valid
    have hyear : (d.year : ℤ) = c.year := congrArg CalendarDate.year (Date.ofCalendar_eq_some.mp hd)
    omega
  · rintro ⟨hlo, hhi⟩
    obtain ⟨hm1, hm12⟩ := c.month_range
    obtain ⟨hd1, hd⟩ := c.day_range
    have hyear : ((c.year.toNat : ℕ) : ℤ) = c.year := by omega
    have hlength := daysBeforeMonth_succ c.year.toNat hm1 hm12
    rw [hyear] at hlength
    have hvalid : IsDate c.year.toNat c.month c.day :=
      ⟨by omega, by omega, hm1, hm12, hd1, by omega⟩
    rw [Date.ofCalendar, if_pos (by omega), Date.mk?, dif_pos hvalid]
    rfl

end ProjectEvaluation.Python
