import ProjectEvaluation.Lib.Marks
import ProjectEvaluation.Pages.ResearchForm

/-!
# The planned completion time of a task

Results:
* `default_completion_workday`: the loop ends on the tenth workday after the day it starts on.
-/

namespace ProjectEvaluation.Pages.ResearchForm

open JavaScript Marks

/-- Day 1 is a Monday: the days from Monday to Friday. -/
def Workday (day : ℤ) : Prop := day % 7 ≠ 0 ∧ day % 7 ≠ 6

instance : DecidablePred Workday :=
  fun day => inferInstanceAs (Decidable (day % 7 ≠ 0 ∧ day % 7 ≠ 6))

/-- The day after a moment, at the same time. -/
def nextDate (offset date : ℤ) : ℤ := setDate offset date (getDate offset date + 1)

theorem localDay_nextDate (offset date : ℤ) :
    localDay offset (nextDate offset date) = localDay offset date + 1 :=
  localDay_setDate_next offset date

/-- The loop is a walk to the tenth workday. -/
theorem addWorkdays_eq (offset : ℤ) (fuel workdaysAdded : ℕ) (date : ℤ) :
    addWorkdays offset fuel workdaysAdded date =
      untilMarks (nextDate offset) (localDay offset) Workday 10 fuel workdaysAdded date := by
  induction fuel generalizing workdaysAdded date with
  | zero => rfl
  | succ fuel ih =>
    rw [addWorkdays, untilMarks]
    by_cases hmore : workdaysAdded < 10
    · rw [if_pos hmore, if_pos hmore]
      by_cases hday : Workday (localDay offset (nextDate offset date))
      · rw [if_pos hday]
        exact (if_pos hday).trans (ih _ _)
      · rw [if_neg hday]
        exact (if_neg hday).trans (ih _ _)
    · rw [if_neg hmore, if_neg hmore]

/-- A week has five workdays. -/
theorem workdays_week (day : ℤ) : marksIn Workday day (day + 7) = 5 := by
  have hperiodic : ∀ day : ℤ, Workday (day + 7) ↔ Workday day := by
    intro day
    unfold Workday
    omega
  rw [marksIn_period Workday (by norm_num) hperiodic day]
  decide

/-- There are ten workdays in two weeks. -/
theorem workdays_fortnight (day : ℤ) : marksIn Workday day (day + 14) = 10 := by
  have hsplit : day + 14 = day + 7 + 7 := by omega
  rw [hsplit, marksIn_add Workday (b := day + 7) (by omega) (by omega), workdays_week,
    workdays_week]

/-- **The default of the planned completion time.** The loop ends, after fourteen rounds at most; it
    ends on a day from Monday to Friday, and this day is the tenth of these after the day it starts
    on. -/
theorem default_completion_workday (offset now : ℤ) :
    ∃ date, (∀ fuel, 14 ≤ fuel → calculateDefaultCompletionTime offset fuel now = some date) ∧
      Workday (localDay offset date) ∧
        marksIn Workday (localDay offset now) (localDay offset date) = 10 := by
  have henough : 10 ≤ 0 + marksIn Workday (localDay offset now)
      (localDay offset now + (14 : ℕ)) := by
    rw [Nat.cast_ofNat, workdays_fortnight]
  obtain ⟨date, hends⟩ := untilMarks_ends (localDay_nextDate offset) henough
  obtain ⟨-, hworkday, hten⟩ := untilMarks_spec (localDay_nextDate offset) (by norm_num) (hends 0)
  refine ⟨date, fun fuel hfuel => ?_, hworkday, by omega⟩
  obtain ⟨more, rfl⟩ := Nat.exists_eq_add_of_le hfuel
  rw [calculateDefaultCompletionTime, addWorkdays_eq]
  exact hends more

end ProjectEvaluation.Pages.ResearchForm
