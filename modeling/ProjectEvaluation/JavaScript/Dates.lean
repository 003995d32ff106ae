import ProjectEvaluation.JavaScript.Text
import ProjectEvaluation.Python.Ordinals

/-!
# Dates in JavaScript

A `Date` is a time value: the milliseconds since the epoch. A local time is the time in UTC
moved by an offset, given in milliseconds. The offset is the same for all time values: a page
is open for a while only.

Results:
* `strptimeDate_split`, `fromisoformat_toISOString`: both parsers of `routes.py` read the UTC
  date off `toISOString`.
* `strptimeTime_substring`: `%H:%M` reads the local hour and minute off `toTimeString`.
* `parseUTCString_httpDate`: an HTTP date is read as midnight UTC of its day.
* `localDay_setDate_next`: `setDate` with the next day of the month leads to the next day.
-/

namespace ProjectEvaluation.JavaScript

open Calendar (CalendarDate dateOf leapDay)
open Python (Date Time pad2 pad4 twoDigits asciiNumber asciiDigit monthName weekdayName httpDate)

/-! ## Time values -/

/-- The milliseconds of a day. -/
def msPerDay : ℤ := 86400000

/-- The number of the day of the epoch, January 1, 1970. -/
def epochDay : ℤ := 719163

/-- The day of a time value in UTC. -/
def utcDay (t : ℤ) : ℤ := t / msPerDay + epochDay

/-- The day of a time value in local time. -/
def localDay (offset t : ℤ) : ℤ := utcDay (t + offset)

/-- The milliseconds of a time value since midnight UTC. -/
def timeWithinDay (t : ℤ) : ℕ := (t % msPerDay).toNat

theorem timeWithinDay_cast (t : ℤ) : (timeWithinDay t : ℤ) = t % msPerDay := by
  unfold timeWithinDay msPerDay
  omega

theorem timeWithinDay_lt (t : ℤ) : timeWithinDay t < 86400000 := by
  unfold timeWithinDay msPerDay
  omega

/-- `getUTCHours()`. -/
def utcHours (t : ℤ) : ℕ := timeWithinDay t / 3600000

/-- `getUTCMinutes()`. -/
def utcMinutes (t : ℤ) : ℕ := timeWithinDay t / 60000 % 60

/-- `getUTCSeconds()`. -/
def utcSeconds (t : ℤ) : ℕ := timeWithinDay t / 1000 % 60

/-- `getUTCMilliseconds()`. -/
def utcMilliseconds (t : ℤ) : ℕ := timeWithinDay t % 1000

theorem utcHours_lt (t : ℤ) : utcHours t < 24 := by
  have := timeWithinDay_lt t
  unfold utcHours
  omega

theorem utcMinutes_lt (t : ℤ) : utcMinutes t < 60 := Nat.mod_lt _ (by norm_num)

theorem utcSeconds_lt (t : ℤ) : utcSeconds t < 60 := Nat.mod_lt _ (by norm_num)

/-- **The local date is the UTC date** while the time of the day in UTC and the offset stay
    within the day. -/
theorem localDay_eq_utcDay {offset t : ℤ} :
    localDay offset t = utcDay t ↔
      0 ≤ t % msPerDay + offset ∧ t % msPerDay + offset < msPerDay := by
  unfold localDay utcDay msPerDay
  omega

/-! ## Renderings -/

/-- A year in a date and time: four digits, or a sign and six. -/
def isoYear (y : ℤ) : List Char :=
  if 0 ≤ y ∧ y ≤ 9999 then pad4 y.toNat
  else (if y < 0 then '-' else '+') :: (pad2 (y.natAbs / 10000) ++ pad4 (y.natAbs % 10000))

/-- The date part of `toISOString()`. -/
def isoDate (c : CalendarDate) : List Char :=
  isoYear c.year ++ '-' :: pad2 c.month ++ '-' :: pad2 c.day

/-- The time part of `toISOString()`, without the zone. -/
def isoTime (t : ℤ) : List Char :=
  pad2 (utcHours t) ++ ':' :: pad2 (utcMinutes t) ++ ':' :: pad2 (utcSeconds t) ++
    '.' :: Nat.digitChar (utcMilliseconds t / 100) :: pad2 (utcMilliseconds t % 100)

/-- `t.toISOString()`. -/
def toISOString (t : ℤ) : String :=
  String.ofList (isoDate (dateOf (utcDay t)) ++ 'T' :: isoTime t ++ ['Z'])

/-- `t.toTimeString()`; the name of the zone in parentheses at its end is left out. -/
def toTimeString (offset t : ℤ) : String :=
  String.ofList (pad2 (utcHours (t + offset)) ++ ':' :: pad2 (utcMinutes (t + offset)) ++
    ':' :: pad2 (utcSeconds (t + offset)) ++
      [' ', 'G', 'M', 'T', if offset < 0 then '-' else '+'] ++
    pad2 (offset.natAbs / 3600000) ++ pad2 (offset.natAbs / 60000 % 60))

example : toISOString 1704413696789 = "2024-01-05T00:14:56.789Z" := by decide +kernel

example : toTimeString 28800000 1704413696789 = "08:14:56 GMT+0800" := by decide +kernel

/-! ## Digits -/

theorem asciiDigit_digitChar {d : ℕ} (h : d < 10) : asciiDigit (Nat.digitChar d) = some d := by
  interval_cases d <;> decide

/-- A character that is no digit is not the character of one. -/
theorem digitChar_ne {d : ℕ} (h : d < 10) {c : Char} (hc : asciiDigit c = none) :
    Nat.digitChar d ≠ c := by
  rintro rfl
  rw [asciiDigit_digitChar h] at hc
  cases hc

theorem asciiNumber_pad2 {n : ℕ} (h : n < 100) : asciiNumber (pad2 n) = some n := by
  have hhi : n / 10 < 10 := by omega
  have hlo : n % 10 < 10 := by omega
  simp only [asciiNumber, pad2, reduceCtorEq, if_false, List.foldlM_cons, List.foldlM_nil,
    asciiDigit_digitChar hhi, asciiDigit_digitChar hlo, Option.map_some, Option.bind_eq_bind,
    Option.bind_some, Option.pure_def, Option.some.injEq]
  omega

theorem twoDigits_pad2 {n : ℕ} (h : n < 100) : twoDigits (pad2 n) = some n := by
  rw [twoDigits, if_pos (show (pad2 n).length = 2 from rfl), asciiNumber_pad2 h]

theorem asciiNumber_pad4 {n : ℕ} (h : n < 10000) : asciiNumber (pad4 n) = some n := by
  have h1 : n / 100 / 10 < 10 := by omega
  have h2 : n / 100 % 10 < 10 := by omega
  have h3 : n % 100 / 10 < 10 := by omega
  have h4 : n % 100 % 10 < 10 := by omega
  simp only [asciiNumber, Python.pad4_eq, reduceCtorEq, if_false, List.foldlM_cons, List.foldlM_nil,
    asciiDigit_digitChar h1, asciiDigit_digitChar h2, asciiDigit_digitChar h3,
    asciiDigit_digitChar h4, Option.map_some, Option.bind_eq_bind, Option.bind_some,
    Option.pure_def, Option.some.injEq]
  omega

/-- The characters of a number with two digits. -/
theorem not_mem_pad2 {n : ℕ} (h : n < 100) {c : Char} (hc : asciiDigit c = none) : c ∉ pad2 n := by
  simp only [pad2, List.mem_cons, List.not_mem_nil, or_false, not_or]
  exact ⟨(digitChar_ne (by omega) hc).symm, (digitChar_ne (by omega) hc).symm⟩

theorem not_mem_pad4 {n : ℕ} (h : n < 10000) {c : Char} (hc : asciiDigit c = none) :
    c ∉ pad4 n := by
  rw [pad4, List.mem_append, not_or]
  exact ⟨not_mem_pad2 (by omega) hc, not_mem_pad2 (by omega) hc⟩

/-! ## The date part -/

theorem day_le (c : CalendarDate) : c.day ≤ 31 := by
  obtain ⟨hm1, hm12⟩ := c.month_range
  obtain ⟨-, hd⟩ := c.day_range
  have hleap := Calendar.leapDay_le c.year
  generalize c.month = m at hm1 hm12 hd
  interval_cases m <;> simp only [Calendar.daysBeforeMonth] at hd <;> omega

/-- A character that is neither a digit nor a sign is not in the date part, if the year has six
    digits at most. -/
theorem not_mem_isoDate {c : CalendarDate} (hyear : c.year.natAbs < 1000000) {x : Char}
    (hx : asciiDigit x = none)
    (hminus : x ≠ '-') (hplus : x ≠ '+') : x ∉ isoDate c := by
  have hmonth := c.month_range
  have hday := day_le c
  have hy : x ∉ isoYear c.year := by
    unfold isoYear
    split_ifs with h4
    · exact not_mem_pad4 (by omega) hx
    · rw [List.mem_cons, List.mem_append, not_or, not_or]
      exact ⟨by assumption, not_mem_pad2 (by omega) hx, not_mem_pad4 (by omega) hx⟩
    · rw [List.mem_cons, List.mem_append, not_or, not_or]
      exact ⟨by assumption, not_mem_pad2 (by omega) hx, not_mem_pad4 (by omega) hx⟩
  simp only [isoDate, List.mem_append, List.mem_cons, not_or]
  exact ⟨⟨hy, hminus, not_mem_pad2 (by omega) hx⟩, hminus, not_mem_pad2 (by omega) hx⟩

/-- A time value of a valid `Date`. -/
structure TimeValue where
  ms : ℤ
  valid : -8640000000000000 ≤ ms ∧ ms ≤ 8640000000000000
  deriving DecidableEq

/-- A valid `Date` has a year of six digits at most. -/
theorem TimeValue.year_lt (t : TimeValue) : (dateOf (utcDay t.ms)).year.natAbs < 1000000 := by
  obtain ⟨hlo, hhi⟩ := Calendar.yearOf_bounds (utcDay t.ms)
  obtain ⟨hmin, hmax⟩ := t.valid
  change (Calendar.yearOf (utcDay t.ms)).natAbs < 1000000
  unfold Calendar.daysBeforeYear at hlo hhi
  have hday : -99280837 ≤ utcDay t.ms ∧ utcDay t.ms ≤ 100719163 := by
    unfold utcDay msPerDay epochDay
    omega
  omega

/-- `t.toISOString().split('T')[0]` is the date part. -/
theorem split_toISOString (t : TimeValue) :
    (split 'T' (toISOString t.ms)).headD "" = String.ofList (isoDate (dateOf (utcDay t.ms))) := by
  rw [toISOString, List.append_assoc, List.cons_append]
  exact split_head (not_mem_isoDate t.year_lt (by decide) (by decide) (by decide)) _

/-- A year out of range is written with a sign. -/
theorem isoYear_signed {c : CalendarDate} (h : ¬ (0 ≤ c.year ∧ c.year ≤ 9999)) :
    ∃ x cs, isoYear c.year = x :: cs ∧ asciiDigit x = none ∧ Python.digitValue x = none ∧
      x ≠ 'Z' := by
  unfold isoYear
  rw [if_neg h]
  split_ifs
  · exact ⟨_, _, rfl, by decide, by decide, by decide⟩
  · exact ⟨_, _, rfl, by decide, by decide, by decide⟩

theorem ofCalendar_out_of_range {c : CalendarDate} (h : ¬ (0 ≤ c.year ∧ c.year ≤ 9999)) :
    Date.ofCalendar c = none := by
  rw [← Option.not_isSome_iff_eq_none, Date.ofCalendar_isSome]
  omega

/-- **`strptime` reads the date part**, where its year is one of Python. -/
theorem strptimeDate_isoDate (c : CalendarDate) :
    Python.strptimeDate (String.ofList (isoDate c)) = Date.ofCalendar c := by
  unfold Python.strptimeDate
  rw [String.toList_ofList, isoDate, List.append_assoc]
  by_cases hyear : 0 ≤ c.year ∧ c.year ≤ 9999
  · obtain ⟨hm1, hm12⟩ := c.month_range
    rw [isoYear, if_pos hyear, List.cons_append, Python.yearField_pad4 (by omega), Option.bind_some]
    simp only
    rw [Python.monthField_pad2 hm1 hm12, Option.bind_some]
    simp only
    rw [Python.dayField_pad2 c.day_range.1 (day_le c), Option.bind_some, Date.ofCalendar,
      if_pos hyear.1]
  · obtain ⟨x, cs, hcs, -, hx, -⟩ := isoYear_signed hyear
    have hnone : ∀ rest, Python.yearField (isoYear c.year ++ rest) = none := by
      intro rest
      rw [hcs, List.cons_append]
      unfold Python.yearField
      split
      · rename_i heq
        rw [← (List.cons.inj heq).1]
        simp [hx]
      · rfl
    rw [List.cons_append, hnone, ofCalendar_out_of_range hyear]
    rfl

/-- **`strptime` reads the UTC date off a date and time.** -/
theorem strptimeDate_split (t : TimeValue) :
    Python.strptimeDate ((split 'T' (toISOString t.ms)).headD "") =
      Date.ofCalendar (dateOf (utcDay t.ms)) := by
  rw [split_toISOString, strptimeDate_isoDate]

/-- So does `split('T')[0]` of Python. -/
theorem strptimeDate_beforeFirst (t : TimeValue) :
    Python.strptimeDate (Python.beforeFirst 'T' (toISOString t.ms)) =
      Date.ofCalendar (dateOf (utcDay t.ms)) := by
  have hdate : Python.beforeFirst 'T' (toISOString t.ms) =
      String.ofList (isoDate (dateOf (utcDay t.ms))) := by
    have hall : ∀ c ∈ isoDate (dateOf (utcDay t.ms)), decide (c ≠ 'T') = true := by
      intro c hc
      refine decide_eq_true ?_
      rintro rfl
      exact not_mem_isoDate t.year_lt (by decide) (by decide) (by decide) hc
    rw [Python.beforeFirst, toISOString, String.toList_ofList, List.append_assoc,
      List.takeWhile_append_of_pos hall]
    exact congrArg String.ofList (List.append_nil _)
  rw [hdate, strptimeDate_isoDate]

/-! ## `fromisoformat` -/

theorem replaceZulu_append {cs : List Char} (h : 'Z' ∉ cs) :
    Python.replaceZulu (String.ofList (cs ++ ['Z'])) = String.ofList (cs ++ "+00:00".toList) := by
  unfold Python.replaceZulu
  rw [String.toList_ofList (l := cs ++ ['Z']), List.flatMap_append, Python.replaceZulu_kept h]
  rfl

theorem not_mem_isoTime {t : ℤ} {x : Char} (hx : asciiDigit x = none) (hcolon : x ≠ ':')
    (hdot : x ≠ '.') :
    x ∉ isoTime t := by
  have hh := utcHours_lt t
  have hm := utcMinutes_lt t
  have hs := utcSeconds_lt t
  have hms : utcMilliseconds t < 1000 := Nat.mod_lt _ (by norm_num)
  simp only [isoTime, List.mem_append, List.mem_cons, not_or]
  exact ⟨⟨⟨not_mem_pad2 (by omega) hx, hcolon, not_mem_pad2 (by omega) hx⟩, hcolon,
    not_mem_pad2 (by omega) hx⟩, hdot, (digitChar_ne (by omega) hx).symm,
      not_mem_pad2 (by omega) hx⟩

/-- The time part is a time for `fromisoformat`. -/
theorem isoClockOk_isoTime (t : ℤ) : Python.isoClockOk (isoTime t) = true := by
  have hh := utcHours_lt t
  have hm := utcMinutes_lt t
  have hs := utcSeconds_lt t
  have hms : utcMilliseconds t < 1000 := Nat.mod_lt _ (by norm_num)
  have hclock : Python.isoClock (isoTime t) = some [utcHours t, utcMinutes t, utcSeconds t] := by
    have h1 : twoDigits ((isoTime t).take 2) = some (utcHours t) := twoDigits_pad2 (by omega)
    have h2 : twoDigits (((isoTime t).drop 3).take 2) = some (utcMinutes t) :=
      twoDigits_pad2 (by omega)
    have h3 : twoDigits (((isoTime t).drop 6).take 2) = some (utcSeconds t) :=
      twoDigits_pad2 (by omega)
    have hfraction : Python.isoFraction ((isoTime t).drop 8) = some [] := by
      have hdigits : ∀ d ∈ Nat.digitChar (utcMilliseconds t / 100) ::
          pad2 (utcMilliseconds t % 100), (asciiDigit d).isSome = true := by
        intro d hd
        simp only [pad2, List.mem_cons, List.not_mem_nil, or_false] at hd
        rcases hd with rfl | rfl | rfl
        · rw [asciiDigit_digitChar (by omega)]; rfl
        · rw [asciiDigit_digitChar (by omega)]; rfl
        · rw [asciiDigit_digitChar (by omega)]; rfl
      exact if_pos ⟨Or.inl rfl, List.cons_ne_nil _ _, List.all_eq_true.mpr hdigits⟩
    unfold Python.isoClock
    rw [h1, Option.bind_some]
    change ((twoDigits (((isoTime t).drop 3).take 2)).bind fun m => _) = _
    rw [h2, Option.bind_some]
    change ((twoDigits (((isoTime t).drop 6).take 2)).bind fun s =>
      (Python.isoFraction ((isoTime t).drop 8)).map _) = _
    rw [h3, Option.bind_some, hfraction]
    rfl
  rw [Python.isoClockOk, hclock]
  simp [hh, hm, hs]

theorem isoTimeOk_isoTime (t : ℤ) : Python.isoTimeOk (isoTime t ++ "+00:00".toList) = true := by
  have hclock : (isoTime t ++ "+00:00".toList).takeWhile (fun c => c ≠ '+' ∧ c ≠ '-' ∧ c ≠ 'Z') =
      isoTime t := by
    have hall : ∀ c ∈ isoTime t, decide (c ≠ '+' ∧ c ≠ '-' ∧ c ≠ 'Z') = true := by
      intro c hc
      have hne : ∀ x, asciiDigit x = none → x ≠ ':' → x ≠ '.' → c ≠ x := by
        rintro x hx hcolon hdot rfl
        exact not_mem_isoTime hx hcolon hdot hc
      exact decide_eq_true ⟨hne _ (by decide) (by decide) (by decide),
        hne _ (by decide) (by decide) (by decide), hne _ (by decide) (by decide) (by decide)⟩
    rw [List.takeWhile_append_of_pos hall]
    exact List.append_nil _
  unfold Python.isoTimeOk
  simp only
  rw [hclock, List.drop_left, isoClockOk_isoTime]
  decide

/-- The date part of a year with four digits. -/
theorem isoDatePart_isoDate {c : CalendarDate} (hyear : 0 ≤ c.year ∧ c.year ≤ 9999) :
    Python.isoDatePart (isoDate c) = Date.ofCalendar c := by
  have hm := c.month_range
  have hd := day_le c
  have h1 : asciiNumber ((isoDate c).take 4) = some c.year.toNat := by
    rw [isoDate, isoYear, if_pos hyear]
    exact asciiNumber_pad4 (by omega)
  have h2 : (isoDate c).drop 4 = '-' :: pad2 c.month ++ '-' :: pad2 c.day := by
    rw [isoDate, isoYear, if_pos hyear]
    rfl
  have h3 : (isoDate c)[4]? = some '-' := by
    rw [isoDate, isoYear, if_pos hyear]
    rfl
  have h5 : (isoDate c).drop 5 = pad2 c.month ++ '-' :: pad2 c.day := by
    rw [← List.drop_drop (i := 1) (j := 4), h2]
    rfl
  have hweek : (pad2 c.month ++ '-' :: pad2 c.day)[0]? ≠ some 'W' := fun h =>
    digitChar_ne (show c.month / 10 < 10 by omega) (by decide) (Option.some.inj h)
  have h6 : twoDigits ((pad2 c.month ++ '-' :: pad2 c.day).take 2) = some c.month :=
    twoDigits_pad2 (by omega)
  have h7 : (pad2 c.month ++ '-' :: pad2 c.day).drop 2 = '-' :: pad2 c.day := rfl
  have h8 : twoDigits ((pad2 c.day).take 2) = some c.day := twoDigits_pad2 (by omega)
  unfold Python.isoDatePart
  rw [h1, Option.bind_some]
  simp only [h3, if_true, h5]
  rw [if_neg hweek, h6, Option.bind_some]
  simp only [h7, h8, Option.bind_some]
  rw [Date.ofCalendar, if_pos hyear.1]

/-- **`fromisoformat` reads the UTC date off a date and time.** -/
theorem fromisoformat_toISOString (t : TimeValue) :
    Python.fromisoformat (Python.replaceZulu (toISOString t.ms)) =
      Date.ofCalendar (dateOf (utcDay t.ms)) := by
  have hzulu : 'Z' ∉ isoDate (dateOf (utcDay t.ms)) ++ 'T' :: isoTime t.ms := by
    simp only [List.mem_append, List.mem_cons, not_or]
    exact ⟨not_mem_isoDate t.year_lt (by decide) (by decide) (by decide), by decide,
      not_mem_isoTime (by decide) (by decide) (by decide)⟩
  rw [toISOString, replaceZulu_append hzulu]
  generalize dateOf (utcDay t.ms) = c
  by_cases hyear : 0 ≤ c.year ∧ c.year ≤ 9999
  · have hdate : (isoDate c).length = 10 := by
      rw [isoDate, isoYear, if_pos hyear]
      rfl
    have htake : ((isoDate c ++ 'T' :: isoTime t.ms ++ "+00:00".toList).take 10) = isoDate c := by
      rw [List.append_assoc, ← hdate, List.take_left]
    have hdrop : (isoDate c ++ 'T' :: isoTime t.ms ++ "+00:00".toList).drop (10 + 1) =
        isoTime t.ms ++ "+00:00".toList := by
      rw [← List.drop_drop, List.append_assoc, ← hdate, List.drop_left]
      rfl
    have hlength : (isoDate c ++ 'T' :: isoTime t.ms ++ "+00:00".toList).length = 29 := by
      rw [List.length_append, List.length_append, hdate]
      rfl
    have hdash : (isoDate c ++ 'T' :: isoTime t.ms ++ "+00:00".toList)[4]? = some '-' := by
      rw [isoDate, isoYear, if_pos hyear]
      rfl
    have hweek : (isoDate c ++ 'T' :: isoTime t.ms ++ "+00:00".toList)[5]? ≠ some 'W' := by
      rw [isoDate, isoYear, if_pos hyear]
      have hm := c.month_range
      exact fun h => digitChar_ne (show c.month / 10 < 10 by omega) (by decide) (Option.some.inj h)
    have hseparator : Python.isoSeparator (isoDate c ++ 'T' :: isoTime t.ms ++ "+00:00".toList) =
        some 10 := by
      unfold Python.isoSeparator
      rw [if_neg (by omega), if_pos hdash, if_neg hweek]
    unfold Python.fromisoformat
    simp only [String.toList_ofList]
    rw [if_neg (by omega), hseparator, Option.bind_some, htake, isoDatePart_isoDate hyear, hdrop,
      isoTimeOk_isoTime]
    simp
  · obtain ⟨x, cs, hcs, hx, -, -⟩ := isoYear_signed hyear
    rw [ofCalendar_out_of_range hyear]
    have hchars : (String.ofList (isoDate c ++ 'T' :: isoTime t.ms ++ "+00:00".toList)).toList =
        x :: (cs ++ ('-' :: pad2 c.month ++ '-' :: pad2 c.day) ++ 'T' :: isoTime t.ms ++
          "+00:00".toList) := by
      rw [String.toList_ofList, isoDate, hcs]
      simp
    exact Python.fromisoformat_head hchars hx

theorem T_mem_toISOString (t : ℤ) : 'T' ∈ (toISOString t).toList := by
  rw [toISOString, String.toList_ofList]
  simp

/-! ## HTTP dates -/

/-- The number of a month by its name. -/
def monthNumber (name : List Char) : Option ℕ :=
  [1, 2, 3, 4, 5, 6, 7, 8, 9, 10, 11, 12].find? fun m => monthName m = name

/-- `MakeDay`: the day of a year, a month and a day of the month. -/
def makeDay (y : ℤ) (m d : ℕ) : ℤ :=
  Calendar.daysBeforeYear y + Calendar.daysBeforeMonth (leapDay y) m + d

/-- `new Date(s)` for a text in the format of `toUTCString`, which is that of an HTTP date. -/
def parseUTCString (s : String) : Option ℤ :=
  match s.toList with
  | _ :: _ :: _ :: ',' :: ' ' :: d₁ :: d₂ :: ' ' :: n₁ :: n₂ :: n₃ :: ' ' :: y₁ :: y₂ :: y₃ ::
      y₄ :: ' ' ::
      h₁ :: h₂ :: ':' :: m₁ :: m₂ :: ':' :: s₁ :: s₂ :: [' ', 'G', 'M', 'T'] => do
    let day ← asciiNumber [d₁, d₂]
    let month ← monthNumber [n₁, n₂, n₃]
    let year ← asciiNumber [y₁, y₂, y₃, y₄]
    let hour ← asciiNumber [h₁, h₂]
    let minute ← asciiNumber [m₁, m₂]
    let second ← asciiNumber [s₁, s₂]
    some ((makeDay year month day - epochDay) * msPerDay + hour * 3600000 + minute * 60000 +
      second * 1000)
  | _ => none

theorem weekdayName_three (n : ℕ) : ∃ a b c, weekdayName n = [a, b, c] := by
  unfold weekdayName
  split <;> exact ⟨_, _, _, rfl⟩

theorem monthName_three (n : ℕ) : ∃ a b c, monthName n = [a, b, c] := by
  unfold monthName
  split <;> exact ⟨_, _, _, rfl⟩

theorem monthNumber_monthName {m : ℕ} (h1 : 1 ≤ m) (h12 : m ≤ 12) :
    monthNumber (monthName m) = some m := by
  interval_cases m <;> rfl

/-- **An HTTP date is read as midnight UTC of its day.** -/
theorem parseUTCString_httpDate (d : Date) :
    parseUTCString (httpDate d) = some ((d.toCalendar.toDay - epochDay) * msPerDay) := by
  obtain ⟨-, hy, hm1, hm12, -, hd⟩ := d.valid
  have hd31 := le_trans hd (Python.daysInMonth_le _ _)
  obtain ⟨w₁, w₂, w₃, hw⟩ := weekdayName_three d.weekday
  obtain ⟨n₁, n₂, n₃, hn⟩ := monthName_three d.month
  have hmonth := monthNumber_monthName hm1 hm12
  have hday := asciiNumber_pad2 (show d.day < 100 by omega)
  have hyear := asciiNumber_pad4 (show d.year < 10000 by omega)
  have hzero : asciiNumber (pad2 0) = some 0 := asciiNumber_pad2 (by norm_num)
  have hlast : d.year % 100 % 10 = d.year % 10 := by omega
  have hmake : makeDay d.year d.month d.day = d.toCalendar.toDay := rfl
  rw [hn] at hmonth
  rw [Python.pad4_eq, hlast] at hyear
  unfold parseUTCString Python.httpDate Python.httpDateTime
  rw [String.toList_ofList, hw, hn]
  simp only [pad2, pad4] at hday hzero ⊢
  simp [hmonth, hday, hyear, hzero, hmake]

/-! ## Local times -/

/-- `t.toTimeString().split(' ')[0].substring(0, 5)`. -/
theorem substringTo_toTimeString (offset t : ℤ) :
    substringTo 5 ((split ' ' (toTimeString offset t)).headD "") =
      String.ofList (pad2 (utcHours (t + offset)) ++ ':' :: pad2 (utcMinutes (t + offset))) := by
  have hh := utcHours_lt (t + offset)
  have hm := utcMinutes_lt (t + offset)
  have hs := utcSeconds_lt (t + offset)
  have hblank : ' ' ∉ pad2 (utcHours (t + offset)) ++ ':' :: pad2 (utcMinutes (t + offset)) ++
      ':' :: pad2 (utcSeconds (t + offset)) := by
    simp only [List.mem_append, List.mem_cons, not_or]
    exact ⟨⟨not_mem_pad2 (by omega) (by decide), by decide, not_mem_pad2 (by omega) (by decide)⟩,
      by decide, not_mem_pad2 (by omega) (by decide)⟩
  rw [toTimeString, List.append_assoc _ _ (pad2 (offset.natAbs / 3600000)), List.append_assoc]
  rw [List.append_assoc _ _ (pad2 (offset.natAbs / 60000 % 60))]
  simp only [List.cons_append]
  rw [split_head hblank, substringTo, String.toList_ofList]
  rfl

/-- The local hour and minute of a time value. -/
def localTime (offset t : ℤ) : Time where
  hour := utcHours (t + offset)
  minute := utcMinutes (t + offset)
  second := 0
  valid := ⟨utcHours_lt _, utcMinutes_lt _, by norm_num⟩

/-- **`strptime` reads the local hour and minute back.** -/
theorem strptimeTime_substring (offset t : ℤ) :
    Python.strptimeTime (substringTo 5 ((split ' ' (toTimeString offset t)).headD "")) =
      some (localTime offset t) := by
  rw [substringTo_toTimeString]
  exact Python.strptimeTime_strftime (localTime offset t) rfl

/-! ## Local days -/

/-- `t.getDate()`. -/
def getDate (offset t : ℤ) : ℕ := (dateOf (localDay offset t)).day

/-- `t.getDay()`: Sunday is 0. -/
def getDay (offset t : ℤ) : ℤ := localDay offset t % 7

/-- `t.setDate(date)`: the day of the month, or one beyond it, at the same local time. -/
def setDate (offset t : ℤ) (date : ℕ) : ℤ :=
  (makeDay (dateOf (localDay offset t)).year (dateOf (localDay offset t)).month date - epochDay) *
    msPerDay +
    timeWithinDay (t + offset) - offset

/-- The time value of Thursday, January 1, 1970. -/
example : getDay 0 0 = 4 := by decide +kernel

theorem localDay_setDate (offset t : ℤ) (date : ℕ) :
    localDay offset (setDate offset t date) =
      makeDay (dateOf (localDay offset t)).year (dateOf (localDay offset t)).month date := by
  have htime := timeWithinDay_lt (t + offset)
  rw [setDate]
  generalize makeDay _ _ date = day
  unfold localDay utcDay msPerDay
  omega

/-- **The next day**: `t.setDate(t.getDate() + 1)`, at the ends of months and years too. -/
theorem localDay_setDate_next (offset t : ℤ) :
    localDay offset (setDate offset t (getDate offset t + 1)) = localDay offset t + 1 := by
  have hday : makeDay (dateOf (localDay offset t)).year (dateOf (localDay offset t)).month
      (getDate offset t) =
      localDay offset t := Calendar.toDay_dateOf (localDay offset t)
  rw [localDay_setDate]
  unfold makeDay at hday ⊢
  omega

end ProjectEvaluation.JavaScript
