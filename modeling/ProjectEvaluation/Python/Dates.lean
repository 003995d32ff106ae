import ProjectEvaluation.Python.Text

/-!
# Python dates and times of day

`datetime.date` and `datetime.time`, the three parsers `routes.py` uses
(`strptime` with `%Y-%m-%d` and with `%H:%M`, `datetime.fromisoformat`) and the
renderings a client sees (`isoformat`, `strftime`, the HTTP dates of Flask's
JSON encoder).

`fromisoformat` follows CPython 3.11 and later, which accepts most of ISO 8601;
only the date part of its result is used. (Single versions of CPython let a few
malformed times pass, such as a stray digit before the zone; these are rejected
here.)

Results:
* `strptimeDate_isoformat`: `strptime(d.isoformat(), '%Y-%m-%d')` is `d`.
* `strptimeTime_strftime`: `%H:%M` reads a time with zero seconds back.
* `fromisoformat_httpDate`: no HTTP date is an ISO date.
* `strptimeDate_fromisoformat`: where `strptime` reads the part of a text before its first `T` and
  `fromisoformat` the text, they agree.
-/

namespace ProjectEvaluation.Python

/-! ## Calendar -/

/-- `calendar.isleap`. -/
def isLeap (y : ℕ) : Bool := y % 4 == 0 && (y % 100 != 0 || y % 400 == 0)

/-- The number of days of a month. -/
def daysInMonth (y m : ℕ) : ℕ :=
  match m with
  | 4 | 6 | 9 | 11 => 30
  | 2 => if isLeap y then 29 else 28
  | _ => 31

/-- The range of `datetime.date`. -/
abbrev IsDate (y m d : ℕ) : Prop :=
  1 ≤ y ∧ y ≤ 9999 ∧ 1 ≤ m ∧ m ≤ 12 ∧ 1 ≤ d ∧ d ≤ daysInMonth y m

/-- `datetime.date`: a day of the proleptic Gregorian calendar. -/
structure Date where
  year : ℕ
  month : ℕ
  day : ℕ
  valid : IsDate year month day
  deriving DecidableEq

/-- `datetime.date(y, m, d)`; `none` is a `ValueError`. -/
def Date.mk? (y m d : ℕ) : Option Date := if h : IsDate y m d then some ⟨y, m, d, h⟩ else none

theorem Date.mk?_eq (d : Date) : Date.mk? d.year d.month d.day = some d := by
  rw [Date.mk?, dif_pos d.valid]

theorem daysInMonth_le (y m : ℕ) : daysInMonth y m ≤ 31 := by
  unfold daysInMonth
  split <;> try omega
  split <;> omega

/-- A time of day, as stored in a `Time` column (microseconds left out). -/
structure Time where
  hour : ℕ
  minute : ℕ
  second : ℕ
  valid : hour < 24 ∧ minute < 60 ∧ second < 60
  deriving DecidableEq

/-- `datetime.time(h, m)`; `none` is a `ValueError`. -/
def Time.mk? (h m : ℕ) : Option Time :=
  if hv : h < 24 ∧ m < 60 then some ⟨h, m, 0, hv.1, hv.2, by omega⟩ else none

/-! ## Renderings -/

/-- `d.isoformat()`, which is also `d.strftime('%Y-%m-%d')`. -/
def Date.isoformat (d : Date) : String :=
  String.ofList (pad4 d.year ++ '-' :: pad2 d.month ++ '-' :: pad2 d.day)

/-- `t.strftime('%H:%M')`. -/
def Time.strftime (t : Time) : String := String.ofList (pad2 t.hour ++ ':' :: pad2 t.minute)

/-- The number of days before January 1 of a year. -/
def daysBeforeYear (y : ℕ) : ℕ := (y - 1) * 365 + (y - 1) / 4 - (y - 1) / 100 + (y - 1) / 400

/-- The number of days of a year before a month. -/
def daysBeforeMonth (y m : ℕ) : ℕ :=
  ((List.range m).drop 1).foldl (fun n k => n + daysInMonth y k) 0

/-- `d.toordinal()`. -/
def Date.toOrdinal (d : Date) : ℕ := daysBeforeYear d.year + daysBeforeMonth d.year d.month + d.day

/-- `d.weekday()`: Monday is 0. -/
def Date.weekday (d : Date) : ℕ := (d.toOrdinal + 6) % 7

/-- The names of the days in an HTTP date. -/
def weekdayName : ℕ → List Char
  | 0 => ['M', 'o', 'n']
  | 1 => ['T', 'u', 'e']
  | 2 => ['W', 'e', 'd']
  | 3 => ['T', 'h', 'u']
  | 4 => ['F', 'r', 'i']
  | 5 => ['S', 'a', 't']
  | _ => ['S', 'u', 'n']

/-- The names of the months in an HTTP date. -/
def monthName : ℕ → List Char
  | 1 => ['J', 'a', 'n']
  | 2 => ['F', 'e', 'b']
  | 3 => ['M', 'a', 'r']
  | 4 => ['A', 'p', 'r']
  | 5 => ['M', 'a', 'y']
  | 6 => ['J', 'u', 'n']
  | 7 => ['J', 'u', 'l']
  | 8 => ['A', 'u', 'g']
  | 9 => ['S', 'e', 'p']
  | 10 => ['O', 'c', 't']
  | 11 => ['N', 'o', 'v']
  | _ => ['D', 'e', 'c']

/-- The JSON rendering of a date at a time of day by Flask 2.0: an HTTP date
    such as `Fri, 05 Jan 2024 00:00:00 GMT`. -/
def httpDateTime (d : Date) (hour minute second : ℕ) : String :=
  String.ofList (weekdayName d.weekday ++ [',', ' '] ++ pad2 d.day ++ ' ' :: monthName d.month ++
    ' ' :: pad4 d.year ++ ' ' :: pad2 hour ++ ':' :: pad2 minute ++ ':' :: pad2 second ++
    [' ', 'G', 'M', 'T'])

/-- The JSON rendering of a `date`: midnight GMT. -/
def httpDate (d : Date) : String := httpDateTime d 0 0 0

example : httpDate ⟨2024, 1, 5, by decide⟩ = "Fri, 05 Jan 2024 00:00:00 GMT" := by decide

/-! ## `strptime` -/

/-- `c` as a digit between `lo` and `hi` (a character class such as `[1-9]`). -/
def digitIn (lo hi : ℕ) (c : Char) : Option ℕ :=
  (asciiDigit c).filter fun d => decide (lo ≤ d ∧ d ≤ hi)

/-- `%d` up to the end of the text: `3[0-1]|[1-2]\d|0[1-9]|[1-9]| [1-9]`. -/
def dayField : List Char → Option ℕ
  | [c] => digitIn 1 9 c
  | ['3', c] => (digitIn 0 1 c).map (30 + ·)
  | ['2', c] => (digitValue c).map (20 + ·)
  | ['1', c] => (digitValue c).map (10 + ·)
  | ['0', c] => digitIn 1 9 c
  | [' ', c] => digitIn 1 9 c
  | _ => none

/-- `%m-`: `1[0-2]|0[1-9]|[1-9]` and the dash, with the rest of the text. -/
def monthField : List Char → Option (ℕ × List Char)
  | '1' :: c :: '-' :: rest => (digitIn 0 2 c).map fun m => (10 + m, rest)
  | '0' :: c :: '-' :: rest => (digitIn 1 9 c).map fun m => (m, rest)
  | c :: '-' :: rest => (digitIn 1 9 c).map fun m => (m, rest)
  | _ => none

/-- `%Y-`: `\d\d\d\d` and the dash, with the rest of the text. -/
def yearField : List Char → Option (ℕ × List Char)
  | a :: b :: c :: d :: '-' :: rest =>
    ([a, b, c, d].foldlM (fun n x => (digitValue x).map (10 * n + ·)) 0).map fun y => (y, rest)
  | _ => none

/-- `datetime.strptime(s, '%Y-%m-%d').date()`; `none` is a `ValueError`. -/
def strptimeDate (s : String) : Option Date :=
  (yearField s.toList).bind fun (y, rest) =>
    (monthField rest).bind fun (m, rest) => (dayField rest).bind fun d => Date.mk? y m d

/-- `%M` up to the end of the text: `[0-5]\d|\d`. -/
def minuteField : List Char → Option ℕ
  | [c] => digitValue c
  | [b, c] => (digitIn 0 5 b).bind fun t => (digitValue c).map (10 * t + ·)
  | _ => none

/-- `%H:`: `2[0-3]|[0-1]\d|\d` and the colon, with the rest of the text. -/
def hourField : List Char → Option (ℕ × List Char)
  | '2' :: c :: ':' :: rest => (digitIn 0 3 c).map fun h => (20 + h, rest)
  | b :: c :: ':' :: rest =>
    (digitIn 0 1 b).bind fun t => (digitValue c).map fun h => (10 * t + h, rest)
  | c :: ':' :: rest => (digitValue c).map fun h => (h, rest)
  | _ => none

/-- `datetime.strptime(s, '%H:%M').time()`; `none` is a `ValueError`. -/
def strptimeTime (s : String) : Option Time :=
  (hourField s.toList).bind fun (h, rest) => (minuteField rest).bind fun m => Time.mk? h m

/-! ## `fromisoformat` -/

/-- A two-digit number. -/
def twoDigits (cs : List Char) : Option ℕ := if cs.length = 2 then asciiNumber cs else none

/-- Where the time part of an ISO date and time starts, for a text of at least
    seven characters (`_find_isoformat_datetime_separator`). -/
def isoSeparator (cs : List Char) : Option ℕ :=
  if cs.length = 7 then some 7
  else if cs[4]? = some '-' then
    if cs[5]? = some 'W' then
      if 8 < cs.length ∧ cs[8]? = some '-' then
        if cs.length = 9 then none
        else if 10 < cs.length ∧ ((cs[10]?).bind asciiDigit).isSome then some 8
        else some 10
      else some 8
    else some 10
  else if cs[4]? = some 'W' then
    let pos := 7 + ((cs.drop 7).takeWhile fun c => (asciiDigit c).isSome).length
    if pos < 9 then some pos else if pos % 2 = 0 then some 7 else some 8
  else some 8

/-- The day number `n` (from 0) of a year as a date. -/
def dateOfYearDay (y n : ℕ) : Option Date :=
  ((List.range 13).drop 1).findSome? fun m =>
    if daysBeforeMonth y m ≤ n ∧ n < daysBeforeMonth y m + daysInMonth y m then
      Date.mk? y m (n - daysBeforeMonth y m + 1)
    else none

/-- The date of a day of an ISO week (`_isoweek_to_gregorian`). -/
def dateOfIsoWeek (y week day : ℕ) : Option Date :=
  let length := daysBeforeYear (y + 1) - daysBeforeYear y
  -- the weekday of January 1, Monday being 0
  let first := (daysBeforeYear y + 7) % 7
  let longYear := first = 3 ∨ (first = 2 ∧ isLeap y)
  if 1 ≤ y ∧ 1 ≤ week ∧ (week ≤ 52 ∨ (week = 53 ∧ longYear)) ∧ 1 ≤ day ∧ day ≤ 7 then
    -- week 1 is the one with the first Thursday; `shifted` is 7 more than the day of the year
    let shifted := (if first ≤ 3 then 7 - first else 14 - first) + (week - 1) * 7 + (day - 1)
    if shifted < 7 then
      dateOfYearDay (y - 1) (daysBeforeYear y - daysBeforeYear (y - 1) + shifted - 7)
    else if shifted - 7 < length then dateOfYearDay y (shifted - 7)
    else dateOfYearDay (y + 1) (shifted - 7 - length)
  else none

/-- The date part of an ISO date and time (`_parse_isoformat_date`). -/
def isoDatePart (cs : List Char) : Option Date :=
  (asciiNumber (cs.take 4)).bind fun y =>
    let dashed := cs[4]? = some '-'
    let rest := if dashed then cs.drop 5 else cs.drop 4
    if rest[0]? = some 'W' then
      (twoDigits ((rest.drop 1).take 2)).bind fun week =>
        match rest.drop 3 with
        | [] => dateOfIsoWeek y week 1
        | '-' :: ds =>
          if dashed then (asciiNumber (ds.take 1)).bind (dateOfIsoWeek y week) else none
        | ds => if dashed then none else (asciiNumber (ds.take 1)).bind (dateOfIsoWeek y week)
    else
      (twoDigits (rest.take 2)).bind fun m =>
        match rest.drop 2 with
        | '-' :: ds => if dashed then (twoDigits (ds.take 2)).bind (Date.mk? y m) else none
        | ds => if dashed then none else (twoDigits (ds.take 2)).bind (Date.mk? y m)

/-- A fraction of a second: a decimal mark and digits. -/
def isoFraction : List Char → Option (List ℕ)
  | [] => some []
  | c :: cs =>
    if (c = '.' ∨ c = ',') ∧ cs ≠ [] ∧ cs.all fun d => (asciiDigit d).isSome then some [] else none

/-- `HH[:?MM[:?SS[.fff]]]` (`_parse_hh_mm_ss_ff`): the components that are there. -/
def isoClock (cs : List Char) : Option (List ℕ) :=
  (twoDigits (cs.take 2)).bind fun h =>
    match cs.drop 2 with
    | [] => some [h]
    | ':' :: rest =>
      (twoDigits (rest.take 2)).bind fun m =>
        match rest.drop 2 with
        | [] => some [h, m]
        | ':' :: rest =>
          (twoDigits (rest.take 2)).bind fun s => (isoFraction (rest.drop 2)).map (h :: m :: s :: ·)
        | _ => none
    | rest =>
      (twoDigits (rest.take 2)).bind fun m =>
        match rest.drop 2 with
        | [] => some [h, m]
        | rest =>
          (twoDigits (rest.take 2)).bind fun s => (isoFraction (rest.drop 2)).map (h :: m :: s :: ·)

/-- The components of a time of day or of a time zone offset are in range. -/
def isoClockOk (cs : List Char) : Bool :=
  match isoClock cs with
  | some (h :: rest) => decide (h < 24) && rest.all (decide <| · < 60)
  | _ => false

/-- The time part of an ISO date and time is well formed (`_parse_isoformat_time`). -/
def isoTimeOk (cs : List Char) : Bool :=
  let clock := cs.takeWhile fun c => c ≠ '+' ∧ c ≠ '-' ∧ c ≠ 'Z'
  isoClockOk clock &&
    match cs.drop clock.length with
    | [] => true
    | ['Z'] => true
    | 'Z' :: _ => false
    | _ :: zone => isoClockOk zone

/-- `datetime.fromisoformat(s).date()`; `none` is a `ValueError`. -/
def fromisoformat (s : String) : Option Date :=
  let cs := s.toList
  if cs.length < 7 then none
  else
    (isoSeparator cs).bind fun sep =>
      (isoDatePart (cs.take sep)).bind fun d =>
        if cs.length ≤ sep || isoTimeOk (cs.drop (sep + 1)) then some d else none

example : (fromisoformat "2024-01-05T12:34:56.789+00:00").map Date.isoformat =
    some "2024-01-05" := by
  decide

example : (fromisoformat "2024W536").map Date.isoformat = none := by decide

/-! ## Round trips -/

theorem dayField_pad2 {d : ℕ} (h1 : 1 ≤ d) (h2 : d ≤ 31) : dayField (pad2 d) = some d := by
  interval_cases d <;> decide

theorem monthField_pad2 {m : ℕ} (h1 : 1 ≤ m) (h2 : m ≤ 12) (rest : List Char) :
    monthField (pad2 m ++ '-' :: rest) = some (m, rest) := by
  interval_cases m <;> rfl

theorem yearField_pad4 {y : ℕ} (h : y ≤ 9999) (rest : List Char) :
    yearField (pad4 y ++ '-' :: rest) = some (y, rest) := by
  have h1 : y / 100 / 10 < 10 := by omega
  have h2 : y / 100 % 10 < 10 := Nat.mod_lt _ (by norm_num)
  have h3 : y % 100 / 10 < 10 := by omega
  have h4 : y % 100 % 10 < 10 := Nat.mod_lt _ (by norm_num)
  rw [pad4_eq]
  simp only [yearField, List.cons_append, List.nil_append, List.foldlM_cons, List.foldlM_nil,
    digitValue_digitChar h1, digitValue_digitChar h2, digitValue_digitChar h3,
    digitValue_digitChar h4, Option.map_some, Option.bind_eq_bind, Option.bind_some,
    Option.pure_def, Option.some.injEq, Prod.mk.injEq, and_true]
  omega

/-- **`strptime` reads `isoformat` back.** -/
theorem strptimeDate_isoformat (d : Date) : strptimeDate d.isoformat = some d := by
  obtain ⟨-, hy, hm1, hm2, hd1, hd2⟩ := d.valid
  have hd := le_trans hd2 (daysInMonth_le _ _)
  simp only [strptimeDate, Date.isoformat, String.toList_ofList, List.append_assoc,
    List.cons_append]
  rw [yearField_pad4 hy, Option.bind_some]
  simp only
  rw [monthField_pad2 hm1 hm2, Option.bind_some]
  simp only
  rw [dayField_pad2 hd1 hd, Option.bind_some, Date.mk?_eq]

theorem minuteField_pad2 {m : ℕ} (h : m < 60) : minuteField (pad2 m) = some m := by
  interval_cases m <;> rfl

theorem hourField_pad2 {h : ℕ} (hh : h < 24) (rest : List Char) :
    hourField (pad2 h ++ ':' :: rest) = some (h, rest) := by
  interval_cases h <;> rfl

/-- **`strptime` reads `strftime('%H:%M')` back**, the seconds being zero. -/
theorem strptimeTime_strftime (t : Time) (hs : t.second = 0) :
    strptimeTime t.strftime = some t := by
  obtain ⟨h, m, s, hv⟩ := t
  simp only at hs
  subst hs
  simp only [strptimeTime, Time.strftime, String.toList_ofList]
  rw [hourField_pad2 hv.1, Option.bind_some]
  simp only
  rw [minuteField_pad2 hv.2.1, Option.bind_some]
  simp [Time.mk?, hv.1, hv.2.1]

theorem strptimeTime_second {s : String} {t : Time} (h : strptimeTime s = some t) :
    t.second = 0 := by
  simp only [strptimeTime, Option.bind_eq_some_iff, Time.mk?] at h
  obtain ⟨_, -, _, -, h⟩ := h
  split_ifs at h
  cases h
  rfl

theorem isoDatePart_eq_none {cs : List Char} (h : asciiNumber (cs.take 4) = none) :
    isoDatePart cs = none := by
  rw [isoDatePart, h]; rfl

theorem isoSeparator_pos {cs : List Char} {sep : ℕ} (h : isoSeparator cs = some sep) : 0 < sep := by
  unfold isoSeparator at h
  simp only at h
  split_ifs at h <;> cases h <;> omega

/-- A text that `fromisoformat` accepts starts with a digit. -/
theorem fromisoformat_head {s : String} {c : Char} {cs : List Char} (hs : s.toList = c :: cs)
    (hc : asciiDigit c = none) : fromisoformat s = none := by
  unfold fromisoformat
  simp only [hs]
  split_ifs with hlen
  · rfl
  · cases h : isoSeparator (c :: cs) with
    | none => rfl
    | some sep =>
      obtain ⟨n, rfl⟩ := Nat.exists_eq_succ_of_ne_zero (isoSeparator_pos h).ne'
      have hyear : asciiNumber (((c :: cs).take (n + 1)).take 4) = none := by
        simp [asciiNumber, hc]
      rw [Option.bind_some, isoDatePart_eq_none hyear, Option.bind_none]

theorem weekdayName_head (n : ℕ) :
    ∃ c cs, weekdayName n = c :: cs ∧ asciiDigit c = none ∧ c ≠ 'Z' := by
  unfold weekdayName
  split <;> exact ⟨_, _, rfl, by decide, by decide⟩

theorem httpDate_head (d : Date) :
    ∃ c cs, (httpDate d).toList = c :: cs ∧ asciiDigit c = none ∧ c ≠ 'Z' := by
  obtain ⟨c, cs, h, hdigit, hz⟩ := weekdayName_head d.weekday
  exact ⟨c, _, by rw [httpDate, httpDateTime, String.toList_ofList, h]; rfl, hdigit, hz⟩

/-- **No HTTP date is an ISO date.** -/
theorem fromisoformat_httpDate (d : Date) : fromisoformat (replaceZulu (httpDate d)) = none := by
  obtain ⟨c, cs, h, hdigit, hz⟩ := httpDate_head d
  refine @fromisoformat_head _ c
    (cs.flatMap fun x => if x = 'Z' then "+00:00".toList else [x]) ?_ hdigit
  rw [replaceZulu, String.toList_ofList, h, List.flatMap_cons, if_neg hz]
  rfl

/-- The zone name of an HTTP date has a `T`. -/
theorem T_mem_httpDate (d : Date) : 'T' ∈ (httpDate d).toList := by
  simp [httpDate, httpDateTime]

/-- The rendering of `isoformat` has no `T`. -/
theorem T_not_mem_isoformat (d : Date) : 'T' ∉ d.isoformat.toList := by
  have hne : ∀ n, n < 10 → 'T' ≠ Nat.digitChar n := by
    intro n hn; interval_cases n <;> decide
  obtain ⟨-, hy, -, hm, -, hd⟩ := d.valid
  have hd := le_trans hd (daysInMonth_le _ _)
  simp only [Date.isoformat, String.toList_ofList, pad4_eq, pad2, List.mem_append, List.mem_cons,
    List.not_mem_nil, or_false, not_or]
  and_intros <;> first | decide | exact hne _ (by omega)

/-! ## Texts that both parsers read -/

theorem digitIn_isSome {lo hi n : ℕ} {c : Char} (h : digitIn lo hi c = some n) :
    (digitValue c).isSome = true := by
  obtain ⟨hdigit, -⟩ := Option.filter_eq_some_iff.mp h
  obtain ⟨hn, rfl⟩ := asciiDigit_eq_some hdigit
  rw [digitValue_digitChar hn]
  rfl

/-- Two ASCII digits are the padded number they are read as. -/
theorem twoDigits_eq_some {cs : List Char} {n : ℕ} (h : twoDigits cs = some n) : cs = pad2 n := by
  unfold twoDigits at h
  split_ifs at h with hlength
  obtain ⟨a, b, rfl⟩ := List.length_eq_two.mp hlength
  simp only [asciiNumber, reduceCtorEq, if_false, List.foldlM_cons, List.foldlM_nil,
    Option.bind_eq_bind, Option.bind_eq_some_iff, Option.map_eq_some_iff, Option.pure_def,
    Option.some.injEq] at h
  obtain ⟨_, ⟨m, ha, rfl⟩, _, ⟨k, hb, rfl⟩, rfl⟩ := h
  obtain ⟨hm, rfl⟩ := asciiDigit_eq_some ha
  obtain ⟨hk, rfl⟩ := asciiDigit_eq_some hb
  rw [pad2, show (10 * (10 * 0 + m) + k) / 10 = m by omega,
    show (10 * (10 * 0 + m) + k) % 10 = k by omega]

/-- Four ASCII digits are the padded number they are read as. -/
theorem asciiNumber_eq_some_of_length_four {cs : List Char} {n : ℕ} (hlength : cs.length = 4)
    (h : asciiNumber cs = some n) : cs = pad4 n := by
  obtain ⟨a, b, c, d, rfl⟩ : ∃ a b c d, cs = [a, b, c, d] := by
    match cs, hlength with
    | [a, b, c, d], _ => exact ⟨a, b, c, d, rfl⟩
  simp only [asciiNumber, reduceCtorEq, if_false, List.foldlM_cons, List.foldlM_nil,
    Option.bind_eq_bind, Option.bind_eq_some_iff, Option.map_eq_some_iff, Option.pure_def,
    Option.some.injEq] at h
  obtain ⟨_, ⟨k1, ha, rfl⟩, _, ⟨k2, hb, rfl⟩, _, ⟨k3, hc, rfl⟩, _, ⟨k4, hd, rfl⟩, rfl⟩ := h
  obtain ⟨h1, rfl⟩ := asciiDigit_eq_some ha
  obtain ⟨h2, rfl⟩ := asciiDigit_eq_some hb
  obtain ⟨h3, rfl⟩ := asciiDigit_eq_some hc
  obtain ⟨h4, rfl⟩ := asciiDigit_eq_some hd
  rw [pad4_eq, show (10 * (10 * (10 * (10 * 0 + k1) + k2) + k3) + k4) / 100 / 10 = k1 by omega,
    show (10 * (10 * (10 * (10 * 0 + k1) + k2) + k3) + k4) / 100 % 10 = k2 by omega,
    show (10 * (10 * (10 * (10 * 0 + k1) + k2) + k3) + k4) % 100 / 10 = k3 by omega,
    show (10 * (10 * (10 * (10 * 0 + k1) + k2) + k3) + k4) % 100 % 10 = k4 by omega]

/-- An ISO date with dashes and without a week starts with the rendering of the date. -/
theorem isoDatePart_isoformat {cs : List Char} {e : Date} (h : isoDatePart cs = some e)
    (hdash : cs[4]? = some '-')
    (hweek : cs[5]? ≠ some 'W') : e.isoformat.toList <+: cs := by
  obtain ⟨hlength, -⟩ := List.getElem?_eq_some_iff.mp hdash
  simp only [isoDatePart, hdash, if_true, List.getElem?_drop, Nat.add_zero, hweek, if_false,
    Option.bind_eq_some_iff] at h
  obtain ⟨y, hy, m, hm, h⟩ := h
  have hyear := asciiNumber_eq_some_of_length_four (List.length_take_of_le (by omega)) hy
  have hmonth := twoDigits_eq_some hm
  have hsplit : cs = cs.take 4 ++ '-' :: ((cs.drop 5).take 2 ++ (cs.drop 5).drop 2) := by
    have hdrop := List.drop_eq_getElem_cons hlength
    rw [(List.getElem?_eq_some_iff.mp hdash).2] at hdrop
    rw [List.take_append_drop, ← hdrop, List.take_append_drop]
  rw [hyear, hmonth] at hsplit
  -- after the month comes a dash, as one came before it
  cases hrest : (cs.drop 5).drop 2 with
  | nil =>
    rw [hrest] at h
    cases h
  | cons c ds =>
    rw [hrest] at h hsplit
    by_cases hc : c = '-'
    · subst hc
      obtain ⟨d, hd, hdate⟩ := Option.bind_eq_some_iff.mp h
      have hday := twoDigits_eq_some hd
      have hds : ds = pad2 d ++ ds.drop 2 := by rw [← hday, List.take_append_drop]
      unfold Date.mk? at hdate
      split_ifs at hdate
      cases hdate
      refine ⟨ds.drop 2, Eq.trans ?_ hsplit.symm⟩
      rw [Date.isoformat, String.toList_ofList, List.append_assoc, List.cons_append,
        List.append_assoc, List.cons_append, ← hds]
    · split at h
      · rename_i heq
        cases heq
        exact absurd rfl hc
      · cases h

/-- The characters of the year. -/
theorem yearField_eq_some {cs rest : List Char} {y : ℕ} (h : yearField cs = some (y, rest)) :
    ∃ year, year.length = 4 ∧ cs = year ++ '-' :: rest ∧ ∀ c ∈ year,
      (digitValue c).isSome = true := by
  unfold yearField at h
  split at h
  · rename_i a b c d rest'
    obtain ⟨n, hn, heq⟩ := Option.map_eq_some_iff.mp h
    cases heq
    refine ⟨[a, b, c, d], rfl, rfl, ?_⟩
    simp only [List.foldlM_cons, List.foldlM_nil, Option.bind_eq_bind, Option.bind_eq_some_iff,
      Option.map_eq_some_iff] at hn
    obtain ⟨_, ⟨_, ha, -⟩, _, ⟨_, hb, -⟩, _, ⟨_, hc, -⟩, _, ⟨_, hd, -⟩, -⟩ := hn
    simp [ha, hb, hc, hd]
  · cases h

/-- The characters of the month. -/
theorem monthField_eq_some {cs rest : List Char} {m : ℕ} (h : monthField cs = some (m, rest)) :
    ∃ month, month ≠ [] ∧ cs = month ++ '-' :: rest ∧ ∀ c ∈ month,
      (digitValue c).isSome = true := by
  unfold monthField at h
  split at h
  · rename_i c rest'
    obtain ⟨n, hn, heq⟩ := Option.map_eq_some_iff.mp h
    cases heq
    refine ⟨['1', c], List.cons_ne_nil _ _, rfl, ?_⟩
    simp only [List.forall_mem_cons, digitIn_isSome hn, List.not_mem_nil, false_imp_iff,
      implies_true, and_true]
    decide
  · rename_i c rest'
    obtain ⟨n, hn, heq⟩ := Option.map_eq_some_iff.mp h
    cases heq
    refine ⟨['0', c], List.cons_ne_nil _ _, rfl, ?_⟩
    simp only [List.forall_mem_cons, digitIn_isSome hn, List.not_mem_nil, false_imp_iff,
      implies_true, and_true]
    decide
  · rename_i c rest' _ _
    obtain ⟨n, hn, heq⟩ := Option.map_eq_some_iff.mp h
    cases heq
    exact ⟨[c], List.cons_ne_nil _ _, rfl, List.forall_mem_singleton.mpr (digitIn_isSome hn)⟩
  · cases h

/-- The characters of the day. -/
theorem dayField_eq_some {cs : List Char} {d : ℕ} (h : dayField cs = some d) :
    cs ≠ [] ∧ cs.length ≤ 2 ∧ ∀ c ∈ cs, c = ' ' ∨ (digitValue c).isSome = true := by
  unfold dayField at h
  split at h
  · simp [digitIn_isSome h]
  · obtain ⟨n, hn, -⟩ := Option.map_eq_some_iff.mp h
    simp [digitIn_isSome hn]; decide
  · obtain ⟨n, hn, -⟩ := Option.map_eq_some_iff.mp h
    simp [hn]; decide
  · obtain ⟨n, hn, -⟩ := Option.map_eq_some_iff.mp h
    simp [hn]; decide
  · simp [digitIn_isSome h]; decide
  · simp [digitIn_isSome h]
  · cases h

/-- The shape of a text that `strptime` reads: year, month and day between dashes. -/
structure DashedDate (cs : List Char) where
  year : List Char
  month : List Char
  day : List Char
  split : cs = year ++ '-' :: (month ++ '-' :: day)
  year_length : year.length = 4
  month_nonempty : month ≠ []
  day_nonempty : day ≠ []
  day_length : day.length ≤ 2
  chars : ∀ c ∈ year ++ (month ++ day), c = ' ' ∨ (digitValue c).isSome = true

theorem strptimeDate_shape {s : String} {d : Date} (h : strptimeDate s = some d) :
    Nonempty (DashedDate s.toList) := by
  simp only [strptimeDate, Option.bind_eq_some_iff] at h
  obtain ⟨⟨y, rest⟩, hyear, ⟨m, rest'⟩, hmonth, d, hday, -⟩ := h
  obtain ⟨year, hlength, hs, hydigits⟩ := yearField_eq_some hyear
  obtain ⟨month, hnonempty, rfl, hmdigits⟩ := monthField_eq_some hmonth
  obtain ⟨hne, hshort, hddigits⟩ := dayField_eq_some hday
  refine ⟨⟨year, month, rest', hs, hlength, hnonempty, hne, hshort, fun c hc => ?_⟩⟩
  rcases List.mem_append.mp hc with hc | hc
  · exact Or.inr (hydigits c hc)
  · rcases List.mem_append.mp hc with hc | hc
    · exact Or.inr (hmdigits c hc)
    · exact hddigits c hc

namespace DashedDate

variable {cs : List Char}

theorem not_mem (t : DashedDate cs) {c : Char} (hblank : c ≠ ' ') (hdigit : digitValue c = none) :
    c ∉ t.year ++ (t.month ++ t.day) := by
  intro hc
  rcases t.chars c hc with h | h
  · exact hblank h
  · rw [hdigit] at h
    cases h

/-- Other characters than blanks, digits and dashes are not in it. -/
theorem not_mem_text (t : DashedDate cs) {c : Char} (hblank : c ≠ ' ')
    (hdigit : digitValue c = none)
    (hdash : c ≠ '-') : c ∉ cs := by
  have hnot := t.not_mem hblank hdigit
  rw [t.split]
  simp only [List.mem_append, List.mem_cons, not_or] at hnot ⊢
  exact ⟨hnot.1, hdash, hnot.2.1, hdash, hnot.2.2⟩

theorem length_pos (t : DashedDate cs) : 8 ≤ cs.length := by
  have hmonth := List.length_pos_of_ne_nil t.month_nonempty
  have hday := List.length_pos_of_ne_nil t.day_nonempty
  have hyear := t.year_length
  rw [t.split]
  simp only [List.length_append, List.length_cons]
  omega

theorem get_four (t : DashedDate cs) : cs[4]? = some '-' := by
  rw [t.split, List.getElem?_append_right t.year_length.le, t.year_length]
  rfl

/-- No week stands behind the year. -/
theorem get_five (t : DashedDate cs) : cs[5]? ≠ some 'W' := by
  intro hweek
  exact t.not_mem_text (by decide) (by decide) (by decide) (List.mem_of_getElem? hweek)

/-- A date that it starts with is all of it. -/
theorem eq_of_prefix (t : DashedDate cs) {e : Date} (h : e.isoformat.toList <+: cs) :
    e.isoformat.toList = cs := by
  obtain ⟨tail, htail⟩ := h
  have hdash : digitValue '-' = none := by decide
  have hparts := t.not_mem (by decide) hdash
  simp only [List.mem_append, not_or] at hparts
  have hyears : (pad4 e.year).length = t.year.length := t.year_length.symm
  have hsplit : pad4 e.year ++ '-' :: (pad2 e.month ++ '-' :: (pad2 e.day ++ tail)) =
      t.year ++ '-' :: (t.month ++ '-' :: t.day) := by
    rw [← t.split, ← htail]
    simp [Date.isoformat]
  obtain ⟨-, hrest⟩ := List.append_inj hsplit hyears
  obtain ⟨-, -, hday⟩ :=
    (List.append_cons_inj_of_notMem hparts.2.1 hparts.2.2).mp (List.cons.inj hrest).2.symm
  have hlength := congrArg List.length hday
  rw [List.length_append, show (pad2 e.day).length = 2 from rfl] at hlength
  have hshort := t.day_length
  have htail : tail = [] := List.length_eq_zero_iff.mp (by omega)
  subst htail
  rw [← List.append_nil e.isoformat.toList, ‹_ ++ [] = cs›]

end DashedDate

/-- **Two readings of a text agree**: where `strptime` reads the part of a text before its first `T`
    and `fromisoformat` reads the text, they read the same date. -/
theorem strptimeDate_fromisoformat {s : String} {d e : Date} (hT : 'T' ∈ s.toList)
    (hd : strptimeDate (beforeFirst 'T' s) = some d)
    (he : fromisoformat (replaceZulu s) = some e) : d = e := by
  obtain ⟨t⟩ := strptimeDate_shape hd
  generalize hcs : (beforeFirst 'T' s).toList = cs at t
  obtain ⟨rest, hs⟩ : ∃ rest, s.toList = cs ++ 'T' :: rest := by
    rw [← hcs]
    exact beforeFirst_split hT
  -- the replacement of zone letters leaves the part before the `T` alone
  have hlength := t.length_pos
  obtain ⟨rest', hs'⟩ : ∃ rest', (replaceZulu s).toList = cs ++ 'T' :: rest' := by
    rw [replaceZulu, String.toList_ofList, hs, List.flatMap_append,
      replaceZulu_kept (t.not_mem_text (by decide) (by decide) (by decide))]
    exact ⟨_, rfl⟩
  have hfour : (replaceZulu s).toList[4]? = some '-' := by
    rw [hs', List.getElem?_append_left (by omega)]
    exact t.get_four
  have hfive : (replaceZulu s).toList[5]? ≠ some 'W' := by
    rw [hs', List.getElem?_append_left (by omega)]
    exact t.get_five
  have hlong : 9 ≤ (replaceZulu s).toList.length := by
    rw [hs', List.length_append, List.length_cons]
    omega
  have hprefix : e.isoformat.toList <+: (replaceZulu s).toList := by
    have hseparator : isoSeparator (replaceZulu s).toList = some 10 := by
      rw [isoSeparator, if_neg (by omega), if_pos hfour, if_neg hfive]
    simp only [fromisoformat] at he
    rw [if_neg (by omega), hseparator, Option.bind_some, Option.bind_eq_some_iff] at he
    obtain ⟨d', hpart, he⟩ := he
    split_ifs at he
    cases he
    refine (isoDatePart_isoformat hpart ?_ ?_).trans (List.take_prefix _ _)
    · rw [List.getElem?_take_of_lt (by norm_num), hfour]
    · rw [List.getElem?_take_of_lt (by norm_num)]
      exact hfive
  -- it ends before the `T`
  have hshort : e.isoformat.toList <+: cs := by
    rw [hs'] at hprefix
    rcases List.prefix_or_prefix_of_prefix hprefix (List.prefix_append cs _) with h | ⟨tail, htail⟩
    · exact h
    · rw [← htail, List.prefix_append_right_inj] at hprefix
      cases tail with
      | nil => exact ⟨[], (List.append_nil _).trans (htail.symm.trans (List.append_nil _))⟩
      | cons c tail =>
        obtain ⟨rfl, -⟩ := List.cons_prefix_cons.mp hprefix
        refine absurd ?_ (T_not_mem_isoformat e)
        rw [← htail]
        exact List.mem_append_right _ List.mem_cons_self
  rw [← String.toList_inj.mp ((t.eq_of_prefix hshort).trans hcs.symm), strptimeDate_isoformat] at hd
  exact (Option.some.inj hd).symm

end ProjectEvaluation.Python
