import ProjectEvaluation.Pages.Catalog
import ProjectEvaluation.Properties.StoredRows

/-!
# The records of learning sessions

The catalog page sends the start and the end of a session as texts, and the handlers parse
them again.

Results:
* `start_stored_iff`: when the stored date and start time are those of the start.
* `kept_iff_credited_iff`: when the page keeps a record if and only if the server counts it.
* `duration_monotone_iff`: when a longer session counts at least as much.
-/

namespace ProjectEvaluation.Pages

open Calendar (dateOf)
open Python JavaScript Relational Backend

/-! ## Sessions -/

/-- A session: who opens an attachment of which courseware, when, and when the viewer is closed. -/
structure Learning where
  offset : ℤ
  user : Option String
  courseware : ℕ
  startTime : TimeValue
  endTime : TimeValue
  ordered : startTime.ms ≤ endTime.ms

namespace Learning

/-- The request at the start. -/
def start (s : Learning) : Request := startRequest s.offset s.user s.courseware s.startTime.ms

/-- The first request at the end. -/
def close (s : Learning) (id : ℕ) : Request :=
  closeRequest s.offset s.user s.courseware s.startTime.ms s.endTime.ms id

/-- The database after `handleViewerModalClose`: a request that fails is the last one. -/
def closed (s : Learning) (k k' : Clock) (id : ℕ) (db : DB) : DB :=
  let saved := handle k (s.close id) db
  if saved.1.Success then
    (shortRequest s.startTime.ms s.endTime.ms id).elim saved.2 fun request =>
      (handle k' request saved.2).2
  else saved.2

/-- The length of a session in milliseconds. -/
def length (s : Learning) : ℤ := s.endTime.ms - s.startTime.ms

/-- The milliseconds of the minute in which a session starts that are over then. -/
def intoMinute (s : Learning) : ℤ := (s.startTime.ms + s.offset) % 60000

/-- The milliseconds on the local clock from the minute of the start to the end; they are
    negative after midnight. -/
def clockSpan (s : Learning) : ℤ :=
  (s.endTime.ms + s.offset) % msPerDay - (s.startTime.ms + s.offset) % msPerDay + s.intoMinute

end Learning

/-- A session of the administrator with the first courseware on January 5, 2024, at times in UTC. -/
def administrator (offset : ℤ) (startTime endTime : ℕ)
    (h : startTime ≤ endTime ∧ endTime ≤ 172800000) : Learning where
  offset := offset
  user := some "管理员"
  courseware := 1
  startTime := ⟨1704412800000 + startTime, by omega⟩
  endTime := ⟨1704412800000 + endTime, by omega⟩
  ordered := by simpa using h.1

/-- The database with the new record of a session. -/
def started (s : Learning) : DB := (handle .epoch s.start (DB.ofRows [])).2

/-! ## What the handlers store -/

/-- A row has the data of a session, with the end `endTime`. -/
structure RecordsSession (offset : ℤ) (startTime endTime : TimeValue) (row : Record) : Prop where
  date : ∃ d : Date, row.cell .learningDate = .date d ∧ d.toCalendar = dateOf (utcDay startTime.ms)
  start : row.cell .startTime = .time (localTime offset startTime.ms)
  «end» : row.cell .endTime = .time (localTime offset endTime.ms)
  duration : row.cell .learningDuration =
    .text (durationText (localTime offset startTime.ms) (localTime offset endTime.ms))

/-- The texts in the body of a session. -/
theorem learningRecordData_items (offset : ℤ) (user : Option String) (courseware : ℕ)
    (startTime endTime : ℤ) :
    (learningRecordData offset user courseware startTime endTime).item .learningDate =
        .ok (.str (formatDate startTime)) ∧
      (learningRecordData offset user courseware startTime endTime).item .startTime =
        .ok (.str (formatTime offset startTime)) ∧
      (learningRecordData offset user courseware startTime endTime).item .endTime =
        .ok (.str (formatTime offset endTime)) := by
  unfold learningRecordData
  exact ⟨rfl, rfl, rfl⟩

/-- What the handlers read off the body of a session. -/
theorem learning_reads {offset : ℤ} {user : Option String} {courseware : ℕ}
    {startTime endTime : TimeValue}
    {input : LearningInput} {db : DB}
    (h : input.Reads (learningRecordData offset user courseware startTime.ms endTime.ms) db) :
    input.day.toCalendar = dateOf (utcDay startTime.ms) ∧
      input.startTime = localTime offset startTime.ms ∧
      input.endTime = localTime offset endTime.ms := by
  obtain ⟨hdateItem, hstartItem, hendItem⟩ :=
    learningRecordData_items offset user courseware startTime.ms endTime.ms
  have hday := h.day
  have hstart := h.startTime
  have hend := h.endTime
  rw [hdateItem, Except.bind, parseDay, formatDate, strptimeDate_split] at hday
  rw [hstartItem, Except.bind, parseTime, formatTime, strptimeTime_substring] at hstart
  rw [hendItem, Except.bind, parseTime, formatTime, strptimeTime_substring] at hend
  refine ⟨?_, (Except.ok.inj hstart).symm, (Except.ok.inj hend).symm⟩
  cases hdate : Date.ofCalendar (dateOf (utcDay startTime.ms)) with
  | none =>
    rw [hdate] at hday
    cases hday
  | some d =>
    rw [hdate] at hday
    cases hday
    exact Date.ofCalendar_eq_some.mp hdate

theorem recordsSession_of_reads {offset : ℤ} {user : Option String} {courseware : ℕ}
    {startTime endTime : TimeValue}
    {input : LearningInput} {db : DB} {row : Record}
    (hreads : input.Reads (learningRecordData offset user courseware startTime.ms endTime.ms) db)
    (h : input.StoredIn row) : RecordsSession offset startTime endTime row := by
  obtain ⟨hday, hstart, hend⟩ := learning_reads hreads
  refine ⟨⟨input.day, h.day, hday⟩, ?_, ?_, ?_⟩
  · rw [h.startTime, hstart]
  · rw [h.endTime, hend]
  · rw [h.duration, hstart, hend]

/-- **The row of a new record.** -/
theorem start_records {s : Learning} {k : Clock} {db : DB}
    (hgood : (handle k s.start db).1.Success) :
    ∃ row, find ((handle k s.start db).2 .learningRecord) (nextId (db .learningRecord)) = some row ∧
      RecordsSession s.offset s.startTime s.startTime row := by
  unfold Learning.start startRequest at hgood ⊢
  obtain ⟨input, row, hreads, hstored, hfind⟩ := learningRecord_created hgood
  exact ⟨row, hfind, recordsSession_of_reads hreads hstored⟩

/-- **The row of a record when the viewer is closed.** -/
theorem close_records {s : Learning} {k : Clock} {id : ℕ} {db : DB}
    (hgood : (handle k (s.close id) db).1.Success) :
    ∃ row, find ((handle k (s.close id) db).2 .learningRecord) id = some row ∧
      RecordsSession s.offset s.startTime s.endTime row := by
  unfold Learning.close closeRequest at hgood ⊢
  obtain ⟨input, row, hreads, hstored, hfind⟩ := learningRecord_updated hgood
  exact ⟨row, hfind, recordsSession_of_reads hreads hstored⟩

/-! ## The start -/

/-- A row has the local date and the local hour and minute of the start. -/
def ShowsStart (s : Learning) (row : Record) : Prop :=
  (∃ d : Date, row.cell .learningDate = .date d ∧
    d.toCalendar = dateOf (localDay s.offset s.startTime.ms)) ∧
    row.cell .startTime = .time (localTime s.offset s.startTime.ms)

/-- The date is that of the start in UTC. -/
theorem RecordsSession.showsStart_iff {s : Learning} {endTime : TimeValue} {row : Record}
    (h : RecordsSession s.offset s.startTime endTime row) :
    ShowsStart s row ↔ localDay s.offset s.startTime.ms = utcDay s.startTime.ms := by
  obtain ⟨d, hcell, hd⟩ := h.date
  constructor
  · rintro ⟨⟨e, hcell', he⟩, -⟩
    cases hcell.symm.trans hcell'
    exact Calendar.dateOf_injective (he.symm.trans hd)
  · intro hday
    exact ⟨⟨d, hcell, by rw [hd, hday]⟩, h.start⟩

/-- **The record has the local date and time of the start** if and only if the time of the day in
    UTC and the offset stay within the day. The request is that of the start or that of the end. -/
theorem start_stored_iff (s : Learning) {k : Clock} {db : DB} {request : Request} {id : ℕ}
    {row : Record}
    (hrequest : request = s.start ∧ id = nextId (db .learningRecord) ∨ request = s.close id)
    (hgood : (handle k request db).1.Success)
    (hrow : find ((handle k request db).2 .learningRecord) id = some row) :
    ShowsStart s row ↔
      0 ≤ s.startTime.ms % msPerDay + s.offset ∧
        s.startTime.ms % msPerDay + s.offset < msPerDay := by
  rw [← localDay_eq_utcDay]
  rcases hrequest with ⟨rfl, rfl⟩ | rfl
  · obtain ⟨row', hrow', hrecorded⟩ := start_records hgood
    cases hrow.symm.trans hrow'
    exact hrecorded.showsStart_iff
  · obtain ⟨row', hrow', hrecorded⟩ := close_records hgood
    cases hrow.symm.trans hrow'
    exact hrecorded.showsStart_iff

/-- From 22:00 in UTC, which is 06:00 of the next day eight hours to the east. -/
def earlyMorning : Learning := administrator 28800000 79200000 82800000 (by omega)

/-- The date is the day before. -/
theorem start_stored_wrong :
    ∃ row, find ((handle .epoch earlyMorning.start (DB.ofRows [])).2 .learningRecord) 1 = some row ∧
      ¬ ShowsStart earlyMorning row := by
  obtain ⟨row, hrow, hrecorded⟩ :=
    start_records
      (show (handle .epoch earlyMorning.start (DB.ofRows [])).1.Success by decide +kernel)
  exact ⟨row, hrow, hrecorded.showsStart_iff.not.mpr (by decide +kernel)⟩

/-- From 10:00 to 10:40 in UTC. -/
def lateMorning : Learning := administrator 0 36000000 38400000 (by omega)

theorem start_stored_iff_utc :
    ∃ row, find ((handle .epoch lateMorning.start (DB.ofRows [])).2 .learningRecord) 1 = some row ∧
      ShowsStart lateMorning row := by
  obtain ⟨row, hrow, -⟩ :=
    start_records
      (show (handle .epoch lateMorning.start (DB.ofRows [])).1.Success by decide +kernel)
  exact ⟨row, hrow, (start_stored_iff lateMorning (Or.inl ⟨rfl, rfl⟩) (by decide +kernel) hrow).mpr
    (by decide)⟩

/-! ## The duration -/

/-- The minutes of a local time since midnight. -/
theorem localTime_minutes (offset t : ℤ) :
    (localTime offset t).hour * 60 + (localTime offset t).minute =
      timeWithinDay (t + offset) / 60000 := by
  show timeWithinDay (t + offset) / 3600000 * 60 + timeWithinDay (t + offset) / 60000 % 60 = _
  omega

/-- **The duration in milliseconds**: the server subtracts two times cut to the minute. -/
theorem durationText_span (s : Learning) :
    durationText (localTime s.offset s.startTime.ms) (localTime s.offset s.endTime.ms) =
      if 1800000 ≤ s.clockSpan ∧ s.clockSpan < 3600000 then "0.5h"
      else if 3600000 ≤ s.clockSpan ∧ s.clockSpan < 5400000 then "1h"
      else if 5400000 ≤ s.clockSpan ∧ s.clockSpan < 7200000 then "2h"
      else "0h" := by
  have hminute : s.intoMinute = ((s.startTime.ms + s.offset) % msPerDay) % 60000 := by
    unfold Learning.intoMinute msPerDay
    omega
  have hspan : s.clockSpan =
      (timeWithinDay (s.endTime.ms + s.offset) : ℤ) - timeWithinDay (s.startTime.ms + s.offset) +
      (timeWithinDay (s.startTime.ms + s.offset) : ℤ) % 60000 := by
    rw [Learning.clockSpan, hminute, timeWithinDay_cast, timeWithinDay_cast]
  simp only [durationText, localTime_minutes, hspan]
  generalize timeWithinDay (s.startTime.ms + s.offset) = a
  generalize timeWithinDay (s.endTime.ms + s.offset) = b
  -- a bound in minutes is one in milliseconds
  have hminutes : ∀ n : ℤ, n ≤ ((b / 60000 : ℕ) : ℤ) - ((a / 60000 : ℕ) : ℤ) ↔
      n * 60000 ≤ (b : ℤ) - a + (a : ℤ) % 60000 := by
    intro n
    omega
  simp only [← not_le, hminutes]
  norm_num

/-- The page keeps the record: it is there after the requests at the end. -/
def Kept (s : Learning) (k k' : Clock) (id : ℕ) (db : DB) : Prop :=
  (find (s.closed k k' id db .learningRecord) id).isSome = true

instance (s : Learning) (k k' : Clock) (id : ℕ) (db : DB) : Decidable (Kept s k k' id db) := by
  unfold Kept; infer_instance

/-- **The page keeps a record** of 29.5 minutes and more. -/
theorem kept_iff {s : Learning} {k k' : Clock} {id : ℕ} {db : DB}
    (hgood : (handle k (s.close id) db).1.Success) :
    Kept s k k' id db ↔ 1770000 ≤ s.length := by
  obtain ⟨row, hrow, -⟩ := close_records hgood
  have hid : id < 2 ^ 63 := by
    unfold Learning.close closeRequest at hgood
    exact update_id_lt hgood
  have hlength : durationMinutes s.startTime.ms s.endTime.ms < 30 ↔ s.length < 1770000 := by
    unfold durationMinutes Learning.length
    omega
  rw [Kept, Learning.closed, if_pos hgood, shortRequest]
  by_cases hshort : durationMinutes s.startTime.ms s.endTime.ms < 30
  · rw [if_pos hshort, Option.elim_some]
    have hremoved :=
      (run_delete_unreferenced (t := .learningRecord) (by decide) "学习记录不存在" "学习记录删除成功" hid
      (handle k (s.close id) db).2).1
    have hgone : find ((handle k' (.delete .learningRecord id) (handle k (s.close id) db).2).2
        .learningRecord) id =
        none := by
      show find ((run (deleteLearningRecord id) (handle k (s.close id) db).2).2 .learningRecord)
        id = none
      rw [deleteLearningRecord, hremoved, find_eq_none]
      intro r hr
      have hkept := (mem_removeWhere.mp hr).2 rfl
      simpa using hkept
    rw [hgone]
    exact iff_of_false nofun (not_le.mpr (hlength.mp hshort))
  · rw [if_neg hshort, Option.elim_none, hrow]
    exact iff_of_true rfl (not_lt.mp (hlength.not.mp hshort))

/-- The place of a duration in the order `0h`, `0.5h`, `1h`, `2h`. -/
def credit (row : Record) : ℕ :=
  match row.cell .learningDuration with
  | .text "0.5h" => 1
  | .text "1h" => 2
  | .text "2h" => 3
  | _ => 0

theorem credit_of_recorded {s : Learning} {row : Record}
    (h : RecordsSession s.offset s.startTime s.endTime row) :
    credit row =
      if 1800000 ≤ s.clockSpan ∧ s.clockSpan < 3600000 then 1
      else if 3600000 ≤ s.clockSpan ∧ s.clockSpan < 5400000 then 2
      else if 5400000 ≤ s.clockSpan ∧ s.clockSpan < 7200000 then 3
      else 0 := by
  rw [credit, h.duration, durationText_span]
  split_ifs <;> rfl

/-- The first session counts for nothing on the clock, or the second one lasts less than two hours
    on it and as many of the bounds at 30, 60 and 90 minutes as the first. -/
def ClockOrdered (s₁ s₂ : Learning) : Prop :=
  s₁.clockSpan < 1800000 ∨ 7200000 ≤ s₁.clockSpan ∨
    s₂.clockSpan < 7200000 ∧ ∀ bound ∈ [1800000, 3600000, 5400000],
      bound ≤ s₁.clockSpan → bound ≤ s₂.clockSpan

/-- **One session counts at most as much as another** exactly where the times on the local clocks
    are ordered, also if both are kept and the first is not longer. -/
theorem duration_monotone_iff (s₁ s₂ : Learning) {k₁ k₂ : Clock} {id₁ id₂ : ℕ} {db₁ db₂ : DB}
    {row₁ row₂ : Record}
    (hgood₁ : (handle k₁ (s₁.close id₁) db₁).1.Success)
    (hgood₂ : (handle k₂ (s₂.close id₂) db₂).1.Success)
    (hrow₁ : find ((handle k₁ (s₁.close id₁) db₁).2 .learningRecord) id₁ = some row₁)
    (hrow₂ : find ((handle k₂ (s₂.close id₂) db₂).2 .learningRecord) id₂ = some row₂) :
    credit row₁ ≤ credit row₂ ↔ ClockOrdered s₁ s₂ := by
  obtain ⟨row, hrow, hrecorded₁⟩ := close_records hgood₁
  cases hrow₁.symm.trans hrow
  obtain ⟨row, hrow, hrecorded₂⟩ := close_records hgood₂
  cases hrow₂.symm.trans hrow
  rw [credit_of_recorded hrecorded₁, credit_of_recorded hrecorded₂]
  simp only [ClockOrdered, List.forall_mem_cons, List.not_mem_nil, false_imp_iff,
    implies_true, and_true]
  split_ifs <;> omega

/-- From 10:00 to 10:30 in UTC. -/
def halfAnHour : Learning := administrator 0 36000000 37800000 (by omega)

/-- From 23:40 to 00:20 in UTC. -/
def overMidnight : Learning := administrator 0 85200000 87600000 (by omega)

/-- Forty minutes over midnight count for nothing. -/
theorem longer_counts_less :
    halfAnHour.length ≤ overMidnight.length ∧
      (handle .epoch (halfAnHour.close 1) (started halfAnHour)).1.Success ∧
      (handle .epoch (overMidnight.close 1) (started overMidnight)).1.Success ∧
      Kept halfAnHour .epoch .epoch 1 (started halfAnHour) ∧
        Kept overMidnight .epoch .epoch 1 (started overMidnight) ∧
      (find ((handle .epoch (halfAnHour.close 1) (started halfAnHour)).2 .learningRecord) 1).map
        credit = some 1 ∧
      (find ((handle .epoch (overMidnight.close 1) (started overMidnight)).2 .learningRecord) 1).map
        credit =
        some 0 := by
  decide +kernel

theorem duration_monotone_iff_forty_minutes :
    Kept halfAnHour .epoch .epoch 1 (started halfAnHour) ∧
      Kept lateMorning .epoch .epoch 1 (started lateMorning) ∧
      ∃ row₁ row₂, find ((handle .epoch (halfAnHour.close 1) (started halfAnHour)).2
        .learningRecord) 1 = some row₁ ∧
        find ((handle .epoch (lateMorning.close 1) (started lateMorning)).2 .learningRecord) 1 =
          some row₂ ∧
        credit row₁ ≤ credit row₂ := by
  have hgood₁ : (handle .epoch (halfAnHour.close 1) (started halfAnHour)).1.Success := by
    decide +kernel
  have hgood₂ : (handle .epoch (lateMorning.close 1) (started lateMorning)).1.Success := by
    decide +kernel
  obtain ⟨row₁, hrow₁, -⟩ := close_records hgood₁
  obtain ⟨row₂, hrow₂, -⟩ := close_records hgood₂
  have hordered : ClockOrdered halfAnHour lateMorning := Or.inr (Or.inr (by decide))
  exact ⟨by decide +kernel, by decide +kernel, row₁, row₂, hrow₁, hrow₂,
    (duration_monotone_iff halfAnHour lateMorning hgood₁ hgood₂ hrow₁ hrow₂).mpr hordered⟩

end ProjectEvaluation.Pages
