import ProjectEvaluation.Lib.Machine
import ProjectEvaluation.Pages.CatalogViewer
import ProjectEvaluation.Properties.LearningRecords

/-!
# The records of sessions that overlap

Results:
* `Inv.step`: where the sessions do not disturb each other, every row waits for its end, has an
  update on its way, or has the end.
* `records_settled`: so when the viewer is closed and nothing is on its way, every row has the end.
-/

namespace ProjectEvaluation.Pages.Viewer

open JavaScript Python Relational Transaction Backend Machine

variable {offset : ℤ} {user : Option String} {s s' : ViewerState}

/-! ## What is claimed of a run -/

/-- The viewer was closed at the end of a session. -/
def ViewerState.Ended (s : ViewerState) (session : Session) : Prop :=
  ∃ entry ∈ s.ended, entry.1 = session

instance (session : Session) : Decidable (s.Ended session) := by
  unfold ViewerState.Ended; infer_instance

/-- The row with an id has the end of a session. -/
def ViewerState.HasEnd (offset : ℤ) (s : ViewerState) (id : ℕ) (session : Session) : Prop :=
  ∃ row ∈ find (s.db .learningRecord) id, ∃ entry ∈ s.ended, entry.1 = session ∧
    row.cell .endTime = .time (localTime offset entry.2.ms)

/-- Every record that the page has made and that was not deleted has the end of the session it was
    made for. -/
def ViewerState.Settled (offset : ℤ) (s : ViewerState) : Prop :=
  ∀ record ∈ s.records, s.HasEnd offset record.1 record.2

instance : Decidable (s.Settled offset) := by
  unfold ViewerState.Settled ViewerState.HasEnd; infer_instance

/-! ## The condition -/

/-- The session of the page, if there is one, has ended. -/
def ViewerState.Free (s : ViewerState) : Prop := ∀ session ∈ s.learning, s.Ended session

instance : Decidable s.Free := by
  unfold ViewerState.Free; infer_instance

/-- An event does not disturb a session. A course is started, and the page is reset, only when the
    session of the page has ended; the id of a new record comes to a page of its own session, or
    of one that has ended; the page is closed for the record of its own session; and an update
    gets to the row of its own session. -/
def ViewerEvent.Undisturbed (s : ViewerState) : ViewerEvent → Prop
  | .start _ attachment _ => (attachmentType attachment).isSome → s.Free
  | .close _ =>
    match s.learning, s.currentLearningRecordId with
    | some session, some id => (id, session) ∈ s.records
    | _, _ => s.Free
  | .serve _ m =>
    match m with
    | .put session id _ => (id, session) ∈ s.records
    | _ => True
  | .receive m =>
    match m with
    | .created session _ => s.learning = some session ∨ s.Free
    | .saved session _ endTime => 30 ≤ durationMinutes session.startTime.ms endTime.ms → s.Free
    | .deleted => s.Free
    | _ => True

instance (e : ViewerEvent) : Decidable (e.Undisturbed s) := by
  cases e with
  | start _ _ _ => unfold ViewerEvent.Undisturbed; infer_instance
  | close _ => simp only [ViewerEvent.Undisturbed]; split <;> infer_instance
  | serve _ m => simp only [ViewerEvent.Undisturbed]; split <;> infer_instance
  | receive m => simp only [ViewerEvent.Undisturbed]; split <;> infer_instance

/-! ## What the requests do to the rows -/

/-- **POST.** -/
theorem post_rows {k : Clock} {session : Session} {db : DB}
    (hgood : (handle k (startRequest offset user session.courseware session.startTime.ms)
      db).1.Success) :
    idOf (handle k (startRequest offset user session.courseware session.startTime.ms) db).1.body =
        nextId (db .learningRecord) ∧
      (∃ row, row ∈
        find ((handle k (startRequest offset user session.courseware session.startTime.ms) db).2
        .learningRecord) (nextId (db .learningRecord))) ∧
      ∀ id row, row ∈ find (db .learningRecord) id →
        row ∈
          find ((handle k (startRequest offset user session.courseware session.startTime.ms) db).2
          .learningRecord) id := by
  unfold startRequest at hgood ⊢
  generalize learningRecordData offset user session.courseware session.startTime.ms
    session.startTime.ms = data
    at hgood ⊢
  obtain ⟨_, _, row, -, -, -, hid, hrows⟩ := create_stores (r := .learningRecord) (by decide) hgood
  refine ⟨?_, ⟨row, find_new hid hrows⟩, fun id q hq => ?_⟩
  · have hrun : handle k (.create .learningRecord (.json data)) db =
        run (createHandler k .learningRecord
          (fun data db => ((learningValues data db).bind evaluateAll).map .inr)
          (fun record _ => renderLearningRecord dayText timeText record) (.json data)) db := rfl
    rw [hrun] at hgood ⊢
    obtain ⟨record, -, hrecord, hreply⟩ := create_answers (fun _ h => absurd h map_inr_inl) hgood
    obtain ⟨date, -, hreply⟩ := do_eq_ok.mp hreply
    obtain ⟨startTime, -, hreply⟩ := do_eq_ok.mp hreply
    obtain ⟨endTime, -, hreply⟩ := do_eq_ok.mp hreply
    rw [← Except.ok.inj hreply]
    exact hrecord
  · change find ((handle k (.create .learningRecord (.json data)) db).2
      Resource.learningRecord.table) id = some q
    rw [hrows]
    exact find_append_old hq row

/-- **PUT.** -/
theorem put_rows {k : Clock} {session : Session} {id : ℕ} {endTime : TimeValue} {db : DB}
    (hgood : (handle k (closeRequest offset user session.courseware session.startTime.ms endTime.ms
      id) db).1.Success) :
    (∃ row ∈ find ((handle k
      (closeRequest offset user session.courseware session.startTime.ms endTime.ms id) db).2
        .learningRecord) id, row.cell .endTime = .time (localTime offset endTime.ms)) ∧
      ∀ id', id' ≠ id →
        find ((handle k
          (closeRequest offset user session.courseware session.startTime.ms endTime.ms id) db).2
          .learningRecord) id' = find (db .learningRecord) id' := by
  unfold closeRequest at hgood ⊢
  obtain ⟨input, row, hreads, hstored, hfind⟩ := learningRecord_updated hgood
  refine ⟨⟨row, hfind, (recordsSession_of_reads hreads hstored).end⟩, fun id' hne => ?_⟩
  exact update_find_other (r := .learningRecord) (by decide) hgood hne

/-- **DELETE.** -/
theorem delete_rows {k : Clock} {id : ℕ} {db : DB}
    (hgood : (handle k (.delete .learningRecord id) db).1.Success)
    {id' : ℕ} (hne : id' ≠ id) :
    find ((handle k (.delete .learningRecord id) db).2 .learningRecord) id' =
      find (db .learningRecord) id' := by
  rcases handle_delete k .learningRecord id db with ⟨hbad, -⟩ | ⟨-, _, _, hid, -⟩
  · exact absurd hgood hbad
  · have hremoved :=
      (run_delete_unreferenced (t := .learningRecord) (by decide) "学习记录不存在" "学习记录删除成功" hid db).1
    change (handle k (.delete .learningRecord id) db).2 = _ at hremoved
    rw [hremoved, find_removeWhere_ne db .learningRecord hne]

/-! ## The invariant -/

/-- A row waits for the end of its session, which is that of the page: the page gets the id, or has
    it and is open. -/
def ViewerState.Waits (s : ViewerState) (id : ℕ) (session : Session) : Prop :=
  s.learning = some session ∧ ¬ s.Ended session ∧
    (Message.created session id ∈ s.messages ∨ s.currentLearningRecordId = some id ∧
      s.viewerModalVisible = true)

/-- An update of a row is on its way. -/
def ViewerState.Updating (s : ViewerState) (id : ℕ) (session : Session) : Prop :=
  ∃ endTime, Message.put session id endTime ∈ s.messages

/-- The session of the page, or one that the page was told of or has ended, or that has a row. -/
def ViewerState.Mentions (s : ViewerState) (session : Session) : Prop :=
  s.learning = some session ∨ (∃ id, Message.created session id ∈ s.messages) ∨
    (∃ record ∈ s.records, record.2 = session) ∨ s.Ended session

/-- **The invariant.** -/
structure Inv (offset : ℤ) (s : ViewerState) : Prop where
  stored : ∀ record ∈ s.records, ∃ row, row ∈ find (s.db .learningRecord) record.1
  rows : ∀ record ∈ s.records, s.Waits record.1 record.2 ∨ s.Updating record.1 record.2 ∨
    s.HasEnd offset record.1 record.2
  keys : ∀ a ∈ s.records, ∀ b ∈ s.records, a.1 = b.1 → a = b
  sessions : ∀ a ∈ s.records, ∀ b ∈ s.records, a.2 = b.2 → a = b
  created : ∀ session id, .created session id ∈ s.messages → ∀ record ∈ s.records,
    record.2 = session → record.1 = id
  posts : ∀ session, .post session ∈ s.messages → s.learning = some session ∧ ¬ s.Ended session ∧
    (∀ record ∈ s.records, record.2 ≠ session) ∧ ∀ id, .created session id ∉ s.messages
  once : ∀ session, s.messages.count (.post session) ≤ 1
  puts : ∀ session id endTime, .put session id endTime ∈ s.messages → (session, endTime) ∈ s.ended
  fresh : ∀ session, s.Mentions session → session.number < s.clicks

theorem inv_open (db : DB) : Inv offset (.open db) where
  stored _ h := nomatch h
  rows _ h := nomatch h
  keys _ h := nomatch h
  sessions _ h := nomatch h
  created _ _ h := nomatch h
  posts _ h := nomatch h
  once _ := Nat.zero_le 1
  puts _ _ _ h := nomatch h
  fresh := by
    rintro session (h | ⟨id, h⟩ | ⟨record, h, -⟩ | ⟨entry, h, -⟩) <;> cases h

/-- Of a free page no row waits. -/
theorem not_waits (hfree : s.Free) {id : ℕ} {session : Session} : ¬ s.Waits id session :=
  fun h => h.2.1 (hfree session h.1)

/-- A free page has sent no request that still makes a record. -/
theorem Inv.no_post (h : Inv offset s) (hfree : s.Free) (session : Session) :
    Message.post session ∉ s.messages :=
  fun hmem => (h.posts session hmem).2.1 (hfree session (h.posts session hmem).1)

/-- The messages that no row depends on. -/
def Message.silent : Message → Bool
  | .saved _ _ _ | .delete _ | .deleted => true
  | _ => false

/-! ## Clicks -/

theorem Inv.start (h : Inv offset s) (hfree : s.Free) (courseware : ℕ) (startTime : TimeValue) :
    Inv offset (s.start courseware startTime) := by
  have hnew : ¬ s.Mentions { number := s.clicks, courseware, startTime } :=
    fun hmentions => absurd (h.fresh _ hmentions) (lt_irrefl _)
  have hmem : ∀ {m : Message}, m ∈ (s.start courseware startTime).messages ↔
      m ∈ s.messages ∨ m = .post { number := s.clicks, courseware, startTime } := by
    intro m
    show m ∈ s.messages ++ [_] ↔ _
    rw [List.mem_append, List.mem_singleton]
  constructor
  · exact h.stored
  · intro record hrecord
    rcases h.rows record hrecord with hwaits | ⟨e, hput⟩ | hend
    · exact absurd hwaits (not_waits hfree)
    · exact Or.inr (Or.inl ⟨e, hmem.mpr (Or.inl hput)⟩)
    · exact Or.inr (Or.inr hend)
  · exact h.keys
  · exact h.sessions
  · intro session id hcreated
    rcases hmem.mp hcreated with hcreated | hcreated
    · exact h.created session id hcreated
    · cases hcreated
  · intro session hpost
    rcases hmem.mp hpost with hpost | hpost
    · exact absurd hpost (h.no_post hfree session)
    · cases hpost
      refine ⟨rfl, fun hended => hnew (Or.inr (Or.inr (Or.inr hended))),
        fun record hrecord heq => hnew (Or.inr (Or.inr (Or.inl ⟨record, hrecord, heq⟩))),
        fun id hcreated => ?_⟩
      rcases hmem.mp hcreated with hcreated | hcreated
      · exact hnew (Or.inr (Or.inl ⟨id, hcreated⟩))
      · cases hcreated
  · intro session
    have hzero : s.messages.count (Message.post session) = 0 :=
      List.count_eq_zero_of_not_mem (h.no_post hfree session)
    show (s.messages ++ [_]).count (Message.post session) ≤ 1
    rw [List.count_append, hzero, Nat.zero_add]
    exact List.count_le_length
  · intro session id endTime hput
    rcases hmem.mp hput with hput | hput
    · exact h.puts session id endTime hput
    · cases hput
  · rintro session (hlearning | ⟨id, hcreated⟩ | hrecord | hended)
    · cases hlearning
      exact Nat.lt_succ_self s.clicks
    · rcases hmem.mp hcreated with hcreated | hcreated
      · exact Nat.lt_succ_of_lt (h.fresh session (Or.inr (Or.inl ⟨id, hcreated⟩)))
      · cases hcreated
    · exact Nat.lt_succ_of_lt (h.fresh session (Or.inr (Or.inr (Or.inl hrecord))))
    · exact Nat.lt_succ_of_lt (h.fresh session (Or.inr (Or.inr (Or.inr hended))))

/-- The page is reset when its session has ended. -/
theorem Inv.reset (h : Inv offset s) (hfree : s.Free) : Inv offset s.reset where
  stored := h.stored
  rows record hrecord := Or.inr ((h.rows record hrecord).resolve_left (not_waits hfree))
  keys := h.keys
  sessions := h.sessions
  created := h.created
  posts session hpost := absurd hpost (h.no_post hfree session)
  once := h.once
  puts := h.puts
  fresh := by
    rintro session (hlearning | hmentions)
    · cases hlearning
    · exact h.fresh session (Or.inr hmentions)

theorem ended_finish {endTime : TimeValue} {session : Session} :
    (s.finish endTime).Ended session ↔ s.Ended session ∨ s.learning = some session := by
  constructor
  · rintro ⟨entry, hentry, rfl⟩
    rcases List.mem_append.mp hentry with hentry | hentry
    · exact Or.inl ⟨entry, hentry, rfl⟩
    · obtain ⟨x, hx, rfl⟩ := Option.map_eq_some_iff.mp (Option.mem_toList.mp hentry)
      exact Or.inr hx
  · rintro (⟨entry, hentry, rfl⟩ | hlearning)
    · exact ⟨entry, List.mem_append_left _ hentry, rfl⟩
    · refine ⟨(session, endTime), List.mem_append_right _ ?_, rfl⟩
      rw [hlearning]
      exact List.mem_singleton.mpr rfl

theorem hasEnd_finish {endTime : TimeValue} {id : ℕ} {session : Session}
    (h : s.HasEnd offset id session) :
    (s.finish endTime).HasEnd offset id session := by
  obtain ⟨row, hrow, entry, hentry, hend⟩ := h
  exact ⟨row, hrow, entry, List.mem_append_left _ hentry, hend⟩

/-- The session of a free page ends again. -/
theorem Inv.finish (h : Inv offset s) (hfree : s.Free) (endTime : TimeValue) :
    Inv offset (s.finish endTime) where
  stored := h.stored
  rows record hrecord :=
    Or.inr (((h.rows record hrecord).resolve_left (not_waits hfree)).imp_right hasEnd_finish)
  keys := h.keys
  sessions := h.sessions
  created := h.created
  posts session hpost := absurd hpost (h.no_post hfree session)
  once := h.once
  puts session id e hput := List.mem_append_left _ (h.puts session id e hput)
  fresh := by
    rintro session (hlearning | hcreated | hrecord | hended)
    · exact h.fresh session (Or.inl hlearning)
    · exact h.fresh session (Or.inr (Or.inl hcreated))
    · exact h.fresh session (Or.inr (Or.inr (Or.inl hrecord)))
    · exact h.fresh session
        ((ended_finish.mp hended).elim (fun h => Or.inr (Or.inr (Or.inr h))) Or.inl)

theorem free_finish (endTime : TimeValue) : (s.finish endTime).Free :=
  fun _ h => ended_finish.mpr (Or.inr h)

theorem Inv.close (h : Inv offset s) {endTime : TimeValue}
    (hgood : (ViewerEvent.close endTime).Undisturbed s) :
    Inv offset (s.close endTime) := by
  have hreset : s.Free → Inv offset (s.finish endTime).reset := fun hfree =>
    (h.finish hfree endTime).reset (free_finish endTime)
  unfold ViewerEvent.Undisturbed at hgood
  unfold ViewerState.close
  cases hlearning : s.learning with
  | none =>
    rw [hlearning] at hgood
    exact hreset hgood
  | some session =>
    cases hid : s.currentLearningRecordId with
    | none =>
      rw [hlearning, hid] at hgood
      exact hreset hgood
    | some id =>
      rw [hlearning, hid] at hgood
      have hmem : ∀ {m : Message}, m ∈ s.messages ++ [.put session id endTime] ↔
          m ∈ s.messages ∨ m = .put session id endTime := by
        intro m
        rw [List.mem_append, List.mem_singleton]
      have hended : (session, endTime) ∈ (s.finish endTime).ended := by
        refine List.mem_append_right _ ?_
        rw [hlearning]
        exact List.mem_singleton.mpr rfl
      -- the session has a row, so its request is not on its way
      have hposts : ∀ x, Message.post x ∉ s.messages := by
        intro x hpost
        obtain ⟨hx, -, hnone, -⟩ := h.posts x hpost
        exact hnone _ hgood (Option.some.inj (hlearning.symm.trans hx))
      constructor
      · exact h.stored
      · intro record hrecord
        rcases h.rows record hrecord with ⟨hx, -⟩ | ⟨e, hput⟩ | hend
        · obtain rfl : (id, session) = record :=
            h.sessions _ hgood record hrecord (Option.some.inj (hlearning.symm.trans hx))
          exact Or.inr (Or.inl ⟨endTime, hmem.mpr (Or.inr rfl)⟩)
        · exact Or.inr (Or.inl ⟨e, hmem.mpr (Or.inl hput)⟩)
        · exact Or.inr (Or.inr (hasEnd_finish hend))
      · exact h.keys
      · exact h.sessions
      · intro x id' hcreated
        rcases hmem.mp hcreated with hcreated | hcreated
        · exact h.created x id' hcreated
        · cases hcreated
      · intro x hpost
        rcases hmem.mp hpost with hpost | hpost
        · exact absurd hpost (hposts x)
        · cases hpost
      · intro x
        show (s.messages ++ [_]).count (Message.post x) ≤ 1
        rw [List.count_append, List.count_eq_zero_of_not_mem (hposts x), Nat.zero_add]
        exact List.count_le_length
      · intro x id' e hput
        rcases hmem.mp hput with hput | hput
        · exact List.mem_append_left _ (h.puts x id' e hput)
        · cases hput
          exact hended
      · rintro x (hx | ⟨id', hcreated⟩ | hrecord | hx)
        · exact h.fresh x (Or.inl hx)
        · rcases hmem.mp hcreated with hcreated | hcreated
          · exact h.fresh x (Or.inr (Or.inl ⟨id', hcreated⟩))
          · cases hcreated
        · exact h.fresh x (Or.inr (Or.inr (Or.inl hrecord)))
        · exact h.fresh x ((ended_finish.mp hx).elim (fun h => Or.inr (Or.inr (Or.inr h))) Or.inl)

/-! ## Messages that are done -/

theorem mem_of_mem_drop {m m' : Message} (h : m' ∈ s.messages.erase m) : m' ∈ s.messages :=
  List.mem_of_mem_erase h

/-- A message goes that is no answer to a POST; an update has reached its row. -/
theorem Inv.drop (h : Inv offset s) {m : Message} (hcreated : ∀ session id, m ≠ .created session id)
    (hput : ∀ session id endTime, m = .put session id endTime → s.HasEnd offset id session) :
    Inv offset { s with messages := s.messages.erase m } where
  stored := h.stored
  rows := by
    intro record hrecord
    rcases h.rows record hrecord with ⟨hlearning, hended, hmem | hpage⟩ | ⟨e, hmem⟩ | hend
    · refine Or.inl ⟨hlearning, hended, Or.inl ?_⟩
      exact (List.mem_erase_of_ne (hcreated _ _).symm).mpr hmem
    · exact Or.inl ⟨hlearning, hended, Or.inr hpage⟩
    · by_cases heq : m = .put record.2 record.1 e
      · exact Or.inr (Or.inr (hput _ _ _ heq))
      · exact Or.inr (Or.inl ⟨e, (List.mem_erase_of_ne (Ne.symm heq)).mpr hmem⟩)
    · exact Or.inr (Or.inr hend)
  keys := h.keys
  sessions := h.sessions
  created session id hmem := h.created session id (mem_of_mem_drop hmem)
  posts := by
    intro session hmem
    obtain ⟨hlearning, hended, hrecords, hnone⟩ := h.posts session (mem_of_mem_drop hmem)
    exact ⟨hlearning, hended, hrecords, fun id hmem => hnone id (mem_of_mem_drop hmem)⟩
  once session := (List.erase_sublist.count_le _).trans (h.once session)
  puts session id endTime hmem := h.puts session id endTime (mem_of_mem_drop hmem)
  fresh := by
    rintro session (hlearning | ⟨id, hmem⟩ | hmentions)
    · exact h.fresh session (Or.inl hlearning)
    · exact h.fresh session (Or.inr (Or.inl ⟨id, mem_of_mem_drop hmem⟩))
    · exact h.fresh session (Or.inr (Or.inr hmentions))

/-- A message goes that no row depends on. -/
theorem Inv.drop_silent (h : Inv offset s) {m : Message} (hm : m.silent = true) :
    Inv offset { s with messages := s.messages.erase m } := by
  refine h.drop ?_ ?_
  · rintro session id rfl
    cases hm
  · rintro session id endTime rfl
    cases hm

/-- A message comes that no row depends on. -/
theorem Inv.add (h : Inv offset s) {m : Message} (hm : m.silent = true) :
    Inv offset { s with messages := s.messages ++ [m] } := by
  have hmem : ∀ {m' : Message}, m'.silent = false → (m' ∈ s.messages ++ [m] ↔ m' ∈ s.messages) := by
    intro m' hm'
    rw [List.mem_append, List.mem_singleton]
    refine or_iff_left ?_
    rintro rfl
    exact Bool.false_ne_true (hm'.symm.trans hm)
  constructor
  · exact h.stored
  · intro record hrecord
    refine (h.rows record hrecord).imp ?_ (Or.imp_left ?_)
    · exact fun ⟨hlearning, hended, hpage⟩ =>
        ⟨hlearning, hended, hpage.imp_left (List.mem_append_left _)⟩
    · exact fun ⟨e, hput⟩ => ⟨e, List.mem_append_left _ hput⟩
  · exact h.keys
  · exact h.sessions
  · exact fun session id hcreated => h.created session id ((hmem rfl).mp hcreated)
  · intro session hpost
    obtain ⟨hlearning, hended, hrecords, hnone⟩ := h.posts session ((hmem rfl).mp hpost)
    exact ⟨hlearning, hended, hrecords, fun id hcreated => hnone id ((hmem rfl).mp hcreated)⟩
  · intro session
    show (s.messages ++ [m]).count (Message.post session) ≤ 1
    have hzero : [m].count (Message.post session) = 0 := by
      refine List.count_eq_zero_of_not_mem fun hmem => ?_
      rw [← List.mem_singleton.mp hmem] at hm
      cases hm
    rw [List.count_append, hzero]
    exact h.once session
  · exact fun session id e hput => h.puts session id e ((hmem rfl).mp hput)
  · rintro session (hlearning | ⟨id, hcreated⟩ | hmentions)
    · exact h.fresh session (Or.inl hlearning)
    · exact h.fresh session (Or.inr (Or.inl ⟨id, (hmem rfl).mp hcreated⟩))
    · exact h.fresh session (Or.inr (Or.inr hmentions))

/-! ## Requests -/

theorem serve_eq_some {k : Clock} {m : Message} (h : s.serve offset user k m = some s') :
    ∃ request, m.request offset user = some request ∧ (handle k request s.db).1.Success ∧
      { s with
        db := (handle k request s.db).2,
        messages := s.messages.erase m ++ [m.answer (handle k request s.db).1],
        records := m.recorded (handle k request s.db).1 s.records } = s' := by
  obtain ⟨request, hrequest, h⟩ := Option.bind_eq_some_iff.mp h
  change (if (handle k request s.db).1.Success then some _ else none) = some s' at h
  split_ifs at h with hgood
  exact ⟨request, hrequest, hgood, Option.some.inj h⟩

/-- **A POST is served**: its row waits. -/
theorem Inv.served_post (h : Inv offset s) {session : Session} {k : Clock}
    (hpost : .post session ∈ s.messages)
    (hserve : s.serve offset user k (.post session) = some s') : Inv offset s' := by
  obtain ⟨hlearning, hended, hrecords, hnone⟩ := h.posts session hpost
  obtain ⟨_, hrequest, hgood, rfl⟩ := serve_eq_some hserve
  cases hrequest
  obtain ⟨hid, hnew, hold⟩ := post_rows hgood
  simp only [Message.answer, Message.recorded]
  rw [hid]
  generalize (handle k _ s.db).2 = db at hnew hold ⊢
  have hmem : ∀ {m : Message}, m ∈ s.messages.erase (.post session) ++
      [.created session (nextId (s.db .learningRecord))] ↔
        m ∈ s.messages.erase (.post session) ∨
          m = .created session (nextId (s.db .learningRecord)) := by
    intro m
    rw [List.mem_append, List.mem_singleton]
  have hkept : ∀ {m : Message}, m ≠ .post session → m ∈ s.messages →
      m ∈ s.messages.erase (.post session) ++ [.created session (nextId (s.db .learningRecord))] :=
    fun hne hm => List.mem_append_left _ ((List.mem_erase_of_ne hne).mpr hm)
  have hrecord : ∀ {record : ℕ × Session},
      record ∈ s.records ++ [(nextId (s.db .learningRecord), session)] ↔
      record ∈ s.records ∨ record = (nextId (s.db .learningRecord), session) := by
    intro record
    rw [List.mem_append, List.mem_singleton]
  -- the row of a record is not new
  have hid : ∀ record ∈ s.records, record.1 ≠ nextId (s.db .learningRecord) := by
    intro record hmem
    obtain ⟨row, hrow⟩ := h.stored record hmem
    have hlt := lt_nextId (mem_of_find hrow)
    have hrowid := find_id hrow
    omega
  -- the request was the only one
  have hlast : ∀ x, Message.post x ∉ s.messages.erase (.post session) := by
    intro x hx
    obtain ⟨hx', -⟩ := h.posts x (mem_of_mem_drop hx)
    cases hlearning.symm.trans hx'
    have hcount := List.count_pos_iff.mpr hx
    have honce := h.once session
    rw [List.count_erase_self] at hcount
    omega
  constructor
  · intro record hmem
    rcases hrecord.mp hmem with hmem | rfl
    · obtain ⟨row, hrow⟩ := h.stored record hmem
      exact ⟨row, hold _ row hrow⟩
    · exact hnew
  · intro record hmem'
    rcases hrecord.mp hmem' with hmem' | rfl
    · rcases h.rows record hmem' with ⟨hx, hx', hcreated | hpage⟩ | ⟨e, hput⟩ | ⟨row, hrow, hend⟩
      · exact Or.inl ⟨hx, hx', Or.inl (hkept nofun hcreated)⟩
      · exact Or.inl ⟨hx, hx', Or.inr hpage⟩
      · exact Or.inr (Or.inl ⟨e, hkept nofun hput⟩)
      · exact Or.inr (Or.inr ⟨row, hold _ row hrow, hend⟩)
    · exact Or.inl ⟨hlearning, hended, Or.inl (hmem.mpr (Or.inr rfl))⟩
  · intro a ha b hb hab
    rcases hrecord.mp ha with ha | rfl <;> rcases hrecord.mp hb with hb | rfl
    · exact h.keys a ha b hb hab
    · exact absurd hab (hid a ha)
    · exact absurd hab.symm (hid b hb)
    · rfl
  · intro a ha b hb hab
    rcases hrecord.mp ha with ha | rfl <;> rcases hrecord.mp hb with hb | rfl
    · exact h.sessions a ha b hb hab
    · exact absurd hab (hrecords a ha)
    · exact absurd hab.symm (hrecords b hb)
    · rfl
  · intro x id hcreated record hmem' hx
    rcases hmem.mp hcreated with hcreated | hcreated
    · rcases hrecord.mp hmem' with hmem' | rfl
      · exact h.created x id (mem_of_mem_drop hcreated) record hmem' hx
      · exact absurd (mem_of_mem_drop (hx ▸ hcreated)) (hnone id)
    · cases hcreated
      rcases hrecord.mp hmem' with hmem' | rfl
      · exact absurd hx (hrecords record hmem')
      · rfl
  · intro x hx
    rcases hmem.mp hx with hx | hx
    · exact absurd hx (hlast x)
    · cases hx
  · intro x
    show (s.messages.erase _ ++ [_]).count (Message.post x) ≤ 1
    rw [List.count_append, List.count_eq_zero_of_not_mem (hlast x), Nat.zero_add]
    exact List.count_le_length
  · intro x id e hput
    rcases hmem.mp hput with hput | hput
    · exact h.puts x id e (mem_of_mem_drop hput)
    · cases hput
  · rintro x (hx | ⟨id, hcreated⟩ | ⟨record, hmem', hx⟩ | hx)
    · exact h.fresh x (Or.inl hx)
    · rcases hmem.mp hcreated with hcreated | hcreated
      · exact h.fresh x (Or.inr (Or.inl ⟨id, mem_of_mem_drop hcreated⟩))
      · cases hcreated
        exact h.fresh _ (Or.inl hlearning)
    · rcases hrecord.mp hmem' with hmem' | rfl
      · exact h.fresh x (Or.inr (Or.inr (Or.inl ⟨record, hmem', hx⟩)))
      · exact h.fresh x (Or.inl (hx ▸ hlearning))
    · exact h.fresh x (Or.inr (Or.inr (Or.inr hx)))

/-- **A PUT is served**: the row has the end. -/
theorem Inv.served_put (h : Inv offset s) {session : Session} {id : ℕ}
    {endTime : TimeValue} {k : Clock}
    (hput : .put session id endTime ∈ s.messages) (hrow : (id, session) ∈ s.records)
    (hserve : s.serve offset user k (.put session id endTime) = some s') : Inv offset s' := by
  obtain ⟨_, hrequest, hgood, rfl⟩ := serve_eq_some hserve
  cases hrequest
  obtain ⟨⟨row, hfind, hend⟩, hother⟩ := put_rows hgood
  simp only [Message.answer, Message.recorded]
  generalize (handle k _ s.db).2 = db at hfind hother ⊢
  have hnew : ({ s with db := db } : ViewerState).HasEnd offset id session :=
    ⟨row, hfind, (session, endTime), h.puts session id endTime hput, rfl, hend⟩
  have hwritten : Inv offset { s with db := db } := by
    refine { h with stored := fun record hrecord => ?_, rows := fun record hrecord => ?_ }
    · by_cases hid : record.1 = id
      · exact ⟨row, hid ▸ hfind⟩
      · obtain ⟨q, hq⟩ := h.stored record hrecord
        exact ⟨q, (hother record.1 hid).symm ▸ hq⟩
    · by_cases hid : record.1 = id
      · obtain rfl : (id, session) = record := h.keys _ hrow record hrecord hid.symm
        exact Or.inr (Or.inr hnew)
      · refine (h.rows record hrecord).imp_right (Or.imp_right ?_)
        rintro ⟨q, hq, hend⟩
        exact ⟨q, (hother record.1 hid).symm ▸ hq, hend⟩
  have hdropped :=
    hwritten.drop (m := .put session id endTime) (fun _ _ heq => by cases heq) fun _ _ _ heq => by
    cases heq
    exact hnew
  exact hdropped.add (m := .saved session id endTime) rfl

/-- **A DELETE is served**: the row is not there any more. -/
theorem Inv.served_delete (h : Inv offset s) {id : ℕ} {k : Clock}
    (hserve : s.serve offset user k (.delete id) = some s') : Inv offset s' := by
  obtain ⟨_, hrequest, hgood, rfl⟩ := serve_eq_some hserve
  cases hrequest
  have hother : ∀ id', id' ≠ id → _ := fun id' hne => delete_rows hgood hne
  simp only [Message.answer, Message.recorded]
  generalize (handle k _ s.db).2 = db at hother ⊢
  have hmem : ∀ {record : ℕ × Session}, record ∈ s.records.filter (fun record => record.1 ≠ id) →
      record ∈ s.records ∧ record.1 ≠ id := fun hrecord =>
    ⟨(List.mem_filter.mp hrecord).1, of_decide_eq_true (List.mem_filter.mp hrecord).2⟩
  have hremoved : Inv offset
      { s with db := db, records := s.records.filter fun record => record.1 ≠ id } := by
    constructor
    · intro record hrecord
      obtain ⟨q, hq⟩ := h.stored record (hmem hrecord).1
      exact ⟨q, (hother record.1 (hmem hrecord).2).symm ▸ hq⟩
    · intro record hrecord
      refine (h.rows record (hmem hrecord).1).imp_right (Or.imp_right ?_)
      rintro ⟨q, hq, hend⟩
      exact ⟨q, (hother record.1 (hmem hrecord).2).symm ▸ hq, hend⟩
    · exact fun a ha b hb => h.keys a (hmem ha).1 b (hmem hb).1
    · exact fun a ha b hb => h.sessions a (hmem ha).1 b (hmem hb).1
    · exact fun session id' hcreated record hrecord =>
        h.created session id' hcreated record (hmem hrecord).1
    · intro session hpost
      obtain ⟨hlearning, hended, hrecords, hnone⟩ := h.posts session hpost
      exact ⟨hlearning, hended, fun record hrecord => hrecords record (hmem hrecord).1, hnone⟩
    · exact h.once
    · exact h.puts
    · rintro session (hlearning | hcreated | ⟨record, hrecord, hsession⟩ | hended)
      · exact h.fresh session (Or.inl hlearning)
      · exact h.fresh session (Or.inr (Or.inl hcreated))
      · exact h.fresh session (Or.inr (Or.inr (Or.inl ⟨record, (hmem hrecord).1, hsession⟩)))
      · exact h.fresh session (Or.inr (Or.inr (Or.inr hended)))
  have hdropped := hremoved.drop_silent (m := .delete id) rfl
  exact hdropped.add (m := .deleted) rfl

/-! ## Answers -/

/-- **The id of a new record arrives**: its row waits for the page. -/
theorem Inv.received_created (h : Inv offset s) {session : Session} {id : ℕ}
    (hmem : .created session id ∈ s.messages) (hgood : s.learning = some session ∨ s.Free) :
    Inv offset { s with
      messages := s.messages.erase (.created session id), currentLearningRecordId := some id,
      viewerModalVisible := true } where
  stored := h.stored
  rows := by
    intro record hrecord
    rcases h.rows record hrecord with hwaits | ⟨e, hput⟩ | hend
    · rcases hgood with hlearning | hfree
      · have hsession : record.2 = session := Option.some.inj (hwaits.1.symm.trans hlearning)
        have hid : record.1 = id := h.created session id hmem record hrecord hsession
        exact Or.inl ⟨hwaits.1, hwaits.2.1, Or.inr ⟨congrArg some hid.symm, rfl⟩⟩
      · exact absurd hwaits (not_waits hfree)
    · exact Or.inr (Or.inl ⟨e, (List.mem_erase_of_ne (by nofun)).mpr hput⟩)
    · exact Or.inr (Or.inr hend)
  keys := h.keys
  sessions := h.sessions
  created x id' hcreated := h.created x id' (mem_of_mem_drop hcreated)
  posts := by
    intro x hpost
    obtain ⟨hlearning, hended, hrecords, hnone⟩ := h.posts x (mem_of_mem_drop hpost)
    exact ⟨hlearning, hended, hrecords, fun id' hcreated => hnone id' (mem_of_mem_drop hcreated)⟩
  once x := (List.erase_sublist.count_le _).trans (h.once x)
  puts x id' e hput := h.puts x id' e (mem_of_mem_drop hput)
  fresh := by
    rintro x (hlearning | ⟨id', hcreated⟩ | hmentions)
    · exact h.fresh x (Or.inl hlearning)
    · exact h.fresh x (Or.inr (Or.inl ⟨id', mem_of_mem_drop hcreated⟩))
    · exact h.fresh x (Or.inr (Or.inr hmentions))

/-! ## Runs -/

/-- **One event** that does not disturb a session keeps the invariant. -/
theorem Inv.step (s : ViewerState) (e : ViewerEvent) (s' : ViewerState) (h : Inv offset s)
    (hgood : e.Undisturbed s)
    (hstep : s.step offset user e = some s') : Inv offset s' := by
  cases e with
  | start courseware attachment startTime =>
    simp only [ViewerState.step] at hstep
    split_ifs at hstep with hknown
    · cases hstep
      exact h.start (hgood hknown) courseware startTime
    · cases hstep
      exact h
  | close endTime =>
    simp only [ViewerState.step] at hstep
    split_ifs at hstep
    cases hstep
    exact h.close hgood
  | serve k m =>
    simp only [ViewerState.step] at hstep
    split_ifs at hstep with hmem
    cases m with
    | post session => exact h.served_post hmem hstep
    | put session id endTime => exact h.served_put hmem hgood hstep
    | delete id => exact h.served_delete hstep
    | created session id => cases hstep
    | saved session id endTime => cases hstep
    | deleted => cases hstep
  | receive m =>
    simp only [ViewerState.step] at hstep
    split_ifs at hstep with hmem
    cases m with
    | created session id =>
      cases hstep
      exact h.received_created hmem hgood
    | saved session id endTime =>
      have hdropped := h.drop_silent (m := .saved session id endTime) rfl
      simp only [ViewerState.receive] at hstep
      split_ifs at hstep with hshort
      · cases hstep
        exact hdropped.add (m := .delete id) rfl
      · cases hstep
        exact hdropped.reset (hgood (not_lt.mp hshort))
    | deleted =>
      cases hstep
      exact (h.drop_silent (m := .deleted) rfl).reset hgood
    | post session => cases hstep
    | put session id endTime => cases hstep
    | delete id => cases hstep

/-- **The records of a run.** Whatever the order of clicks, requests and answers: where no event
    disturbs a session, every record that was made is deleted or has the end of its session
    whenever the viewer is closed and nothing is on its way. -/
theorem records_settled {db : DB} {events : List ViewerEvent}
    (hgood : Always (ViewerState.step offset user) (fun s e => e.Undisturbed s) (.open db) events)
    (hexec : exec (ViewerState.step offset user) (.open db) events = some s)
    (hclosed : s.viewerModalVisible = false)
    (hquiet : s.messages = []) : s.Settled offset := by
  have h : Inv offset s := hgood.invariant Inv.step (inv_open db) hexec
  intro record hrecord
  rcases h.rows record hrecord with ⟨-, -, hcreated | ⟨-, hvisible⟩⟩ | ⟨e, hput⟩ | hend
  · rw [hquiet] at hcreated
    cases hcreated
  · cases hclosed.symm.trans hvisible
  · rw [hquiet] at hput
    cases hput
  · exact hend

/-- A time in minutes after 10:00 of January 5, 2024, in UTC. -/
def minutesAfter (n : ℕ) (h : n < 1000) : TimeValue := ⟨1704448800000 + n * 60000, by omega⟩

/-- A course with its attachment. -/
def course (id : ℕ) (name attachment : String) : Table × Record :=
  (.trainingCourseware, record id
    [(.coursewareName, .text name), (.attachment, .text attachment), (.version, .text "1.0"),
     (.author, .text "李四"), (.uploadDate, .dateTime Clock.epoch.utcDate Clock.epoch.utcTime),
     (.courseDuration, .text "1h"), (.enabledStatus, .int 1)])

/-- Two courses. -/
def twoCourses : DB := DB.ofRows [course 1 "课件一" "a.pdf", course 2 "课件二" "b.mp4"]

/-- A session with the first course and one with the second, five minutes apart. -/
def firstSession : Session := ⟨0, 1, minutesAfter 0 (by decide)⟩

def secondSession : Session := ⟨1, 2, minutesAfter 5 (by decide)⟩

/-- Both courses are started before the first answer arrives; then the viewer is closed. -/
def startedTwice : List ViewerEvent :=
  [.start 1 "a.pdf" (minutesAfter 0 (by decide)), .start 2 "b.mp4" (minutesAfter 5 (by decide)),
   .serve .epoch (.post firstSession), .serve .epoch (.post secondSession),
   .receive (.created firstSession 1), .receive (.created secondSession 2),
   .close (minutesAfter 50 (by decide)),
   .serve .epoch (.put secondSession 2 (minutesAfter 50 (by decide))),
   .receive (.saved secondSession 2 (minutesAfter 50 (by decide)))]

/-- The record of the first session stays as it was at the start. -/
theorem records_not_settled :
    ∃ s, exec (ViewerState.step 0 (some "张三")) (.open twoCourses) startedTwice = some s ∧
      s.viewerModalVisible = false ∧
      s.messages = [] ∧ ¬ s.Settled 0 := by
  have hrun : ((exec (ViewerState.step 0 (some "张三")) (.open twoCourses) startedTwice).map fun s =>
      !s.viewerModalVisible && s.messages.isEmpty && !decide (s.Settled 0)) =
        some true := by decide +kernel
  obtain ⟨s, hs, hall⟩ := Option.map_eq_some_iff.mp hrun
  simp only [Bool.and_eq_true, Bool.not_eq_true', List.isEmpty_iff, decide_eq_false_iff_not] at hall
  exact ⟨s, hs, hall.1.1, hall.1.2, hall.2⟩

/-- The second course is started and the viewer closed again while the first record is updated. -/
def startedInTurn : List ViewerEvent :=
  [.start 1 "a.pdf" (minutesAfter 0 (by decide)), .serve .epoch (.post firstSession),
   .receive (.created firstSession 1), .close (minutesAfter 4 (by decide)),
   .start 2 "b.mp4" (minutesAfter 5 (by decide)), .serve .epoch (.post secondSession),
   .receive (.created secondSession 2), .close (minutesAfter 50 (by decide)),
   .serve .epoch (.put firstSession 1 (minutesAfter 4 (by decide))), .receive (.saved firstSession 1
     (minutesAfter 4 (by decide))), .serve .epoch (.delete 1), .receive .deleted,
   .serve .epoch (.put secondSession 2 (minutesAfter 50 (by decide))),
   .receive (.saved secondSession 2 (minutesAfter 50 (by decide)))]

theorem records_settled_in_turn :
    ∃ s, exec (ViewerState.step 0 (some "张三")) (.open twoCourses) startedInTurn = some s ∧
      s.records = [(2, secondSession)] ∧ s.Settled 0 := by
  have hrun : ((exec (ViewerState.step 0 (some "张三")) (.open twoCourses) startedInTurn).map fun s =>
      !s.viewerModalVisible && s.messages.isEmpty && decide (s.records = [(2, secondSession)])) =
        some true := by
    decide +kernel
  obtain ⟨s, hs, hall⟩ := Option.map_eq_some_iff.mp hrun
  simp only [Bool.and_eq_true, Bool.not_eq_true', List.isEmpty_iff, decide_eq_true_eq] at hall
  exact ⟨s, hs, hall.2, records_settled (by decide +kernel) hs hall.1.1 hall.1.2⟩

end ProjectEvaluation.Pages.Viewer
