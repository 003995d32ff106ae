import ProjectEvaluation.Backend.Requests

/-!
# The reachable states

The states of the database that requests lead to, from the empty database and
the rows `init_db.py` adds.

Results:
* `Reachable.valid`: the constraints of the columns hold in every reachable state.
* `Reachable.learningTimes`: the learning records of a reachable state are as the
  handlers store them.
-/

namespace ProjectEvaluation.Backend

open Python Relational Transaction

/-- The tables `init_db.py` adds rows to. -/
def seededTables : List Table := [.role, .menu, .systemSkin, .user]

/-- The reachable states of the database. -/
inductive Reachable : DB → Prop
  | empty : Reachable fun _ => []
  | seed {k : Clock} {t : Table} {attrs : List (Field × Attr)} {db db' : DB} : Reachable db →
      t ∈ seededTables → insertRow k t attrs db = .ok db' → Reachable db'
  | request (k : Clock) (request : Request) {db : DB} : Reachable db →
      Reachable (handle k request db).2

/-- **The constraints hold in every reachable state.** -/
theorem Reachable.valid {db : DB} (h : Reachable db) : Valid db := by
  induction h with
  | empty => exact valid_empty
  | seed _ _ hins ih => exact insertRow_valid ih hins
  | request k request _ ih => exact handle_valid ih

/-- The database after some requests. -/
def afterRequests (k : Clock) (requests : List Request) (db : DB) : DB :=
  requests.foldl (fun db request => (handle k request db).2) db

theorem afterRequests_valid (k : Clock) (requests : List Request) {db : DB} (hv : Valid db) :
    Valid (afterRequests k requests db) := by
  induction requests generalizing db with
  | nil => exact hv
  | cons request requests ih => exact ih (handle_valid hv)

/-! ## Learning records -/

/-- No reference is among the times of a learning record. -/
theorem LearningTimes.detached {r q : Record} (h : LearningTimes r)
    (hq : Detached schema .learningRecord r q) : LearningTimes q := by
  have hcell : ∀ f ∈ [Field.learningDate, .startTime, .endTime, .learningDuration],
      q.cell f = r.cell f := by
    intro f hf
    have hkeys : ∀ ref ∈ foreignKeys, ref.table = .learningRecord →
        ref.column ∉ [Field.learningDate, .startTime, .endTime, .learningDuration] := by decide
    rcases hq.2 f with hsame | ⟨-, ref, href, htable, hcolumn⟩
    · exact hsame
    · exact absurd (hcolumn ▸ hf) (hkeys ref href htable)
  obtain ⟨d, startTime, endTime, hd, hstart, hend, hs, he, hduration⟩ := h
  refine ⟨d, startTime, endTime, ?_, ?_, ?_, hs, he, ?_⟩
  · rw [hcell .learningDate (by decide)]; exact hd
  · rw [hcell .startTime (by decide)]; exact hstart
  · rw [hcell .endTime (by decide)]; exact hend
  · rw [hcell .learningDuration (by decide)]; exact hduration

/-- Every learning record is as the handlers store it. -/
def AllLearningTimes (db : DB) : Prop := ∀ q ∈ db .learningRecord, LearningTimes q

theorem steps_learningTimes {tables : List Table} {db db' : DB} (h : AllLearningTimes db)
    (hsteps : Steps tables db db') (ht : .learningRecord ∉ tables) : AllLearningTimes db' := by
  intro q hq
  obtain ⟨ops, hwrites, hall⟩ := hsteps
  obtain ⟨r, hr, hdetached⟩ := applyAll_frame (fun o ho hw => ht (hwrites o ho _ hw)) hall q hq
  exact (h r hr).detached hdetached

theorem learningRecord_of_tables {r : Resource} (h : .learningRecord ∈ r.tables) :
    r = .learningRecord := by
  revert h
  cases r <;> decide

/-- **Requests keep the learning records as they should be.** -/
theorem handle_learningTimes {k : Clock} {request : Request} {db : DB} (h : AllLearningTimes db) :
    AllLearningTimes (handle k request db).2 := by
  by_cases ht : .learningRecord ∉ request.tables
  · rcases handle_cases k request db with ⟨-, hsame⟩ | ⟨-, hsteps⟩
    · rw [hsame]; exact h
    · exact steps_learningTimes h hsteps ht
  cases request with
  | create r body =>
    obtain rfl := learningRecord_of_tables (not_not.mp ht)
    rcases create_cases (rfl : run (createResource k .learningRecord body) db = _) with
      ⟨-, hsame⟩ | ⟨-, data, attrs, w, -, hattrs, hins, -, hdb'⟩
    · show AllLearningTimes (run (createResource k .learningRecord body) db).2
      rw [hsame]; exact h
    · show AllLearningTimes (run (createResource k .learningRecord body) db).2
      rw [hdb' (by decide), (insertRow_eq_ok.mp hins).2.2]
      intro q hq
      rcases mem_insert.mp hq with hq | ⟨-, rfl⟩
      · exact h q hq
      · exact learning_created hattrs
  | update r id body =>
    obtain rfl := learningRecord_of_tables (not_not.mp ht)
    rcases update_cases (rfl : run (updateResource k .learningRecord id body) db = _) with
      ⟨-, hsame⟩ | ⟨-, row, data, assignments, ops, w, -, -, -, hassign, hops, hall, -, hdb'⟩
    · show AllLearningTimes (run (updateResource k .learningRecord id body) db).2
      rw [hsame]; exact h
    · show AllLearningTimes (run (updateResource k .learningRecord id body) db).2
      rw [hdb' (by simp), (updateOps_eq hops hall).1]
      intro q hq
      obtain ⟨r, hr, rfl⟩ := mem_setCells.mp hq
      split_ifs
      · exact learning_updated hassign hops hall r
      · exact h r hr
  | _ => exact absurd (fun hmem => by simp [Request.tables] at hmem) ht

/-- **The learning records of every reachable state.** -/
theorem Reachable.learningTimes {db : DB} (h : Reachable db) : AllLearningTimes db := by
  induction h with
  | empty => exact fun q hq => nomatch hq
  | @seed k t attrs db db' _ ht hins ih =>
    have hne : .learningRecord ≠ t := by
      rintro rfl
      exact absurd ht (by decide)
    intro q hq
    rw [insertRow_other hins hne] at hq
    exact ih q hq
  | request k request _ ih => exact handle_learningTimes ih

end ProjectEvaluation.Backend
