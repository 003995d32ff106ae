import ProjectEvaluation.Backend.Requests

/-!
# Partial updates

An update handler is meant to leave alone what the body does not name. Most
attributes are assigned `data.get('f', row.f)`; the handlers write their own
code for passwords, dates and short names.

Results:
* `absent_cell`: what an update does to a column that the body does not name.
* `partial_update_frame_iff`: an update that succeeds leaves alone what it should,
  except that `update_research_task` erases a completion time that is not sent.
-/

namespace ProjectEvaluation.Backend

open Python Relational Transaction

/-! ## Assignments of absent fields -/

/-- An assignment leaves the attribute alone where the body does not name it. -/
def Keeps (data : Json) (row : Record) (a : Assignment) : Prop :=
  data.has a.1 = false → ∀ v, a.2 = .ok (some v) → v = .value (row.cell a.1)

/-- An assignment erases the attribute where the body does not name it. -/
def Erases (data : Json) (a : Assignment) : Prop :=
  data.has a.1 = false → a.2 = .ok (some (.json .null))

/-- `update_evaluation_project` may fill in an empty short name or mnemonic. -/
def MayFill (r : Resource) (row : Record) (f : Field) : Prop :=
  r = .project ∧ (f = .projectShortName ∨ f = .mnemonic) ∧ (row.cell f).truthy = false

theorem get_of_absent {data : Json} {f : Field} {found : Option Json} (hf : data.has f = false)
    (h : data.get f = .ok found) : found = none := by
  rw [Json.has_of_get h] at hf
  simpa using hf

theorem keep_keeps (data : Json) (row : Record) (f : Field) : Keeps data row (keep data row f) := by
  intro hf v hv
  obtain ⟨found, hget, hsome⟩ := map_eq_ok.mp hv
  obtain rfl := get_of_absent hf hget
  cases hsome
  rfl

theorem newPassword_keeps (data : Json) (row : Record) : Keeps data row (newPassword data) := by
  intro hf v hv
  obtain ⟨found, hget, hsome⟩ := map_eq_ok.mp hv
  obtain rfl := get_of_absent hf hget
  cases hsome

theorem assignDate_keeps (data : Json) (row : Record) (f : Field) :
    Keeps data row (assignDate data f) := by
  intro hf v hv
  obtain ⟨found, hget, hsome⟩ := map_eq_ok.mp hv
  obtain rfl := get_of_absent hf hget
  cases hsome

/-- A short name that is there is kept. -/
theorem keepOrPrefix_keeps (data : Json) (project : Record) {f : Field} (source : Field) (n : ℕ)
    (htruthy : (project.cell f).truthy = true) :
    Keeps data project (keepOrPrefix data project f source n) := by
  intro hf v hv
  unfold keepOrPrefix at hv
  rw [if_pos htruthy] at hv
  obtain ⟨_, hdefault, hv⟩ := do_eq_ok.mp hv
  cases hdefault
  obtain ⟨found, hget, hsome⟩ := do_eq_ok.mp hv
  obtain rfl := get_of_absent hf hget
  cases hsome
  rfl

/-- The completion times of a task are erased where they are not sent. -/
theorem completionTime_erases {data j : Json} {f : Field} (h : data.getD f .null = .ok j) :
    Erases data (f, .ok (some (completionTime j))) := by
  intro hf
  obtain ⟨found, hget, rfl⟩ := map_eq_ok.mp h
  obtain rfl := get_of_absent hf hget
  rfl

theorem keeps_of_fields {data : Json} {row : Record} {fields : List Field} {a : Assignment}
    (ha : a ∈ fields.map (keep data row)) : Keeps data row a := by
  obtain ⟨f, -, rfl⟩ := List.mem_map.mp ha
  exact keep_keeps data row f

/-- **What each assignment does where its field is absent.** -/
theorem assignments_keep {r : Resource} {data : Json} {row : Record} {db : DB}
    {assignments : List Assignment}
    (hr : r ≠ .learningRecord) (h : r.assignments data row db = .ok assignments) :
    ∀ a ∈ assignments, Keeps data row a ∨ MayFill r row a.1 ∨
      (r = .researchTask ∧ (a.1 = .plannedCompletionTime ∨ a.1 = .actualCompletionTime) ∧
        Erases data a) := by
  intro a ha
  cases r with
  | learningRecord => exact absurd rfl hr
  | user =>
    cases h
    simp only [userAssignments, List.mem_cons, List.not_mem_nil, or_false] at ha
    rcases ha with rfl | rfl | rfl | rfl | rfl
    · exact Or.inl (keep_keeps data row _)
    · exact Or.inl (newPassword_keeps data row)
    · exact Or.inl (keep_keeps data row _)
    · exact Or.inl (keep_keeps data row _)
    · exact Or.inl (keep_keeps data row _)
  | vendorResearch =>
    cases h
    rcases List.mem_cons.mp ha with rfl | ha
    · exact Or.inl (assignDate_keeps data row _)
    · exact Or.inl (keeps_of_fields ha)
  | project =>
    cases h
    have hfill : ∀ f source n, f = .projectShortName ∨ f = .mnemonic →
        Keeps data row (keepOrPrefix data row f source n) ∨ MayFill .project row f := by
      intro f source n hf
      by_cases htruthy : (row.cell f).truthy = true
      · exact Or.inl (keepOrPrefix_keeps data row source n htruthy)
      · exact Or.inr ⟨rfl, hf, by simpa using htruthy⟩
    simp only [projectAssignments, List.mem_cons, List.not_mem_nil, or_false] at ha
    rcases ha with rfl | rfl | rfl | rfl | rfl | rfl | rfl | rfl | rfl | rfl | rfl | rfl
    · exact Or.inl (keep_keeps data row _)
    · exact Or.inl (keep_keeps data row _)
    · exact (hfill .projectShortName .projectName 100 (Or.inl rfl)).imp_right Or.inl
    · exact (hfill .mnemonic .projectId 10 (Or.inr rfl)).imp_right Or.inl
    · exact Or.inl (keep_keeps data row _)
    · exact Or.inl (keep_keeps data row _)
    · exact Or.inl (keep_keeps data row _)
    · exact Or.inl (keep_keeps data row _)
    · exact Or.inl (keep_keeps data row _)
    · exact Or.inl (assignDate_keeps data row _)
    · exact Or.inl (keep_keeps data row _)
    · exact Or.inl (keep_keeps data row _)
  | researchTask =>
    obtain ⟨planned, hplanned, h⟩ := do_eq_ok.mp h
    obtain ⟨actual, hactual, h⟩ := do_eq_ok.mp h
    cases h
    simp only [List.mem_cons, List.not_mem_nil, or_false] at ha
    rcases ha with rfl | rfl | rfl | rfl | rfl | rfl | rfl | rfl | rfl
    · exact Or.inl (keep_keeps data row _)
    · exact Or.inl (keep_keeps data row _)
    · exact Or.inl (keep_keeps data row _)
    · exact Or.inl (keep_keeps data row _)
    · exact Or.inl (keep_keeps data row _)
    · exact Or.inr (Or.inr ⟨rfl, Or.inl rfl, completionTime_erases hplanned⟩)
    · exact Or.inl (keep_keeps data row _)
    · exact Or.inl (keep_keeps data row _)
    · exact Or.inr (Or.inr ⟨rfl, Or.inr rfl, completionTime_erases hactual⟩)
  | menu => cases h; exact Or.inl (keeps_of_fields ha)
  | skin => cases h; exact Or.inl (keeps_of_fields ha)
  | standard => cases h; exact Or.inl (keeps_of_fields ha)
  | clause => cases h; exact Or.inl (keeps_of_fields ha)
  | courseware => cases h; exact Or.inl (keeps_of_fields ha)
  | evaluationType => cases h; exact Or.inl (keeps_of_fields ha)
  | level => cases h; exact Or.inl (keeps_of_fields ha)
  | catalog => cases h; exact Or.inl (keeps_of_fields ha)
  | dictionary => cases h; exact Or.inl (keeps_of_fields ha)
  | template => cases h; exact Or.inl (keeps_of_fields ha)

/-! ## The updated row -/

/-- A column keeps its value when every assignment to it is to its old value. -/
theorem kept_cell {t : Table} {assignments : List Assignment} {row : Record} {f : Field}
    (h : ∀ v, (f, .ok (some v)) ∈ assignments → v = .value (row.cell f)) :
    (assignCells row (updateValues t assignments)).cell f = row.cell f := by
  simp only [assignCells]
  cases hlookup : ((updateValues t assignments).reverse).lookup f with
  | none => rfl
  | some w =>
    obtain ⟨v, c, hmem, hc, hbind⟩ :=
      mem_updateValues.mp (List.mem_reverse.mp (mem_of_lookup hlookup))
    rw [h v hmem, Attr.bind] at hbind
    split_ifs at hbind
    cases hbind
    rfl

/-- **A column the body does not name** keeps its value after a successful update,
    apart from the short names of a project and the completion time of a task,
    which is erased. -/
theorem absent_cell {r : Resource} {id : ℕ} {data : Json} {row : Record} {db db' : DB}
    {assignments : List Assignment} {ops : List Op} (hr : r ≠ .learningRecord)
    (h : r.assignments data row db = .ok assignments)
    (hops : updateOps r.table id assignments = .ok ops)
    (hall : applyAll applyOp ops db = .ok db') {f : Field} (hf : data.has f = false) :
    if r = .researchTask ∧ f = .actualCompletionTime then
      (assignCells row (updateValues r.table assignments)).cell f = .null
    else (assignCells row (updateValues r.table assignments)).cell f = row.cell f ∨
      MayFill r row f := by
  obtain ⟨-, heval⟩ := updateOps_eq hops hall
  have hkeep := assignments_keep hr h
  by_cases htask : r = .researchTask ∧ f = .actualCompletionTime
  · rw [if_pos htask]
    obtain ⟨rfl, rfl⟩ := htask
    have hmem : (.actualCompletionTime, .ok (some (.json .null))) ∈ assignments := by
      obtain ⟨planned, -, h⟩ := do_eq_ok.mp h
      obtain ⟨actual, hactual, h⟩ := do_eq_ok.mp h
      cases h
      have herased : (Except.ok (some (completionTime actual)) : Except Exn (Option Attr)) = _ :=
        completionTime_erases hactual hf
      exact List.mem_of_getElem? (i := 8)
        (congrArg (fun x => some (Field.actualCompletionTime, x)) herased)
    exact assigned_cell (assignments_nodup h) row hmem rfl rfl
  · rw [if_neg htask]
    by_cases hfill : MayFill r row f
    · exact Or.inr hfill
    refine Or.inl (kept_cell fun v hmem => ?_)
    rcases hkeep _ hmem with hkeeps | hfills | ⟨rfl, hplanned | hactual, herases⟩
    · exact hkeeps hf v rfl
    · exact absurd hfills hfill
    · -- the planned completion time is NOT NULL, so the update would have failed
      simp only at hplanned
      subst hplanned
      obtain ⟨x, hx, hbind⟩ := heval _ hmem
      obtain ⟨w, hw, hnull⟩ :=
        hbind v (by cases hx; rfl) (required .plannedCompletionTime .date) rfl
      have hv : v = .json .null := by
        have := herases hf
        cases this
        rfl
      subst hv
      cases hw
      exact absurd (hnull rfl) (by decide)
    · exact absurd ⟨rfl, hactual⟩ htask

/-! ## The frame -/

/-- What an update with a given body should leave alone: the columns of the row that
    the body does not name (an empty short name of a project may be filled in),
    and every other row of every table. The association rows of a courseware are
    its field `training_targets`. -/
structure Frame (r : Resource) (id : ℕ) (data : Json) (db db' : DB) : Prop where
  columns : ∀ row, find (db r.table) id = some row →
    ∃ row', find (db' r.table) id = some row' ∧
      ∀ f, data.has f = false → row'.cell f = row.cell f ∨ MayFill r row f
  rows : ∀ t q, (t = r.table → q.id ≠ id) →
    (r = .courseware → data.has .trainingTargets = true → t = .trainingTargets →
      q.cell .coursewareId ≠ .int id) → (q ∈ db' t ↔ q ∈ db t)

theorem updated_rows {k : Clock} {r : Resource} {id : ℕ} {data : Json} {db db' : DB}
    (h : Updated k r id (.json data) db db') (t : Table) (q : Record)
    (hrow : t = r.table → q.id ≠ id)
    (htargets : r = .courseware → data.has .trainingTargets = true → t = .trainingTargets →
      q.cell .coursewareId ≠ .int id) : q ∈ db' t ↔ q ∈ db t := by
  obtain ⟨row, _, assignments, ops, w, -, -, hbody, -, hops, hall, hre, hsame⟩ := h
  cases hbody
  have hw : q ∈ w t ↔ q ∈ db t := by
    refine (sameBut_updateOps hops hall).mem_iff ?_
    by_cases ht : t = r.table
    · exact Or.inr (hrow ht)
    · exact Or.inl ht
  rw [← hw]
  by_cases hcase : r = .courseware ∧ data.has .trainingTargets = true
  · by_cases ht : t = .trainingTargets
    · subst ht; exact hre.rows (htargets hcase.1 hcase.2 rfl)
    · rw [hre.other ht]
  · rw [hsame hcase]

/-- **Partial updates.** An update that succeeds leaves alone what its body does not
    name iff it does not erase a completion time: iff it is not an update of a
    research task, or the body names the actual completion time, or the task has
    none. -/
theorem partial_update_frame_iff (k : Clock) (r : Resource) (id : ℕ) (data : Json) (db : DB)
    (hr : r ≠ .learningRecord) (hsuccess : (handle k (.update r id (.json data)) db).1.Success) :
    Frame r id data db (handle k (.update r id (.json data)) db).2 ↔
      (r = .researchTask → data.has .actualCompletionTime = false →
        ∀ task, find (db .researchTask) id = some task →
          task.cell .actualCompletionTime = .null) := by
  rcases update_cases (rfl : run (updateResource k r id (.json data)) db = _) with ⟨hbad, -⟩ |
    ⟨-, hupdated⟩
  · exact absurd hsuccess hbad
  have hrows := updated_rows hupdated
  obtain ⟨row, _, assignments, ops, w, -, hfind, hbody, hassign, hops, hall, hre, -⟩ := hupdated
  cases hbody
  have hcell := fun (f : Field) (hf : data.has f = false) => absent_cell hr hassign hops hall hf
  have hfind' : find ((handle k (.update r id (.json data)) db).2 r.table) id =
      some (assignCells row (updateValues r.table assignments)) := by
    have hne : r.table ≠ .trainingTargets := by cases r <;> decide
    show find ((run (updateResource k r id (.json data)) db).2 r.table) id = _
    rw [hre.other hne, (updateOps_eq hops hall).1, find_setCells, hfind]
    rfl
  constructor
  · rintro hframe rfl hf task htask
    obtain rfl : row = task := Option.some_inj.mp (hfind.symm.trans htask)
    obtain ⟨row', hrow', hkept⟩ := hframe.columns row hfind
    rw [hfind'] at hrow'
    cases hrow'
    have herased := hcell .actualCompletionTime hf
    rw [if_pos ⟨rfl, rfl⟩] at herased
    rcases hkept .actualCompletionTime hf with hsame | ⟨hproject, -⟩
    · exact hsame.symm.trans herased
    · cases hproject
  · intro hcond
    refine ⟨fun row₀ hrow₀ => ⟨_, hfind', fun f hf => ?_⟩, hrows⟩
    rw [hfind] at hrow₀
    cases hrow₀
    have hkept := hcell f hf
    by_cases htask : r = .researchTask ∧ f = .actualCompletionTime
    · rw [if_pos htask] at hkept
      obtain ⟨rfl, rfl⟩ := htask
      exact Or.inl (hkept.trans (hcond rfl hf row hfind).symm)
    · rwa [if_neg htask] at hkept

/-- A finished research task. -/
def finishedTask : DB := DB.ofRows
  [(.researchTask, record 1 [(.projectType, .int 1), (.projectLevel, .int 1), (.projectId, .int 1),
    (.taskName, .text "调研"), (.creatorId, .int 1), (.createdAt, .date ⟨2024, 1, 1, by decide⟩),
    (.taskStatus, .text "已完成"), (.plannedCompletionTime, .date ⟨2024, 3, 1, by decide⟩),
    (.researcherId, .int 1), (.actualCompletionTime, .date ⟨2024, 2, 1, by decide⟩),
    (.vendorStatus, .int 0), (.benchmarkingStatus, .int 0)])]

/-- A body that names the planned completion time and the researcher of a task. -/
def newResearcher : Json :=
  .dict [(.plannedCompletionTime, .str "2024-03-01"), (.researcherId, .int 2)]

/-- An update that does not name the actual completion time erases it. -/
theorem partial_update_erases :
    (handle .epoch (.update .researchTask 1 (.json newResearcher)) finishedTask).1.Success ∧
      ¬ Frame .researchTask 1 newResearcher finishedTask
        (handle .epoch (.update .researchTask 1 (.json newResearcher)) finishedTask).2 := by
  refine ⟨by decide, fun hframe => ?_⟩
  obtain ⟨row', hrow', hkept⟩ := hframe.columns _ rfl
  have herased : ((handle .epoch (.update .researchTask 1 (.json newResearcher)) finishedTask).2
      .researchTask).map (·.cell .actualCompletionTime) = [.null] := by decide
  have hnull : row'.cell .actualCompletionTime = .null := by
    have hmem := List.mem_map_of_mem (f := (·.cell .actualCompletionTime)) (mem_of_find hrow')
    rwa [show Resource.researchTask.table = .researchTask from rfl, herased,
      List.mem_singleton] at hmem
  rcases hkept .actualCompletionTime (by decide) with hsame | ⟨hproject, -⟩
  · rw [hnull] at hsame
    exact absurd hsame (by decide)
  · cases hproject

/-- The frame of an update of the remarks of a dictionary entry. -/
theorem partial_update_frame_iff_remarks :
    Frame .dictionary 1 (.dict [(.remarks, .str "新")])
      (DB.ofRows [(.systemDictionary,
        record 1 [(.systemName, .text "HIS"), (.enabledStatus, .int 1)])])
      (handle .epoch (.update .dictionary 1 (.json (.dict [(.remarks, .str "新")])))
        (DB.ofRows [(.systemDictionary,
          record 1 [(.systemName, .text "HIS"), (.enabledStatus, .int 1)])])).2 :=
  (partial_update_frame_iff .epoch .dictionary 1 (.dict [(.remarks, .str "新")])
    (DB.ofRows [(.systemDictionary,
      record 1 [(.systemName, .text "HIS"), (.enabledStatus, .int 1)])])
    (by decide) (by decide)).mpr fun h => nomatch h

end ProjectEvaluation.Backend
