import ProjectEvaluation.Pages.EvaluationProject
import ProjectEvaluation.Properties.StoredRows

/-!
# The form of the projects and the handlers

The page submits a project and fetches the list again.

Results:
* `chosen_date_shown_iff`: when the list shows the date that was chosen. The date goes to the
  server as an instant in UTC and comes back as midnight UTC.
* `project_id_kept_iff`: when an edit keeps the `project_id`. The list leaves it out, so the
  page makes a new one with every request it sends.
* `project_ids_differ_iff`: when two projects are given different ids.
-/

namespace ProjectEvaluation.Pages

open Calendar (dateOf)
open Python JavaScript Relational Backend

/-! ## The list -/

/-- Rows rendered one by one: every object is that of a row, and the objects are found by the
    ids of the rows. -/
theorem mapM_rows (rows : List Record) (render : Record → Except Exn Json)
    (h : ∀ row, ∃ object, render row = .ok object ∧ ∀ id, hasId id object = (row.id == id)) :
    ∃ objects, rows.mapM render = .ok objects ∧
      (∀ object ∈ objects, ∃ row, render row = .ok object) ∧
      ∀ id row, find rows id = some row → ∃ object,
        render row = .ok object ∧ objects.find? (hasId id) = some object := by
  induction rows with
  | nil => exact ⟨[], rfl, fun object hmem => (nomatch hmem), fun id row hfind => (nomatch hfind)⟩
  | cons r rows ih =>
    obtain ⟨objects, hobjects, hrows, hfound⟩ := ih
    obtain ⟨object, hobject, hid⟩ := h r
    refine ⟨object :: objects, ?_, fun o ho => ?_, fun id row hfind => ?_⟩
    · rw [List.mapM_cons, hobject, hobjects]
      rfl
    · rcases List.mem_cons.mp ho with rfl | ho
      · exact ⟨r, hobject⟩
      · exact hrows o ho
    · unfold find at hfind hfound
      rw [List.find?_cons] at hfind ⊢
      rw [hid]
      cases hr : r.id == id with
      | true =>
        rw [hr] at hfind
        cases hfind
        exact ⟨object, hobject, rfl⟩
      | false =>
        rw [hr] at hfind
        exact hfound id row hfind

/-- **The list of the projects** has the objects of the projects, each under its id. -/
theorem getEvaluationProjects_body (db : DB) :
    ∃ objects, (getEvaluationProjects db).body = .list objects ∧
      (∀ object ∈ objects, ∃ row, renderProject row db = .ok object) ∧
      ∀ id row, find (db .evaluationProject) id = some row →
        ∃ object, renderProject row db = .ok object ∧ objects.find? (hasId id) = some object := by
  have hrender : ∀ row : Record, ∃ object, renderProject row db = .ok object ∧
      ∀ id, hasId id object = (row.id == id) := by
    intro row
    refine ⟨_, rfl, fun id => ?_⟩
    change ((row.id : ℤ) == (id : ℤ)) = (row.id == id)
    rw [Bool.eq_iff_iff, beq_iff_eq, beq_iff_eq, Nat.cast_inj]
  obtain ⟨objects, hobjects, hall⟩ :=
    mapM_rows (db .evaluationProject) (fun row => renderProject row db) hrender
  refine ⟨objects, ?_, hall⟩
  rw [getEvaluationProjects, hobjects]

theorem listed_project {db : DB} {id : ℕ} {row : Record}
    (hfind : find (db .evaluationProject) id = some row) :
    ∃ object, renderProject row db = .ok object ∧
      entryOf id (getEvaluationProjects db).body = some object := by
  obtain ⟨objects, hbody, -, hfound⟩ := getEvaluationProjects_body db
  rw [hbody]
  exact hfound id row hfind

theorem listed_entry {db : DB} {id : ℕ} {object : Json}
    (h : entryOf id (getEvaluationProjects db).body = some object) :
    ∃ row, renderProject row db = .ok object := by
  obtain ⟨objects, hbody, hrows, -⟩ := getEvaluationProjects_body db
  rw [hbody] at h
  exact hrows object (List.mem_of_find?_eq_some h)

theorem renderProject_date {row : Record} {db : DB} {object : Json}
    (h : renderProject row db = .ok object) :
    object.get .establishmentDate = .ok (some (row.cell .establishmentDate).toJson) := by
  cases h
  rfl

/-- The object leaves the `project_id` out. -/
theorem renderProject_projectId {row : Record} {db : DB} {object : Json}
    (h : renderProject row db = .ok object) :
    object.get .projectId = .ok none := by
  cases h
  rfl

/-! ## Dates -/

/-- The text of the column `establishment_date` for a project, once the list is fetched. -/
def shownDate (offset : ℤ) (id : ℕ) (db : DB) : Option String :=
  (entryOf id (getEvaluationProjects db).body).map (establishmentDateCell offset)

/-- The text of the date that was chosen. -/
def chosenDate (offset : ℤ) (t : TimeValue) : String := showDay (dateOf (localDay offset t.ms))

theorem shownDate_of_cell {offset : ℤ} {id : ℕ} {db : DB} {row : Record}
    (hfind : find (db .evaluationProject) id = some row) :
    shownDate offset id db = some (dateCell offset (row.cell .establishmentDate).toJson) := by
  obtain ⟨object, hobject, hentry⟩ := listed_project hfind
  rw [shownDate, hentry, Option.map_some, establishmentDateCell, renderProject_date hobject]

/-- A stored date is shown as that of its midnight UTC. -/
theorem shownDate_of_date {offset : ℤ} {id : ℕ} {db : DB} {row : Record} {d : Date}
    (hfind : find (db .evaluationProject) id = some row)
    (hdate : row.cell .establishmentDate = .date d) :
    shownDate offset id db = some (showDay (dateOf (d.toCalendar.toDay + offset / msPerDay))) := by
  have hmidnight : localDay offset ((d.toCalendar.toDay - epochDay) * msPerDay) =
      d.toCalendar.toDay + offset / msPerDay := by
    unfold localDay utcDay msPerDay
    omega
  have hne : httpDate d ≠ "" := by
    intro h
    have hmem := T_mem_httpDate d
    rw [h] at hmem
    cases hmem
  rw [shownDate_of_cell hfind, hdate, Value.toJson, dateCell, if_neg hne, parseUTCString_httpDate,
    Option.elim_some, hmidnight]

/-- The date shown is the one chosen iff it is the same day. -/
theorem shown_eq_chosen {offset : ℤ} {t : TimeValue} {n : ℤ} :
    some (showDay (dateOf n)) = some (chosenDate offset t) ↔ n = localDay offset t.ms := by
  rw [Option.some_inj, chosenDate, showDay_injective.eq_iff, Calendar.dateOf_injective.eq_iff]

/-- The local time that was chosen is not before the local time of midnight UTC. -/
def ReachesMidnight (offset : ℤ) (t : TimeValue) : Prop :=
  offset % msPerDay ≤ (t.ms + offset) % msPerDay

instance (offset : ℤ) (t : TimeValue) : Decidable (ReachesMidnight offset t) := by
  unfold ReachesMidnight; infer_instance

/-- **The day of an instant survives** the way to the server and back iff its local time is not
    before that of midnight UTC. -/
theorem utcDay_shown {offset : ℤ} {t : TimeValue} :
    utcDay t.ms + offset / msPerDay = localDay offset t.ms ↔ ReachesMidnight offset t := by
  unfold ReachesMidnight localDay utcDay msPerDay
  omega

/-- The UTC date of an instant is one of Python. -/
def InRange (t : TimeValue) : Prop :=
  1 ≤ (dateOf (utcDay t.ms)).year ∧ (dateOf (utcDay t.ms)).year ≤ 9999

instance (t : TimeValue) : Decidable (InRange t) := by unfold InRange; infer_instance

/-- The id of the project a submission is about. -/
def projectKey (db : DB) : Modal → ℕ
  | .add => nextId (db .evaluationProject)
  | .edit id _ => id

/-- The date that is stored where the one of the body cannot be parsed is shown as the one that
    was chosen: the current date for a new project, the date it had for an old one. -/
def FallbackShown (k : Clock) (offset : ℤ) (t : TimeValue) (db : DB) : Modal → Prop
  | .add => k.localDate.toCalendar.toDay + offset / msPerDay = localDay offset t.ms
  | .edit id _ => shownDate offset id db = some (chosenDate offset t)

theorem establishmentDate_toISOString (k : Clock) (t : TimeValue) :
    establishmentDate k (.str (toISOString t.ms)) =
      (Date.ofCalendar (dateOf (utcDay t.ms))).getD k.localDate := by
  rw [establishmentDate, if_pos (T_mem_toISOString t.ms), strptimeDate_beforeFirst]

theorem parseDate_toISOString (t : TimeValue) :
    parseDate (.str (toISOString t.ms)) = Date.ofCalendar (dateOf (utcDay t.ms)) := by
  have hne : toISOString t.ms ≠ "" := by
    intro h
    have hmem := T_mem_toISOString t.ms
    rw [h] at hmem
    cases hmem
  rw [parseDate, if_neg hne, if_pos (T_mem_toISOString t.ms), fromisoformat_toISOString]

theorem ofCalendar_inRange {t : TimeValue} (h : InRange t) :
    ∃ d, Date.ofCalendar (dateOf (utcDay t.ms)) = some d ∧ d.toCalendar.toDay = utcDay t.ms := by
  obtain ⟨d, hd⟩ := Option.isSome_iff_exists.mp (Date.ofCalendar_isSome.mpr h)
  refine ⟨d, hd, ?_⟩
  rw [Date.ofCalendar_eq_some.mp hd, Calendar.toDay_dateOf]

theorem ofCalendar_not_inRange {t : TimeValue} (h : ¬ InRange t) :
    Date.ofCalendar (dateOf (utcDay t.ms)) = none :=
  Option.not_isSome_iff_eq_none.mp fun hsome => h (Date.ofCalendar_isSome.mp hsome)

/-! ## Submissions -/

theorem projectData_date (values : ProjectValues) (date : String) (uploadFile projectId : Json) :
    (projectData values date uploadFile projectId).get .establishmentDate =
      .ok (some (.str date)) := by
  obtain ⟨name, manager, site, type, level, attr, status, _⟩ := values
  cases site <;> rfl

theorem projectData_projectId (values : ProjectValues) (date : String)
    (uploadFile projectId : Json) :
    (projectData values date uploadFile projectId).get .projectId = .ok (some projectId) := by
  obtain ⟨name, manager, site, type, level, attr, status, _⟩ := values
  cases site <;> rfl

/-- The project id that is sent. -/
def sentId (pinyin : String → String) (now : ℤ) (projectName : String) : Modal → Json
  | .add => .str (generateProjectId pinyin now projectName)
  | .edit _ selectedProject =>
    (storedProjectId selectedProject).getD (.str (generateProjectId pinyin now projectName))

/-- The request that sends `data`. -/
def requestOf (data : Json) : Modal → Request
  | .add => .create .project (.json data)
  | .edit id _ => .update .project id (.json data)

/-- **What a submission sends**: the instant of the date that was chosen; nothing where the date
    is still the text of the list. -/
theorem handleSubmit_eq_some {pinyin : String → String} {now : ℤ} {values : ProjectValues}
    {uploadFile : Json} {modal : Modal} {request : Request} :
    handleSubmit pinyin now values uploadFile modal = some request ↔
      ∃ t, values.establishmentDate = .chosen t ∧
        request = requestOf (projectData values (toISOString t.ms) uploadFile
          (sentId pinyin now values.projectName modal)) modal := by
  unfold handleSubmit
  cases hdate : values.establishmentDate with
  | loaded date => simp
  | chosen t => cases modal <;> simp [requestOf, sentId, eq_comm]

/-- **The date that was chosen is shown** by the list iff its local time is not before that of
    midnight UTC; where the UTC date is none of Python, iff the date stored instead is shown so. -/
theorem chosen_date_shown_iff (pinyin : String → String) (now : ℤ) (k : Clock) (offset : ℤ)
    (values : ProjectValues) (uploadFile : Json) (modal : Modal) (db : DB) (t : TimeValue)
    (request : Request) (hchosen : values.establishmentDate = .chosen t)
    (hsubmit : handleSubmit pinyin now values uploadFile modal = some request)
    (hgood : (handle k request db).1.Success) :
    shownDate offset (projectKey db modal) (handle k request db).2 = some (chosenDate offset t) ↔
      if InRange t then ReachesMidnight offset t else FallbackShown k offset t db modal := by
  obtain ⟨t', hdate', rfl⟩ := handleSubmit_eq_some.mp hsubmit
  obtain rfl : t = t' := FormDate.chosen.inj (hchosen.symm.trans hdate')
  cases modal with
  | add =>
    simp only [requestOf, projectKey] at hgood ⊢
    obtain ⟨row, date, projectId, hdate, -, hcell, -, hfind⟩ := project_created hgood
    rw [Json.getD_of_get (projectData_date _ _ _ _)] at hdate
    cases hdate
    rw [establishmentDate_toISOString] at hcell
    rw [shownDate_of_date hfind hcell, shown_eq_chosen]
    by_cases hrange : InRange t
    · obtain ⟨d, hd, hday⟩ := ofCalendar_inRange hrange
      rw [if_pos hrange, hd, Option.getD_some, hday, utcDay_shown]
    · rw [if_neg hrange, ofCalendar_not_inRange hrange, Option.getD_none]
      rfl
  | edit id selectedProject =>
    simp only [requestOf, projectKey] at hgood ⊢
    obtain ⟨row, row', date, projectId, hfind, hfind', hdate, -, hcell, -⟩ := project_updated hgood
    rw [projectData_date] at hdate
    cases hdate
    rw [Option.bind_some, parseDate_toISOString] at hcell
    by_cases hrange : InRange t
    · obtain ⟨d, hd, hday⟩ := ofCalendar_inRange hrange
      rw [hd, Option.elim_some] at hcell
      rw [if_pos hrange, shownDate_of_date hfind' hcell, shown_eq_chosen, hday, utcDay_shown]
    · rw [ofCalendar_not_inRange hrange, Option.elim_none] at hcell
      rw [if_neg hrange, FallbackShown, shownDate_of_cell hfind', shownDate_of_cell hfind, hcell]

/-- The first letter of `张`. -/
def firstLetters (s : String) : String := if s = "张" then "z" else ""

/-- 23:00 UTC on January 4, 2024. -/
def lateTime : TimeValue := ⟨1704409200000, by decide⟩

/-- A project with that date. -/
def lateProject : ProjectValues where
  projectName := "张"
  projectManagerId := .int 1
  siteProjectManagerId := none
  projectType := .int 1
  projectLevel := .int 1
  projectAttribute := .str "标准"
  establishmentStatus := .str "立项"
  establishmentDate := .chosen lateTime

/-- Its submission at the time `now`. -/
def lateRequest (now : ℤ) : Modal → Request :=
  requestOf (projectData lateProject "2024-01-04T23:00:00.000Z" .null
    (.str (generateProjectId firstLetters now "张")))

/-- Eight hours ahead of UTC, the list shows the day before. -/
theorem chosen_date_not_shown :
    handleSubmit firstLetters 1704409200000 lateProject .null .add =
        some (lateRequest 1704409200000 .add) ∧
      (handle .epoch (lateRequest 1704409200000 .add) (DB.ofRows [])).1.Success ∧
      chosenDate 28800000 lateTime = "2024-01-05" ∧
      shownDate 28800000 1 (handle .epoch (lateRequest 1704409200000 .add) (DB.ofRows [])).2 =
        some "2024-01-04" :=
  ⟨rfl, by decide +kernel⟩

/-- At UTC, the list shows the day. -/
theorem chosen_date_shown_iff_utc :
    shownDate 0 1 (handle .epoch (lateRequest 1704409200000 .add) (DB.ofRows [])).2 =
      some (chosenDate 0 lateTime) :=
  (chosen_date_shown_iff firstLetters 1704409200000 .epoch 0 lateProject .null .add (DB.ofRows [])
    lateTime (lateRequest 1704409200000 .add) rfl rfl (by decide +kernel)).mpr
    (by rw [if_pos (by decide +kernel)]; decide +kernel)

/-! ## Generated ids -/

/-- The `project_id` of a stored project. -/
def storedId (db : DB) (id : ℕ) : Option Value :=
  (find (db .evaluationProject) id).map fun row => row.cell .projectId

/-- A new project stores the id that was generated for it. -/
theorem added_projectId {pinyin : String → String} {now : ℤ} {k : Clock} {values : ProjectValues}
    {uploadFile : Json} {db : DB} {request : Request}
    (hsubmit : handleSubmit pinyin now values uploadFile .add = some request)
    (hgood : (handle k request db).1.Success) :
    storedId (handle k request db).2 (projectKey db .add) =
      some (.text (generateProjectId pinyin now values.projectName)) := by
  obtain ⟨t, -, rfl⟩ := handleSubmit_eq_some.mp hsubmit
  simp only [requestOf, sentId, projectKey] at hgood ⊢
  obtain ⟨row, _, projectId, -, hprojectId, -, hcell, hfind⟩ := project_created hgood
  rw [Json.item_of_get (projectData_projectId _ _ _ _)] at hprojectId
  cases hprojectId
  rw [storedId, hfind, Option.map_some, ← Except.ok.inj (hcell (by simp))]

/-- The database after a submission; one that throws leaves it. -/
def submitted (k : Clock) (db : DB) : Option Request → DB
  | none => db
  | some request => (handle k request db).2

/-- **An edit keeps the `project_id`** iff the date is still the text of the list, so that nothing
    is sent, or the id is the first letters of the new name followed by the last digits of the
    time of the edit, so that the page happens to make the same one again. -/
theorem project_id_kept_iff (pinyin : String → String) (now : ℤ) (k : Clock)
    (values : ProjectValues) (uploadFile selectedProject : Json) (id : ℕ) (loaded db : DB)
    (projectId : String)
    (hloaded : entryOf id (getEvaluationProjects loaded).body = some selectedProject)
    (hstored : storedId db id = some (.text projectId))
    (hgood : ∀ request,
      handleSubmit pinyin now values uploadFile (.edit id selectedProject) = some request →
        (handle k request db).1.Success) :
    storedId (submitted k db
        (handleSubmit pinyin now values uploadFile (.edit id selectedProject))) id =
        storedId db id ↔
      (∃ date, values.establishmentDate = .loaded date) ∨
        Remade (substringTo 4 (pinyin values.projectName)) now projectId := by
  obtain ⟨_, hobject⟩ := listed_entry hloaded
  have hnone : storedProjectId selectedProject = none := by
    rw [storedProjectId, renderProject_projectId hobject]
  cases hdate : values.establishmentDate with
  | loaded date =>
    have hnothing : handleSubmit pinyin now values uploadFile
        (.edit id selectedProject) = none := by
      rw [handleSubmit, hdate]
    rw [hnothing, submitted]
    exact iff_of_true rfl (Or.inl ⟨date, rfl⟩)
  | chosen t =>
    have hsubmit : handleSubmit pinyin now values uploadFile (.edit id selectedProject) =
        some (requestOf (projectData values (toISOString t.ms) uploadFile
          (sentId pinyin now values.projectName (.edit id selectedProject)))
          (.edit id selectedProject)) := handleSubmit_eq_some.mpr ⟨t, hdate, rfl⟩
    have hsuccess := hgood _ hsubmit
    rw [hsubmit, submitted]
    simp only [requestOf, sentId, hnone, Option.getD_none] at hsuccess ⊢
    obtain ⟨_, row, _, sent, -, hfind, -, hsent, -, hcell⟩ := project_updated hsuccess
    rw [projectData_projectId] at hsent
    cases hsent
    rw [hstored, storedId, hfind, Option.map_some, ← Except.ok.inj (hcell _ rfl), Option.some_inj,
      Value.text.injEq, eq_comm, generateProjectId_remade]
    simp

/-- A project with an id of the page. -/
def listedProjects : DB := DB.ofRows
  [(.evaluationProject, record 1 [(.projectId, .text "z00000"), (.projectName, .text "张"),
    (.projectShortName, .text "张"), (.mnemonic, .text "z00000"), (.projectManagerId, .int 1),
    (.projectType, .int 1), (.projectLevel, .int 1), (.projectAttribute, .text "标准"),
    (.establishmentDate, .date ⟨2024, 1, 4, by decide⟩), (.establishmentStatus, .text "立项")])]

/-- The object the list has for it. -/
def listedObject : Json :=
  (entryOf 1 (getEvaluationProjects listedProjects).body).getD .null

theorem listedObject_listed :
    entryOf 1 (getEvaluationProjects listedProjects).body = some listedObject := by
  have hfind : find (listedProjects .evaluationProject) 1 = some _ := rfl
  obtain ⟨object, -, hentry⟩ := listed_project hfind
  rw [listedObject, hentry, Option.getD_some]

/-- An edit ten milliseconds later changes the id. -/
theorem project_id_changes :
    entryOf 1 (getEvaluationProjects listedProjects).body = some listedObject ∧
      storedId listedProjects 1 = some (.text "z00000") ∧
      handleSubmit firstLetters 1704409200010 lateProject .null (.edit 1 listedObject) =
        some (lateRequest 1704409200010 (.edit 1 listedObject)) ∧
      (handle .epoch (lateRequest 1704409200010 (.edit 1 listedObject))
        listedProjects).1.Success ∧
      storedId (handle .epoch (lateRequest 1704409200010 (.edit 1 listedObject))
        listedProjects).2 1 = some (.text "z00010") :=
  ⟨listedObject_listed, by decide +kernel, rfl, by decide +kernel⟩

/-- An edit at an instant with the same last digits keeps it. -/
theorem project_id_kept_iff_same :
    storedId (submitted .epoch listedProjects
        (handleSubmit firstLetters 1704409300000 lateProject .null (.edit 1 listedObject))) 1 =
      storedId listedProjects 1 :=
  (project_id_kept_iff firstLetters 1704409300000 .epoch lateProject .null listedObject 1
    listedProjects listedProjects "z00000" listedObject_listed (by decide +kernel)
    (fun request hsubmit => by
      obtain rfl : lateRequest 1704409300000 (.edit 1 listedObject) = request :=
        Option.some.inj hsubmit
      decide +kernel)).mpr
    (Or.inr ⟨['0', '0', '0', '0', '0'], by decide +kernel, by decide +kernel, by decide,
      by decide +kernel⟩)

/-- **Two new projects have different ids** iff the first four letters of their names differ, or
    the last five digits of their instants. -/
theorem project_ids_differ_iff (pinyin : String → String) (now₁ now₂ : ℤ) (k₁ k₂ : Clock)
    (values₁ values₂ : ProjectValues) (uploadFile₁ uploadFile₂ : Json) (db₁ db₂ : DB)
    (request₁ request₂ : Request)
    (h₁ : 10 ^ 12 ≤ now₁ ∧ now₁ < 10 ^ 13) (h₂ : 10 ^ 12 ≤ now₂ ∧ now₂ < 10 ^ 13)
    (hsubmit₁ : handleSubmit pinyin now₁ values₁ uploadFile₁ .add = some request₁)
    (hsubmit₂ : handleSubmit pinyin now₂ values₂ uploadFile₂ .add = some request₂)
    (hgood₁ : (handle k₁ request₁ db₁).1.Success) (hgood₂ : (handle k₂ request₂ db₂).1.Success) :
    storedId (handle k₁ request₁ db₁).2 (projectKey db₁ .add) ≠
        storedId (handle k₂ request₂ db₂).2 (projectKey db₂ .add) ↔
      substringTo 4 (pinyin values₁.projectName) ≠ substringTo 4 (pinyin values₂.projectName) ∨
        now₁ % 100000 ≠ now₂ % 100000 := by
  rw [added_projectId hsubmit₁ hgood₁, added_projectId hsubmit₂ hgood₂, Ne, Option.some_inj,
    Value.text.injEq, generateProjectId_eq_iff h₁ h₂, not_and_or]

/-- The database with one project of the page. -/
def oneProject : DB := (handle .epoch (lateRequest 1704409200000 .add) (DB.ofRows [])).2

/-- A second project 100 seconds later has the id of the first. -/
theorem project_ids_equal :
    handleSubmit firstLetters 1704409200000 lateProject .null .add =
        some (lateRequest 1704409200000 .add) ∧
      handleSubmit firstLetters 1704409300000 lateProject .null .add =
        some (lateRequest 1704409300000 .add) ∧
      (handle .epoch (lateRequest 1704409200000 .add) (DB.ofRows [])).1.Success ∧
      (handle .epoch (lateRequest 1704409300000 .add) oneProject).1.Success ∧
      storedId (handle .epoch (lateRequest 1704409300000 .add) oneProject).2 1 =
        some (.text "z00000") ∧
      storedId (handle .epoch (lateRequest 1704409300000 .add) oneProject).2 2 =
        some (.text "z00000") :=
  ⟨rfl, rfl, by decide +kernel⟩

/-- A second project one millisecond later has another. -/
theorem project_ids_differ_iff_next :
    storedId (handle .epoch (lateRequest 1704409200000 .add) (DB.ofRows [])).2 1 ≠
      storedId (handle .epoch (lateRequest 1704409200001 .add) oneProject).2 2 :=
  (project_ids_differ_iff firstLetters 1704409200000 1704409200001 .epoch .epoch lateProject
    lateProject .null .null (DB.ofRows []) oneProject (lateRequest 1704409200000 .add)
    (lateRequest 1704409200001 .add) (by norm_num) (by norm_num) rfl rfl (by decide +kernel)
    (by decide +kernel)).mpr (Or.inr (by norm_num))

end ProjectEvaluation.Pages
