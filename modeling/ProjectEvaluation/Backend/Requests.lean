import ProjectEvaluation.Backend.Constraints
import ProjectEvaluation.Backend.Routes.Imports
import ProjectEvaluation.Backend.Routes.Projects
import ProjectEvaluation.Backend.Routes.Standards
import ProjectEvaluation.Backend.Routes.System
import ProjectEvaluation.Backend.Routes.Training

/-!
# The write requests

The forty-nine write handlers of `routes.py` that work on the database, and
what any of them can do to it.

Results:
* `create_cases`, `update_cases`, `delete_cases`: the runs of the handlers of a
  resource.
* `handle_cases`: a request that does not succeed leaves the database as it was,
  one that succeeds carries out operations of the session.
* `handle_valid`: requests keep the constraints of the columns.
-/

namespace ProjectEvaluation.Backend

open Python Relational Transaction

/-- The resources that have create, update and delete handlers. -/
inductive Resource
  | menu | skin | user | standard | clause | courseware | evaluationType | level | project
  | learningRecord | catalog | vendorResearch | dictionary | template | researchTask
  deriving DecidableEq

/-- The table of a resource. -/
def Resource.table : Resource → Table
  | .menu => .menu
  | .skin => .systemSkin
  | .user => .user
  | .standard => .evaluationStandard
  | .clause => .emrStandardClause
  | .courseware => .trainingCourseware
  | .evaluationType => .evaluationType
  | .level => .evaluationLevel
  | .project => .evaluationProject
  | .learningRecord => .learningRecord
  | .catalog => .standardCatalog
  | .vendorResearch => .vendorResearch
  | .dictionary => .systemDictionary
  | .template => .researchTemplate
  | .researchTask => .researchTask

/-- The create handlers. -/
def createResource (k : Clock) : Resource → Body → Handler
  | .menu => addMenu k
  | .skin => addSkin k
  | .user => createUser k
  | .standard => createEvaluationStandard k
  | .clause => createEmrStandardClause k
  | .courseware => createTrainingCourseware k
  | .evaluationType => createEvaluationType k
  | .level => createEvaluationLevel k
  | .project => createEvaluationProject k
  | .learningRecord => createLearningRecord k
  | .catalog => createStandardCatalog k
  | .vendorResearch => createVendorResearch k
  | .dictionary => createSystemDictionary k
  | .template => createResearchTemplate k
  | .researchTask => createResearchTask k

/-- The update handlers. -/
def updateResource (k : Clock) : Resource → ℕ → Body → Handler
  | .menu => updateMenu
  | .skin => updateSkin
  | .user => updateUser
  | .standard => updateEvaluationStandard
  | .clause => updateEmrStandardClause
  | .courseware => updateTrainingCourseware k
  | .evaluationType => updateEvaluationType
  | .level => updateEvaluationLevel
  | .project => updateEvaluationProject
  | .learningRecord => updateLearningRecord
  | .catalog => updateStandardCatalog
  | .vendorResearch => updateVendorResearch
  | .dictionary => updateSystemDictionary
  | .template => updateResearchTemplate
  | .researchTask => updateResearchTask

/-- The delete handlers. -/
def deleteResource : Resource → ℕ → Handler
  | .menu => deleteMenu
  | .skin => deleteSkin
  | .user => deleteUser
  | .standard => deleteEvaluationStandard
  | .clause => deleteEmrStandardClause
  | .courseware => deleteTrainingCourseware
  | .evaluationType => deleteEvaluationType
  | .level => deleteEvaluationLevel
  | .project => deleteEvaluationProject
  | .learningRecord => deleteLearningRecord
  | .catalog => deleteStandardCatalog
  | .vendorResearch => deleteVendorResearch
  | .dictionary => deleteSystemDictionary
  | .template => deleteResearchTemplate
  | .researchTask => deleteResearchTask

/-- The GET-by-id handlers. -/
def getResource : Resource → Option (ℕ → DB → Response)
  | .user => getUser
  | .standard => getEvaluationStandard
  | .clause => getEmrStandardClause
  | .evaluationType => getEvaluationType
  | .level => getEvaluationLevel
  | .project => getEvaluationProject
  | .learningRecord => getLearningRecord
  | .catalog => getStandardCatalog
  | .vendorResearch => getVendorResearch
  | .dictionary => getSystemDictionary
  | .template => getResearchTemplate
  | .researchTask => getResearchTask
  | .menu | .skin | .courseware => none

/-- The write requests. -/
inductive Request
  | register (body : Body)
  | rolePermissions (roleId : ℕ) (body : Body)
  | create (r : Resource) (body : Body)
  | update (r : Resource) (id : ℕ) (body : Body)
  | delete (r : Resource) (id : ℕ)
  | importDictionaries (file : Option Upload)
  | importTemplates (file : Option Upload)

/-- The handler of a request. -/
def Request.handler (k : Clock) : Request → Handler
  | .register body => Backend.register k body
  | .rolePermissions roleId body => updateRolePermissions k roleId body
  | .create r body => createResource k r body
  | .update r id body => updateResource k r id body
  | .delete r id => deleteResource r id
  | .importDictionaries file => importSystemDictionaries k file
  | .importTemplates file => importResearchTemplates k file

/-- Serve a write request. -/
def handle (k : Clock) (request : Request) (db : DB) : Response × DB := run (request.handler k) db

/-! ## Creating -/

/-- The attributes a create handler gives to the new row. -/
def Resource.attrs (k : Clock) (data : Json) (db : DB) : Resource → Except Exn (List (Field × Attr))
  | .menu => construct data menuSources
  | .skin => construct data skinSources
  | .user => construct data userSources
  | .standard => construct data standardSources
  | .clause => construct data clauseSources
  | .courseware => construct data coursewareSources
  | .evaluationType => construct data typeSources
  | .level => construct data levelSources
  | .project => projectAttrs k data
  | .learningRecord => (learningValues data db).bind evaluateAll
  | .catalog => construct data catalogSources
  | .vendorResearch => vendorAttrs k data
  | .dictionary => construct data dictionarySources
  | .template => construct data templateSources
  | .researchTask => taskAttrs data

/-- What a create handler does when it succeeds: it inserts a row, and gives a new
    courseware its role list. -/
def Created (k : Clock) (r : Resource) (body : Body) (db db' : DB) : Prop :=
  ∃ data attrs w, body = .json data ∧ r.attrs k data db = .ok attrs ∧
    insertRow k r.table attrs db = .ok w ∧
    Retargeted k (nextId (db .trainingCourseware)) db w db' ∧ (r ≠ .courseware → db' = w)

theorem created_of_cases {k : Clock} {r : Resource} {body : Body} {db : DB} {out : Response × DB}
    {prepare : Json → DB → Except Exn (Response ⊕ List (Field × Attr))}
    (h : Runs db out fun db' =>
      ∃ data attrs, body = .json data ∧ prepare data db = .ok (.inr attrs) ∧
        insertRow k r.table attrs db = .ok db')
    (hattrs : ∀ data attrs, prepare data db = .ok (.inr attrs) → r.attrs k data db = .ok attrs) :
    Runs db out (Created k r body db) := by
  rcases h with h | ⟨hgood, data, attrs, hbody, hprep, hins⟩
  · exact Or.inl h
  · exact Or.inr ⟨hgood, data, attrs, out.2, hbody, hattrs data attrs hprep, hins,
      Retargeted.refl .., fun _ => rfl⟩

/-- The create handlers that only construct a row. -/
theorem plain_created {k : Clock} {r : Resource} {body : Body} {db : DB} {out : Response × DB}
    {reply : Record → DB → Json}
    (hout : run (createHandler k r.table (fun data db => (r.attrs k data db).map .inr)
      (fun row db => .ok (reply row db)) body) db = out) : Runs db out (Created k r body db) :=
  created_of_cases
    (createHandler_cases (fun _ _ h => absurd h map_inr_inl) (fun _ _ _ _ _ => ⟨_, rfl⟩) hout)
    (fun _ _ h => map_inr_inr.mp h)

theorem prepareUser_refuses {data : Json} {db : DB} {r : Response}
    (h : prepareUser data db = .ok (.inl r)) :
    ¬ r.Success :=
  refuseIf_inl h fun h => refuseIf_inl h fun h => absurd h map_inr_inl

theorem prepareUser_attrs {data : Json} {db : DB} {attrs : List (Field × Attr)}
    (h : prepareUser data db = .ok (.inr attrs)) : construct data userSources = .ok attrs :=
  map_inr_inr.mp (refuseIf_inr.mp (refuseIf_inr.mp h).2).2

/-- **The runs of `register`.** -/
theorem register_cases {k : Clock} {body : Body} {db : DB} {out : Response × DB}
    (hout : run (Backend.register k body) db = out) : Runs db out fun db' =>
      ∃ data attrs, body = .json data ∧ construct data userSources = .ok attrs ∧
        insertRow k .user attrs db = .ok db' := by
  refine (createHandler_cases (fun _ _ h => prepareUser_refuses h)
    (fun _ _ _ _ _ => ⟨_, rfl⟩) hout).imp ?_
  rintro db' ⟨data, attrs, hbody, hprep, hins⟩
  exact ⟨data, attrs, hbody, prepareUser_attrs hprep, hins⟩

theorem newRow_value {k : Clock} {t : Table} {attrs : List (Field × Attr)} {db : DB} {f : Field}
    {c : Column}
    {v : Value} (hc : t.column f = some c) (ha : attrs.lookup f = some (.value v))
    (hv : fits c.type v = true) :
    (newRow k t attrs db).cell f = v := by
  obtain rfl := Table.column_field hc
  refine newRow_cell (Table.mem_of_column hc) ?_
  have hnone : (Attr.value v).isNone = false := by
    cases v <;> first | rfl | (cases hty : c.type <;> rw [hty] at hv <;> cases hv)
  rw [Column.initial_eq_bind k ha (Or.inr hnone)]
  exact Attr.bind_value (Or.inr hv)

/-- A learning record as the handlers store it: times of whole minutes, with the
    duration that goes with them. -/
def LearningTimes (record : Record) : Prop :=
  ∃ d startTime endTime, record.cell .learningDate = .date d ∧
    record.cell .startTime = .time startTime ∧
    record.cell .endTime = .time endTime ∧ startTime.second = 0 ∧ endTime.second = 0 ∧
    record.cell .learningDuration = .text (durationText startTime endTime)

theorem LearningTimes.render {record : Record} (h : LearningTimes record) :
    ∃ j, renderLearningRecord dayText timeText record = .ok j := by
  obtain ⟨d, startTime, endTime, hd, hstart, hend, -⟩ := h
  rw [renderLearningRecord, hd, hstart, hend]
  exact ⟨_, rfl⟩

theorem parsedTime_second {data : Json} {f : Field} {t : Time}
    (h : (data.item f).bind parseTime = .ok t) : t.second = 0 := by
  obtain ⟨j, -, h⟩ := bind_eq_ok.mp h
  cases j with
  | str s =>
    simp only [parseTime] at h
    cases hs : strptimeTime s with
    | none => rw [hs] at h; cases h
    | some t' => rw [hs] at h; cases h; exact strptimeTime_second hs
  | _ => cases h

theorem learning_created {k : Clock} {data : Json} {db : DB} {attrs : List (Field × Attr)}
    (h : (learningValues data db).bind evaluateAll = .ok attrs) :
    LearningTimes (newRow k .learningRecord attrs db) := by
  obtain ⟨input, hreads, rfl⟩ := learningAttrs_eq h
  refine ⟨input.day, input.startTime, input.endTime, ?_, ?_, ?_, parsedTime_second hreads.startTime,
    parsedTime_second hreads.endTime, ?_⟩
  · exact newRow_value (c := required .learningDate .date) rfl rfl rfl
  · exact newRow_value (c := required .startTime .time) rfl rfl rfl
  · exact newRow_value (c := required .endTime .time) rfl rfl rfl
  · exact newRow_cell (c := required .learningDuration .string)
      (Table.mem_of_column (f := .learningDuration) rfl) rfl

/-- **The runs of a create handler.** -/
theorem create_cases {k : Clock} {r : Resource} {body : Body} {db : DB} {out : Response × DB}
    (hout : run (createResource k r body) db = out) : Runs db out (Created k r body db) := by
  cases r with
  | courseware =>
    rcases createTrainingCourseware_cases hout with h |
      ⟨hgood, data, attrs, w, hbody, hattrs, hins, hre⟩
    · exact Or.inl h
    · exact Or.inr ⟨hgood, data, attrs, w, hbody, hattrs, hins, hre, fun h => absurd rfl h⟩
  | user =>
    exact created_of_cases
      (createHandler_cases (fun _ _ h => prepareUser_refuses h) (fun _ _ _ _ _ => ⟨_, rfl⟩) hout)
      (fun _ _ h => prepareUser_attrs h)
  | standard =>
    exact created_of_cases
      (createHandler_cases (fun _ _ h => refuseIf_inl h fun h => absurd h map_inr_inl)
        (fun _ _ _ _ _ => ⟨_, rfl⟩) hout)
      (fun _ _ h => map_inr_inr.mp (refuseIf_inr.mp h).2)
  | evaluationType =>
    exact created_of_cases
      (createHandler_cases (fun _ _ h => refuseIf_inl h fun h => absurd h map_inr_inl)
        (fun _ _ _ _ _ => ⟨_, rfl⟩) hout)
      (fun _ _ h => map_inr_inr.mp (refuseIf_inr.mp h).2)
  | learningRecord =>
    refine created_of_cases
      (createHandler_cases (fun _ _ h => absurd h map_inr_inl) (fun data attrs db' h _ => ?_) hout)
      (fun _ _ h => map_inr_inr.mp h)
    exact (learning_created (map_inr_inr.mp h)).render
  | menu => exact plain_created hout
  | skin => exact plain_created hout
  | clause => exact plain_created hout
  | level => exact plain_created hout
  | project => exact plain_created hout
  | catalog => exact plain_created hout
  | vendorResearch => exact plain_created hout
  | dictionary => exact plain_created hout
  | template => exact plain_created hout
  | researchTask => exact plain_created hout

/-! ## Updating -/

/-- The assignments of an update handler. -/
def Resource.assignments (data : Json) (row : Record) (db : DB) :
    Resource → Except Exn (List Assignment)
  | .menu => .ok (menuFields.map (keep data row))
  | .skin => .ok (skinFields.map (keep data row))
  | .user => .ok (userAssignments data row)
  | .standard => .ok (standardFields.map (keep data row))
  | .clause => .ok (clauseFields.map (keep data row))
  | .courseware => .ok (coursewareAssignments data row)
  | .evaluationType => .ok (typeFields.map (keep data row))
  | .level => .ok (levelFields.map (keep data row))
  | .project => .ok (projectAssignments data row)
  | .learningRecord => learningAssignments data db
  | .catalog => .ok (catalogFields.map (keep data row))
  | .vendorResearch => .ok (vendorAssignments data row)
  | .dictionary => .ok (dictionaryFields.map (keep data row))
  | .template => .ok (templateFields.map (keep data row))
  | .researchTask => taskAssignments data row

/-- What an update handler does when it succeeds: it assigns cells of the row, and
    changes the role list of a courseware if the body has one. -/
def Updated (k : Clock) (r : Resource) (id : ℕ) (body : Body) (db db' : DB) : Prop :=
  ∃ row data assignments ops w, id < 2 ^ 63 ∧ find (db r.table) id = some row ∧ body = .json data ∧
    r.assignments data row db = .ok assignments ∧ updateOps r.table id assignments = .ok ops ∧
    applyAll applyOp ops db = .ok w ∧ Retargeted k id db w db' ∧
    (¬ (r = .courseware ∧ data.has .trainingTargets = true) → db' = w)

theorem updated_of_cases {k : Clock} {r : Resource} {id : ℕ} {body : Body} {db : DB}
    {out : Response × DB}
    {prepare : Json → Record → DB → Except Exn (Response ⊕ List Assignment)}
    (h : Runs db out fun db' =>
      ∃ row data assignments ops, id < 2 ^ 63 ∧ find (db r.table) id = some row ∧
        body = .json data ∧ prepare data row db = .ok (.inr assignments) ∧
        updateOps r.table id assignments = .ok ops ∧ applyAll applyOp ops db = .ok db')
    (hassign : ∀ data row assignments, prepare data row db = .ok (.inr assignments) →
      r.assignments data row db = .ok assignments) : Runs db out (Updated k r id body db) := by
  rcases h with h | ⟨hgood, row, data, assignments, ops, hid, hfind, hbody, hprep, hops, hall⟩
  · exact Or.inl h
  · exact Or.inr ⟨hgood, row, data, assignments, ops, out.2, hid, hfind, hbody,
      hassign data row assignments hprep, hops, hall, Retargeted.refl .., fun _ => rfl⟩

/-- The update handlers that check nothing and always have an answer. -/
theorem plain_updated {k : Clock} {r : Resource} {id : ℕ} {body : Body} {db : DB}
    {out : Response × DB}
    {missing : String} {reply : Record → DB → Json}
    (hout : run
      (updateHandler r.table missing (fun data row db => (r.assignments data row db).map .inr)
      (fun row db => .ok (reply row db)) id body) db = out) : Runs db out
        (Updated k r id body db) :=
  updated_of_cases
    (updateHandler_cases (fun _ _ _ h => absurd h map_inr_inl)
      (fun _ _ _ _ _ _ _ _ _ _ => ⟨_, rfl⟩) hout)
    (fun _ _ _ h => map_inr_inr.mp h)

theorem learning_updated {data : Json} {db db' : DB} {id : ℕ} {assignments : List Assignment}
    {ops : List Op} (h : learningAssignments data db = .ok assignments)
    (hops : updateOps .learningRecord id assignments = .ok ops)
    (hall : applyAll applyOp ops db = .ok db')
    (row : Record) : LearningTimes
    (assignCells row (updateValues .learningRecord assignments)) := by
  obtain ⟨-, heval⟩ := updateOps_eq hops hall
  obtain ⟨input, hreads, rfl⟩ :=
    learningAssignments_eq h fun a ha => ⟨_, (heval a ha).choose_spec.1⟩
  refine ⟨input.day, input.startTime, input.endTime, ?_, ?_, ?_, parsedTime_second hreads.startTime,
    parsedTime_second hreads.endTime, ?_⟩
  · exact assigned_cell input.assignments_nodup row (List.mem_of_getElem? (i := 3) rfl) rfl rfl
  · exact assigned_cell input.assignments_nodup row (List.mem_of_getElem? (i := 4) rfl) rfl rfl
  · exact assigned_cell input.assignments_nodup row (List.mem_of_getElem? (i := 5) rfl) rfl rfl
  · exact assigned_cell input.assignments_nodup row (List.mem_of_getElem? (i := 6) rfl) rfl rfl

theorem learning_updated_reply {data : Json} {db db' : DB} {id : ℕ} {assignments : List Assignment}
    {ops : List Op} {row' : Record} (h : learningAssignments data db = .ok assignments)
    (hops : updateOps .learningRecord id assignments = .ok ops)
    (hall : applyAll applyOp ops db = .ok db')
    (hfind : find (db' .learningRecord) id = some row') :
    ∃ j, renderLearningRecord dayText timeText row' = .ok j := by
  rw [(updateOps_eq hops hall).1, find_setCells] at hfind
  obtain ⟨row, -, rfl⟩ := Option.map_eq_some_iff.mp hfind
  exact (learning_updated h hops hall row).render

/-- **The runs of an update handler.** -/
theorem update_cases {k : Clock} {r : Resource} {id : ℕ} {body : Body} {db : DB}
    {out : Response × DB}
    (hout : run (updateResource k r id body) db = out) : Runs db out (Updated k r id body db) := by
  cases r with
  | courseware =>
    rcases updateTrainingCourseware_cases hout with
      h | ⟨hgood, row, data, ops, w, hid, hfind, hbody, hops, hall, hre, hsame⟩
    · exact Or.inl h
    · refine Or.inr ⟨hgood, row, data, _, ops, w, hid, hfind, hbody, rfl, hops, hall, hre,
        fun hno => ?_⟩
      exact hsame (by simpa using hno)
  | user =>
    exact updated_of_cases
      (updateHandler_cases
        (fun _ _ _ h => refuseIf_inl h refuseIf_ok_inl)
        (fun _ _ _ _ _ _ _ _ _ _ => ⟨_, rfl⟩) hout)
      (fun _ _ _ h => by cases (refuseIf_inr.mp (refuseIf_inr.mp h).2).2; rfl)
  | standard =>
    exact updated_of_cases
      (updateHandler_cases (fun _ _ _ h => refuseIf_ok_inl h)
        (fun _ _ _ _ _ _ _ _ _ _ => ⟨_, rfl⟩) hout)
      (fun _ _ _ h => by cases (refuseIf_inr.mp h).2; rfl)
  | evaluationType =>
    exact updated_of_cases
      (updateHandler_cases (fun _ _ _ h => refuseIf_ok_inl h)
        (fun _ _ _ _ _ _ _ _ _ _ => ⟨_, rfl⟩) hout)
      (fun _ _ _ h => by cases (refuseIf_inr.mp h).2; rfl)
  | learningRecord =>
    exact updated_of_cases
      (updateHandler_cases (fun _ _ _ h => absurd h map_inr_inl)
        (fun _ _ _ _ _ _ h hops hall hfind =>
          learning_updated_reply (map_inr_inr.mp h) hops hall hfind)
        hout)
      (fun _ _ _ h => map_inr_inr.mp h)
  | menu => exact plain_updated hout
  | skin => exact plain_updated hout
  | clause => exact plain_updated hout
  | level => exact plain_updated hout
  | project => exact plain_updated hout
  | catalog => exact plain_updated hout
  | vendorResearch => exact plain_updated hout
  | dictionary => exact plain_updated hout
  | template => exact plain_updated hout
  | researchTask => exact plain_updated hout

/-- The attributes an update handler assigns, in order. -/
def Resource.assigned : Resource → List Field
  | .menu => menuFields
  | .skin => skinFields
  | .user => [.username, .password, .name, .email, .roleId]
  | .standard => standardFields
  | .clause => clauseFields
  | .courseware =>
    [.coursewareName, .attachment, .version, .author, .courseDuration, .enabledStatus, .courseType]
  | .evaluationType => typeFields
  | .level => levelFields
  | .project =>
    [.projectId, .projectName, .projectShortName, .mnemonic, .projectManagerId, .projectType,
     .projectLevel, .siteProjectManagerId, .projectAttribute, .establishmentDate,
     .establishmentStatus, .establishmentProof]
  | .learningRecord =>
    [.coursewareName, .learningCourseware, .learningPerson, .learningDate, .startTime, .endTime,
      .learningDuration]
  | .catalog => catalogFields
  | .vendorResearch =>
    [.researchDate, .researcherId, .projectId, .taskName, .systemId, .manufacturer, .remarks]
  | .dictionary => dictionaryFields
  | .template => templateFields
  | .researchTask =>
    [.projectType, .projectLevel, .projectId, .taskName, .taskStatus, .plannedCompletionTime,
     .researcherId, .completerId, .actualCompletionTime]

/-- An update handler assigns the same attributes whatever it reads. -/
theorem assignments_fields {r : Resource} {data : Json} {row : Record} {db : DB}
    {assignments : List Assignment} (h : r.assignments data row db = .ok assignments) :
    assignments.map Prod.fst = r.assigned := by
  have hkeep : ∀ fields : List Field, (fields.map (keep data row)).map Prod.fst = fields := by
    intro fields
    rw [List.map_map]
    exact List.map_id' fields
  cases r with
  | menu => cases h; exact hkeep menuFields
  | skin => cases h; exact hkeep skinFields
  | user => cases h; rfl
  | standard => cases h; exact hkeep standardFields
  | clause => cases h; exact hkeep clauseFields
  | courseware => cases h; rfl
  | evaluationType => cases h; exact hkeep typeFields
  | level => cases h; exact hkeep levelFields
  | project => cases h; rfl
  | learningRecord =>
    obtain ⟨values, hvalues, rfl⟩ := map_eq_ok.mp h
    obtain ⟨_, _, _, _, -, -, -, -, rfl⟩ := learningValues_eq hvalues
    rfl
  | catalog => cases h; exact hkeep catalogFields
  | vendorResearch => cases h; rfl
  | dictionary => cases h; exact hkeep dictionaryFields
  | template => cases h; exact hkeep templateFields
  | researchTask =>
    obtain ⟨planned, -, h⟩ := do_eq_ok.mp h
    obtain ⟨actual, -, h⟩ := do_eq_ok.mp h
    cases h
    rfl

/-- No update handler assigns an attribute twice. -/
theorem assignments_nodup {r : Resource} {data : Json} {row : Record} {db : DB}
    {assignments : List Assignment} (h : r.assignments data row db = .ok assignments) :
    (assignments.map Prod.fst).Nodup := by
  rw [assignments_fields h]
  cases r <;> decide

/-! ## Deleting -/

/-- The rows a delete handler deletes along with the one it is asked for. -/
def Resource.cascade (row : Record) (db : DB) : Resource → Except Exn (List (Table × ℕ))
  | .researchTask => researchesOf row db
  | _ => .ok []

/-- What a delete handler does when it succeeds. -/
def Deleted (r : Resource) (id : ℕ) (db db' : DB) : Prop :=
  ∃ row others, id < 2 ^ 63 ∧ find (db r.table) id = some row ∧ r.cascade row db = .ok others ∧
    applyAll applyOp (deleteOps r.table id others) db = .ok db'

/-- **The runs of a delete handler.** -/
theorem delete_cases {r : Resource} {id : ℕ} {db : DB} {out : Response × DB}
    (hout : run (deleteResource r id) db = out) : Runs db out (Deleted r id db) := by
  cases r <;> exact deleteHandler_cases hout

/-! ## All requests -/

/-- The tables whose cells the create and update handlers of a resource write. -/
def Resource.tables (r : Resource) : List Table :=
  if r = .courseware then [.trainingCourseware, .trainingTargets] else [r.table]

/-- The tables whose cells a request writes. -/
def Request.tables : Request → List Table
  | .register _ => [.user]
  | .rolePermissions _ _ => [.rolePermission]
  | .create r _ => r.tables
  | .update r _ _ => r.tables
  | .delete _ _ => []
  | .importDictionaries _ => [.systemDictionary]
  | .importTemplates _ => [.researchTemplate]

/-- Operations of the session that write to some tables only lead from one database
    to another. -/
def Steps (tables : List Table) (db db' : DB) : Prop :=
  ∃ ops, (∀ o ∈ ops, ∀ t, o.writes = some t → t ∈ tables) ∧ applyAll applyOp ops db = .ok db'

theorem Steps.trans {tables : List Table} {db db₁ db' : DB} (h : Steps tables db db₁)
    (h' : Steps tables db₁ db') : Steps tables db db' := by
  obtain ⟨ops, hwrites, h⟩ := h
  obtain ⟨ops', hwrites', h'⟩ := h'
  refine ⟨ops ++ ops', fun o ho => ?_, by rw [applyAll_append, h]; exact h'⟩
  rcases List.mem_append.mp ho with ho | ho
  · exact hwrites o ho
  · exact hwrites' o ho

theorem Steps.insert {k : Clock} {t : Table} {attrs : List (Field × Attr)} {tables : List Table}
    {db db' : DB}
    (ht : t ∈ tables) (h : insertRow k t attrs db = .ok db') : Steps tables db db' := by
  refine ⟨[.insert k t attrs], fun o ho t' ht' => ?_, (applyAll_singleton _ _ _).trans h⟩
  rw [List.mem_singleton.mp ho] at ht'
  cases ht'
  exact ht

/-- Rows of a loop that inserts into one table. -/
theorem Steps.loop {k : Clock} {t : Table} {ops : List Op} {db db' : DB}
    (hops : ∀ o ∈ ops, ∃ attrs, o = .insert k t attrs) (h : applyAll applyOp ops db = .ok db') :
    Steps [t] db db' := by
  refine ⟨ops, fun o ho t' ht' => ?_, h⟩
  obtain ⟨attrs, rfl⟩ := hops o ho
  cases ht'
  exact List.mem_singleton_self t

theorem Retargeted.steps {k : Clock} {courseware : ℕ} {db w w' : DB}
    (h : Retargeted k courseware db w w') :
    Steps [.trainingCourseware, .trainingTargets] w w' := by
  refine h.preserves (P := fun w' => Steps [.trainingCourseware, .trainingTargets] w w') ?_
    ⟨[], fun o ho => (nomatch ho), rfl⟩
  intro roles w₁ w₂ _ hw hset
  refine hw.trans ⟨[.setTargets k courseware roles], fun o ho t ht => ?_,
    (applyAll_singleton _ _ _).trans hset⟩
  rw [List.mem_singleton.mp ho] at ht
  cases ht
  decide

theorem Resource.mem_tables (r : Resource) : r.table ∈ r.tables := by cases r <;> decide

theorem created_steps {k : Clock} {r : Resource} {body : Body} {db db' : DB}
    (h : Created k r body db db') : Steps r.tables db db' := by
  obtain ⟨data, attrs, w, -, -, hins, hre, hsame⟩ := h
  have hw : Steps r.tables db w := Steps.insert r.mem_tables hins
  by_cases hr : r = .courseware
  · subst hr; exact hw.trans hre.steps
  · rw [hsame hr]; exact hw

theorem updated_steps {k : Clock} {r : Resource} {id : ℕ} {body : Body} {db db' : DB}
    (h : Updated k r id body db db') : Steps r.tables db db' := by
  obtain ⟨row, data, assignments, ops, w, -, -, -, -, hops, hall, hre, hsame⟩ := h
  have hw : Steps r.tables db w := by
    refine ⟨ops, fun o ho t ht => ?_, hall⟩
    obtain ⟨-, rfl⟩ := stagedOps_eq_ok.mp hops
    obtain ⟨x, hx, hjoin⟩ := List.mem_filterMap.mp ho
    obtain ⟨a, -, rfl⟩ := List.mem_map.mp hx
    have htable : t = r.table := by
      unfold Assignment.op at hjoin
      cases ha : a.2 with
      | error e => rw [ha] at hjoin; cases hjoin
      | ok y =>
        rw [ha] at hjoin
        cases y with
        | none => cases hjoin
        | some v => cases hjoin; cases ht; rfl
    rw [htable]
    exact r.mem_tables
  by_cases hr : r = .courseware ∧ data.has .trainingTargets = true
  · obtain ⟨rfl, -⟩ := hr; exact hw.trans hre.steps
  · rw [hsame hr]; exact hw

theorem handle_create (k : Clock) (r : Resource) (body : Body) (db : DB) :
    Runs db (handle k (.create r body) db) (Created k r body db) := create_cases rfl

theorem handle_update (k : Clock) (r : Resource) (id : ℕ) (body : Body) (db : DB) :
    Runs db (handle k (.update r id body) db) (Updated k r id body db) := update_cases rfl

theorem handle_delete (k : Clock) (r : Resource) (id : ℕ) (db : DB) :
    Runs db (handle k (.delete r id) db) (Deleted r id db) := delete_cases rfl

/-- **What a request can do**: it refuses and leaves the database as it was, or it
    succeeds and carries out operations on its own tables. -/
theorem handle_cases (k : Clock) (request : Request) (db : DB) :
    Runs db (handle k request db) (Steps request.tables db) := by
  cases request with
  | register body =>
    refine Runs.imp (register_cases rfl) ?_
    rintro db' ⟨data, attrs, -, -, hins⟩
    exact Steps.insert (List.mem_singleton_self _) hins
  | rolePermissions roleId body =>
    refine (updateRolePermissions_cases rfl).imp ?_
    rintro db' ⟨data, perms, ops, -, -, hops, hall⟩
    refine ⟨_, fun o ho t ht => ?_, hall⟩
    rcases List.mem_cons.mp ho with rfl | ho
    · cases ht
    · obtain ⟨attrs, rfl, -⟩ := newPermission_inserts hops o ho
      cases ht
      exact List.mem_singleton_self _
  | create r body => exact (create_cases rfl).imp fun _ h => created_steps h
  | update r id body => exact (update_cases rfl).imp fun _ h => updated_steps h
  | delete r id =>
    refine (delete_cases rfl).imp ?_
    rintro db' ⟨row, others, -, -, -, hall⟩
    refine ⟨_, fun o ho t ht => ?_, hall⟩
    rw [deleteOps_eq] at ho
    obtain ⟨p, -, rfl⟩ := List.mem_map.mp ho
    cases ht
  | importDictionaries file =>
    refine (importSystemDictionaries_cases rfl).imp ?_
    rintro db' ⟨ops, ⟨upload, -, rows, -, rfl, -⟩, hall⟩
    exact Steps.loop (csvOps_inserts (fun _ _ => dictionaryRow_insert) rows) hall
  | importTemplates file =>
    refine (importResearchTemplates_cases rfl).imp ?_
    rintro db' ⟨ops, ⟨upload, -, ⟨-, data, -, rfl, -⟩ | ⟨-, rows, -, rfl, -⟩⟩, hall⟩
    · exact Steps.loop (jsonOps_inserts k data) hall
    · refine Steps.loop (csvOps_inserts (k := k) (fun _ _ h => ?_) rows) hall
      obtain ⟨_, _, _, _, attrs, -, -, -, -, rfl, -⟩ := templateRow_insert h
      exact ⟨attrs, rfl⟩

/-- **Requests keep the constraints.** -/
theorem handle_valid {k : Clock} {request : Request} {db : DB} (hv : Valid db) :
    Valid (handle k request db).2 := by
  rcases handle_cases k request db with ⟨-, hdb⟩ | ⟨-, ops, -, hall⟩
  · rw [hdb]; exact hv
  · exact applyAll_preserves applyOp applyOp_valid hv hall

/-- Every request of a run that is carried out has a property in the state in which it
    is served. -/
def Along {ρ : Type} (toRequest : ρ → Request) (P : DB → ρ → Prop) : DB → List (Clock × ρ) → Prop
  | _, [] => True
  | db, (k, request) :: run =>
    ((handle k (toRequest request) db).1.Success → P db request) ∧
      Along toRequest P (handle k (toRequest request) db).2 run

/-- **A request that does not succeed changes nothing**, whatever its body is and
    whatever the database holds. -/
theorem unsuccessful_changes_nothing (k : Clock) (request : Request) (db : DB)
    (h : ¬ (handle k request db).1.Success) : (handle k request db).2 = db := by
  rcases handle_cases k request db with ⟨-, hdb⟩ | ⟨hgood, -⟩
  · exact hdb
  · exact absurd hgood h

/-- The body `[{"menu_id": 1, "can_access": true}, 7]` of a permission request fails
    at its second entry, after the bulk delete and the first insertion. -/
theorem unsuccessful_changes_nothing_second_entry :
    ¬ (handle .epoch (.rolePermissions 1 (.json (.list
        [.dict [(.menuId, .int 1), (.canAccess, .bool true)], .int 7]))) fun _ => []).1.Success ∧
      (handle .epoch (.rolePermissions 1 (.json (.list
        [.dict [(.menuId, .int 1), (.canAccess, .bool true)], .int 7]))) fun _ =>
          []).2 =
          fun _ =>
          [] :=
  have h : ¬ (handle .epoch (.rolePermissions 1 (.json (.list
      [.dict [(.menuId, .int 1), (.canAccess, .bool true)], .int 7]))) fun _ =>
        []).1.Success := by decide
  ⟨h, unsuccessful_changes_nothing _ _ _ h⟩

end ProjectEvaluation.Backend
