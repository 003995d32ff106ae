import ProjectEvaluation.Backend.Footprints
import ProjectEvaluation.Backend.Routes.Lists

/-!
# The requests that only read

The login and the GET handlers of `routes.py`, and the tables they look into.

Results:
* `Query.answer_congr`: an answer depends on the tables of the query only.
-/

namespace ProjectEvaluation.Backend

open Python Relational Transaction

/-- The lists of the resources. -/
def listResource : Resource → DB → Response
  | .menu => getMenus
  | .skin => getSkins
  | .user => getUsers
  | .standard => getEvaluationStandards
  | .clause => getEmrStandardClauses
      { standardId := none, workRole := none, businessProject := none, functionScore := none }
  | .courseware => getTrainingCourseware none
  | .evaluationType => getEvaluationTypes
  | .level => getEvaluationLevels none
  | .project => getEvaluationProjects
  | .learningRecord => getLearningRecords
  | .catalog => getStandardCatalogs
  | .vendorResearch => getVendorResearches
  | .dictionary => getSystemDictionaries
  | .template => getResearchTemplates
  | .researchTask => getResearchTasks

/-- The answer to a path that exists for other methods only. -/
def notAllowed : Response := { status := 405, body := .null }

/-- The GET-by-id handlers, with the one of courseware. -/
def getOne : Resource → ℕ → DB → Response
  | .courseware => getTrainingCoursewareDetail
  | r => (getResource r).getD fun _ _ => notAllowed

/-- The requests that only read. -/
inductive Query
  | login (body : Body)
  | roles
  | dicts
  | rolePermissions (roleId : ℕ)
  | all (r : Resource)
  | one (r : Resource) (id : ℕ)
  | clauses (args : ClauseArgs)
  | levels (evaluationTypeId : Option String)
  | courseware (courseType : Option String)
  | workRoles
  | businessProjects
  | functionScores
  | taskCount

/-- Serve a request that only reads. `encode` is the `jwt.encode` of the login. -/
def Query.answer (encode : ℕ → Date → Time → String) (k : Clock) : Query → DB → Response
  | .login body => Backend.login encode k body
  | .roles => getRoles
  | .dicts => getDicts
  | .rolePermissions roleId => getRolePermissions roleId
  | .all r => listResource r
  | .one r id => getOne r id
  | .clauses args => getEmrStandardClauses args
  | .levels evaluationTypeId => getEvaluationLevels evaluationTypeId
  | .courseware courseType => getTrainingCourseware courseType
  | .workRoles => getEmrWorkRoles
  | .businessProjects => getEmrBusinessProjects
  | .functionScores => getEmrFunctionScores
  | .taskCount => getResearchTasksCount

/-- The tables a list takes names from. -/
def Resource.named : Resource → List Table
  | .courseware => [.role, .trainingTargets]
  | .project => [.user, .evaluationType, .evaluationLevel]
  | .vendorResearch => [.user, .evaluationProject, .systemDictionary]
  | .template => [.evaluationType, .evaluationLevel, .systemDictionary, .emrStandardClause]
  | .researchTask => [.evaluationType, .evaluationLevel, .evaluationProject, .user]
  | _ => []

/-- The tables a GET-by-id handler takes names from. -/
def Resource.namedOne : Resource → List Table
  | .template | .researchTask => []
  | r => r.named

/-- The tables a query looks into. -/
def Query.tables : Query → List Table
  | .login _ => [.user]
  | .roles => [.role]
  | .dicts => [.systemDict]
  | .rolePermissions _ => [.rolePermission]
  | .all r => r.table :: r.named
  | .one r _ => r.table :: r.namedOne
  | .clauses _ | .workRoles | .businessProjects | .functionScores => [.emrStandardClause]
  | .levels _ => [.evaluationLevel]
  | .courseware _ => [.trainingCourseware, .role, .trainingTargets]
  | .taskCount => [.researchTask]

/-! ## What an answer depends on -/

theorem getHandler_congr {t : Table} {missing : String} {render : Record → DB → Except Exn Json}
    {db db' : DB}
    (h : db t = db' t) (hrender : ∀ row, render row db = render row db') (id : ℕ) :
    getHandler t missing render id db = getHandler t missing render id db' := by
  unfold getHandler
  simp only [getById_congr h, hrender]

theorem listRows_congr {rows : List Record} {render : Record → DB → Except Exn Json} {db db' : DB}
    (hrender : ∀ row, render row db = render row db') :
    listRows rows render db = listRows rows render db' := by
  unfold listRows
  simp only [hrender]

theorem listAll_congr {t : Table} {render : Record → DB → Except Exn Json} {db db' : DB}
    (h : db t = db' t)
    (hrender : ∀ row, render row db = render row db') :
    listAll t render db = listAll t render db' := by
  unfold listAll
  rw [h]
  exact listRows_congr hrender

theorem login_congr {db db' : DB} (h : db .user = db' .user)
    (encode : ℕ → Date → Time → String) (k : Clock)
    (body : Body) : login encode k body db = login encode k body db' := by
  unfold login
  simp only [filterBy_congr h]

theorem formatMenu_congr {db db' : DB} (h : db .menu = db' .menu) (n : ℕ) (menu : Record) :
    formatMenu db n menu = formatMenu db' n menu := by
  induction n generalizing menu with
  | zero => rfl
  | succ n ih =>
    have hchildren : menuChildren db menu = menuChildren db' menu := by
      unfold menuChildren
      rw [h]
    rw [formatMenu, formatMenu, hchildren, funext ih]

theorem getMenus_congr {db db' : DB} (h : db .menu = db' .menu) : getMenus db = getMenus db' := by
  unfold getMenus
  rw [filterBy_congr h, h, funext (formatMenu_congr h _)]

theorem coursewareObject_congr {db db' : DB} (hrole : db .role = db' .role)
    (htargets : db .trainingTargets = db' .trainingTargets) (courseware : Record) :
    coursewareObject courseware db = coursewareObject courseware db' := by
  unfold coursewareObject trainingTargets
  rw [hrole, targetsOf_congr htargets]

theorem getTrainingCourseware_congr {db db' : DB}
    (h : db .trainingCourseware = db' .trainingCourseware)
    (hrole : db .role = db' .role) (htargets : db .trainingTargets = db' .trainingTargets)
    (courseType : Option String) :
    getTrainingCourseware courseType db = getTrainingCourseware courseType db' := by
  have hlist : ∀ rows, listRows rows (fun c db => .ok (coursewareObject c db)) db =
      listRows rows (fun c db => .ok (coursewareObject c db)) db' :=
    fun rows => listRows_congr fun row => congrArg _ (coursewareObject_congr hrole htargets row)
  unfold getTrainingCourseware
  simp only [filterBy_congr h, h, hlist]

theorem getEvaluationLevels_congr {db db' : DB} (h : db .evaluationLevel = db' .evaluationLevel)
    (evaluationTypeId : Option String) :
    getEvaluationLevels evaluationTypeId db = getEvaluationLevels evaluationTypeId db' := by
  have hlist : ∀ rows, listRows rows (answer (.id :: levelFields)) db =
      listRows rows (answer (.id :: levelFields)) db' :=
    fun rows => listRows_congr fun _ => rfl
  unfold getEvaluationLevels
  simp only [filterBy_congr h, h, hlist]

theorem renderProject_congr {db db' : DB} (h : ∀ t ∈ Resource.project.named, db t = db' t)
    (project : Record) :
    renderProject project db = renderProject project db' := by
  unfold renderProject
  simp only [relatedName_congr (h .user (by decide)),
    relatedName_congr (h .evaluationType (by decide)),
    relatedName_congr (h .evaluationLevel (by decide))]

theorem templateObject_congr {db db' : DB} (h : ∀ t ∈ Resource.template.named, db t = db' t)
    (template : Record) :
    templateObject db template = templateObject db' template := by
  unfold templateObject
  rw [relatedName_congr (h .evaluationType (by decide)),
    relatedName_congr (h .evaluationLevel (by decide)), relatedName_congr
    (h .systemDictionary (by decide)), relatedName_congr (h .emrStandardClause (by decide))]

theorem taskObject_congr {db db' : DB} (h : ∀ t ∈ Resource.researchTask.named, db t = db' t)
    (task : Record) :
    taskObject task db = taskObject task db' := by
  unfold taskObject
  simp only [relatedName_congr (h .evaluationType (by decide)),
    relatedName_congr (h .evaluationLevel (by decide)),
    relatedName_congr (h .evaluationProject (by decide)), relatedName_congr (h .user (by decide))]

theorem listResource_congr {r : Resource} {db db' : DB}
    (h : ∀ t ∈ r.table :: r.named, db t = db' t) :
    listResource r db = listResource r db' := by
  have ht := h r.table List.mem_cons_self
  have hnamed : ∀ t ∈ r.named, db t = db' t := fun t hmem => h t (List.mem_cons_of_mem _ hmem)
  cases r with
  | menu => exact getMenus_congr ht
  | skin => exact congrArg (fun rows : List Record => Response.mk 200 (.list (rows.map _))) ht
  | clause => exact getEmrStandardClauses_congr ht _
  | courseware =>
    exact getTrainingCourseware_congr ht (hnamed _ (by decide)) (hnamed _ (by decide)) none
  | evaluationType =>
    exact congrArg (fun rows : List Record => Response.mk 200 (.list (rows.map _))) ht
  | level => exact getEvaluationLevels_congr ht none
  | project =>
    show getEvaluationProjects db = getEvaluationProjects db'
    have hall : db .evaluationProject = db' .evaluationProject := ht
    unfold getEvaluationProjects
    simp only [renderProject_congr hnamed, hall]
  | vendorResearch => exact listAll_congr ht fun row =>
    renderVendorResearch_congr (fun _ hmem => hmem) row db db' hnamed
  | template =>
    show getResearchTemplates db = getResearchTemplates db'
    have hall : db .researchTemplate = db' .researchTemplate := ht
    unfold getResearchTemplates
    rw [hall, funext (templateObject_congr hnamed)]
  | researchTask =>
    show getResearchTasks db = getResearchTasks db'
    unfold getResearchTasks
    exact listAll_congr ht fun row => congrArg Except.ok (taskObject_congr hnamed row)
  | user => exact listAll_congr ht fun _ => rfl
  | standard => exact listAll_congr ht fun _ => rfl
  | learningRecord =>
    show getLearningRecords db = getLearningRecords db'
    unfold getLearningRecords
    exact listAll_congr ht fun _ => rfl
  | catalog => exact listAll_congr ht fun _ => rfl
  | dictionary => exact listAll_congr ht fun _ => rfl

theorem getOne_congr {r : Resource} {db db' : DB}
    (h : ∀ t ∈ r.table :: r.namedOne, db t = db' t) (id : ℕ) :
    getOne r id db = getOne r id db' := by
  have ht := h r.table List.mem_cons_self
  have hnamed : ∀ t ∈ r.namedOne, db t = db' t := fun t hmem => h t (List.mem_cons_of_mem _ hmem)
  cases r with
  | menu => rfl
  | skin => rfl
  | courseware =>
    show getTrainingCoursewareDetail id db = getTrainingCoursewareDetail id db'
    unfold getTrainingCoursewareDetail
    exact getHandler_congr ht (fun row => congrArg Except.ok
      (coursewareObject_congr (hnamed .role (by decide)) (hnamed .trainingTargets (by decide)) row))
        id
  | project => exact getHandler_congr ht (fun row => renderProject_congr hnamed row) id
  | vendorResearch =>
    exact getHandler_congr ht
      (fun row => renderVendorResearch_congr (fun _ hmem => hmem) row db db' hnamed) id
  | user => exact getHandler_congr ht (fun _ => rfl) id
  | standard => exact getHandler_congr ht (fun _ => rfl) id
  | clause => exact getHandler_congr ht (fun _ => rfl) id
  | evaluationType => exact getHandler_congr ht (fun _ => rfl) id
  | level => exact getHandler_congr ht (fun _ => rfl) id
  | learningRecord =>
    show getLearningRecord id db = getLearningRecord id db'
    unfold getLearningRecord
    exact getHandler_congr ht (fun _ => rfl) id
  | catalog => exact getHandler_congr ht (fun _ => rfl) id
  | dictionary => exact getHandler_congr ht (fun _ => rfl) id
  | template => exact getHandler_congr ht (fun _ => rfl) id
  | researchTask => exact getHandler_congr ht (fun _ => rfl) id

/-- **An answer depends on the tables of the query only.** -/
theorem Query.answer_congr {q : Query} {db db' : DB} (h : ∀ t ∈ q.tables, db t = db' t)
    (encode : ℕ → Date → Time → String) (k : Clock) :
    q.answer encode k db = q.answer encode k db' := by
  cases q with
  | login body => exact login_congr (h .user (List.mem_singleton_self _)) encode k body
  | roles => exact listAll_congr (h .role (by decide)) fun _ => rfl
  | dicts => exact listAll_congr (h .systemDict (by decide)) fun _ => rfl
  | rolePermissions roleId =>
    show getRolePermissions roleId db = getRolePermissions roleId db'
    unfold getRolePermissions
    rw [filterBy_congr (h .rolePermission (List.mem_singleton_self _))]
  | all r => exact listResource_congr h
  | one r id => exact getOne_congr h id
  | clauses args =>
    exact getEmrStandardClauses_congr (h .emrStandardClause (List.mem_singleton_self _)) args
  | levels evaluationTypeId =>
    exact getEvaluationLevels_congr (h .evaluationLevel (List.mem_singleton_self _))
      evaluationTypeId
  | courseware courseType =>
    exact getTrainingCourseware_congr (h .trainingCourseware List.mem_cons_self)
      (h .role (by simp [Query.tables]))
      (h .trainingTargets (by simp [Query.tables])) courseType
  | workRoles =>
    show getEmrWorkRoles db = getEmrWorkRoles db'
    unfold getEmrWorkRoles distinctValues
    rw [h .emrStandardClause (List.mem_singleton_self _)]
  | businessProjects =>
    show getEmrBusinessProjects db = getEmrBusinessProjects db'
    unfold getEmrBusinessProjects distinctValues
    rw [h .emrStandardClause (List.mem_singleton_self _)]
  | functionScores =>
    show getEmrFunctionScores db = getEmrFunctionScores db'
    unfold getEmrFunctionScores distinctValues
    rw [h .emrStandardClause (List.mem_singleton_self _)]
  | taskCount =>
    show getResearchTasksCount db = getResearchTasksCount db'
    unfold getResearchTasksCount
    rw [h .researchTask (by decide)]

end ProjectEvaluation.Backend
