import ProjectEvaluation.Backend.Routes.Clauses
import ProjectEvaluation.Backend.Routes.Projects
import ProjectEvaluation.Backend.Routes.Standards
import ProjectEvaluation.Backend.Routes.System
import ProjectEvaluation.Backend.Routes.Training

/-!
# `routes.py`: the login and the lists

The handlers that only read and that the other modules of the routes leave out.
-/

namespace ProjectEvaluation.Backend

open Python Relational Transaction

/-- `jsonify([render(row) for row in rows])`. -/
def listRows (rows : List Record) (render : Record → DB → Except Exn Json) (db : DB) : Response :=
  match rows.mapM fun row => render row db with
  | .ok items => { status := 200, body := .list items }
  | .error e => uncaught e

/-- `Model.query.all()`, rendered. -/
def listAll (t : Table) (render : Record → DB → Except Exn Json) (db : DB) : Response :=
  listRows (db t) render db

theorem listRows_ok {rows : List Record} {render : Record → DB → Except Exn Json}
    {item : Record → Json} {db : DB}
    (h : ∀ row ∈ rows, render row db = .ok (item row)) :
    listRows rows render db = { status := 200, body := .list (rows.map item) } := by
  have hall : (rows.mapM fun row => render row db) = .ok (rows.map item) := by
    induction rows with
    | nil => rfl
    | cons row rows ih =>
      rw [List.mapM_cons, h row List.mem_cons_self,
        ih fun r hr => h r (List.mem_cons_of_mem row hr)]
      rfl
  rw [listRows, hall]

/-! ## Login -/

/-- The answer to a user who logged in (`routes.py`, lines 15–16). -/
def loggedIn (token : String) (user : Record) : Response where
  status := 200
  body := .dict
    [(.other "token", .str token),
     (.other "user", .dict [(.id, shown user .id), (.name, shown user .name),
       (.roleId, shown user .roleId)])]

/-- `POST /api/login` (`routes.py`, lines 9–16). `encode` is `jwt.encode` for the id of a user and
    the UTC time: the token expires 24 hours later. -/
def login (encode : ℕ → Date → Time → String) (k : Clock) (body : Body) (db : DB) : Response :=
  let answer : Except Exn Response := do
    let data ← body.getJson
    let users ← filterBy .user .username (← data.item .username) db
    match users.head? with
    | none => .ok (refuse 401 "用户名或密码错误")
    | some user =>
      let password ← data.item .password
      if equalsText password (user.cell .password)
        then .ok (loggedIn (encode user.id k.utcDate k.utcTime) user)
      else .ok (refuse 401 "用户名或密码错误")
  match answer with
  | .ok response => response
  | .error e => uncaught e

/-! ## Lists without names -/

/-- `GET /api/roles` (`routes.py`, lines 38–41). -/
def getRoles : DB → Response := listAll .role (answer [.id, .name, .description])

/-- `GET /api/dicts` (`routes.py`, lines 170–173). -/
def getDicts : DB → Response := listAll .systemDict (answer [.id, .code, .name, .value, .type])

/-- `GET /api/users` (`routes.py`, lines 176–185). -/
def getUsers : DB → Response := listAll .user (answer userFields)

/-- `GET /api/evaluation-standards` (`routes.py`, lines 266–278). -/
def getEvaluationStandards : DB → Response :=
  listAll .evaluationStandard (answer (.id :: standardFields))

/-- `GET /api/evaluation-levels` (`routes.py`, lines 745–763). -/
def getEvaluationLevels (evaluationTypeId : Option String) (db : DB) : Response :=
  let levels : Except Exn (List Record) :=
    match evaluationTypeId with
    | none | some "" => .ok (db .evaluationLevel)
    | some s => filterBy .evaluationLevel .evaluationTypeId (.str s) db
  match levels with
  | .ok levels => listRows levels (answer (.id :: levelFields)) db
  | .error e => uncaught e

/-- `GET /api/learning-records` (`routes.py`, lines 1010–1022). -/
def getLearningRecords : DB → Response :=
  listAll .learningRecord fun record _ =>
    renderLearningRecord (unlessNone dayText) (unlessNone timeText) record

/-- `GET /api/standard-catalogs` (`routes.py`, lines 1152–1163). -/
def getStandardCatalogs : DB → Response := listAll .standardCatalog (answer (.id :: catalogFields))

/-- `GET /api/system-dictionaries` (`routes.py`, lines 1386–1394). -/
def getSystemDictionaries : DB → Response :=
  listAll .systemDictionary (answer (.id :: dictionaryFields))

/-! ## Lists with names -/

/-- `GET /api/vendor-researches` (`routes.py`, lines 1243–1258). -/
def getVendorResearches : DB → Response := listAll .vendorResearch renderVendorResearch

/-- The object of a task in the list (`routes.py`, lines 1910–1929). -/
def taskObject (task : Record) (db : DB) : Json :=
  .dict
    [(.id, shown task .id),
     (.projectType, shown task .projectType),
     (.projectTypeName, relatedName .evaluationType (task.cell .projectType) .evaluationType
       (.str "") db),
     (.projectLevel, shown task .projectLevel),
     (.projectLevelName, relatedName .evaluationLevel (task.cell .projectLevel) .evaluationLevel
       (.str "") db),
     (.projectId, shown task .projectId),
     (.projectName, relatedName .evaluationProject (task.cell .projectId) .projectName
       (.str "") db),
     (.taskName, shown task .taskName),
     (.creatorId, shown task .creatorId),
     (.other "creator_name", relatedName .user (task.cell .creatorId) .name (.str "") db),
     (.createdAt, shown task .createdAt),
     (.taskStatus, shown task .taskStatus),
     (.plannedCompletionTime, shown task .plannedCompletionTime),
     (.researcherId, shown task .researcherId),
     (.researcherName, relatedName .user (task.cell .researcherId) .name (.str "") db),
     (.completerId, shown task .completerId),
     (.other "completer_name", relatedName .user (task.cell .completerId) .name (.str "") db),
     (.actualCompletionTime, shown task .actualCompletionTime)]

/-- `GET /api/research-tasks` (`routes.py`, lines 1905–1930). -/
def getResearchTasks : DB → Response :=
  listAll .researchTask fun task db => .ok (taskObject task db)

/-- `GET /api/research-tasks/count` (`routes.py`, lines 2071–2074). -/
def getResearchTasksCount (db : DB) : Response :=
  { status := 200, body := .dict [(.other "count", .int (db .researchTask).length)] }

/-! ## Courseware with its roles -/

/-- `[{'id': role.id, 'name': role.name} for role in courseware.training_targets]` (`routes.py`,
    lines 536–541 and 566–571). -/
def trainingTargets (courseware : ℕ) (db : DB) : List Json :=
  ((db .role).filter fun role => Value.int role.id ∈ targetsOf db courseware).map
    (object [.id, .name])

/-- The object of a courseware and its roles (`routes.py`, lines 543–554 and 573–584). -/
def coursewareObject (courseware : Record) (db : DB) : Json :=
  .dict ((coursewareFields.map fun f => (f, shown courseware f)) ++
    [(.trainingTargets, .list (trainingTargets courseware.id db))])

/-- `GET /api/training-courseware` (`routes.py`, lines 519–555). -/
def getTrainingCourseware (courseType : Option String) (db : DB) : Response :=
  let courseware : Except Exn (List Record) :=
    match courseType with
    | none | some "" => .ok (db .trainingCourseware)
    | some s => filterBy .trainingCourseware .courseType (.str s) db
  match courseware with
  | .ok courseware => listRows courseware (fun c db => .ok (coursewareObject c db)) db
  | .error e => uncaught e

/-- `GET /api/training-courseware/<int:courseware_id>` (`routes.py`, lines 558–584). -/
def getTrainingCoursewareDetail : ℕ → DB → Response :=
  getHandler .trainingCourseware "培训课件不存在" fun courseware db => .ok (coursewareObject courseware db)

/-! ## The options of the clause filters -/

/-- The options for the values of a column, empty ones left out (`routes.py`, lines 494 and 503). -/
def valueOptions (values : List Value) : List Json :=
  (values.filter Value.truthy).map fun v => .dict [(.value, v.toJson), (.name, v.toJson)]

/-- `GET /api/emr-standard-clauses/work-roles` (`routes.py`, lines 489–495). -/
def getEmrWorkRoles (db : DB) : Response :=
  { status := 200, body := .list (valueOptions (distinctValues .emrStandardClause .workRole db)) }

/-- `GET /api/emr-standard-clauses/business-projects` (`routes.py`, lines 498–504). -/
def getEmrBusinessProjects (db : DB) : Response :=
  { status := 200
    body := .list (valueOptions (distinctValues .emrStandardClause .businessProject db)) }

end ProjectEvaluation.Backend
