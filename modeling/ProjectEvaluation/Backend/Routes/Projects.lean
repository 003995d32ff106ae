import ProjectEvaluation.Backend.Handlers

/-!
# `routes.py`: projects, vendor researches, dictionaries, templates, tasks

The date handling of the handlers: a create handler replaces a date it cannot
parse by the current date, an update handler of projects and of vendor
researches then keeps the stored date, and the handlers of research tasks
store NULL.
-/

namespace ProjectEvaluation.Backend

open Python Relational Transaction

/-! ## Dates and names -/

/-- The date of an ISO text, or of `YYYY-MM-DD` where it has no `T` (`routes.py`, lines 1286–1298
    and 1336–1347); `none` where the value is empty or its evaluation raises. -/
def parseDate : Json → Option Date
  | .str s =>
    if s = "" then none
    else if 'T' ∈ s.toList then fromisoformat (replaceZulu s)
    else strptimeDate s
  | _ => none

/-- `data['k'][:n]`. -/
def slice (n : ℕ) : Json → Except Exn Json
  | .str s => .ok (.str (prefixOf n s))
  | .list items => .ok (.list (items.take n))
  | _ => .error .typeError

/-- `row.rel.f if row.rel else default`, for the relationship of a foreign key
    that holds `v`. -/
def relatedName (t : Table) (v : Value) (f : Field) (default : Json) (db : DB) : Json :=
  match related t v db with
  | some row => (row.cell f).toJson
  | none => default

/-! ## Evaluation projects -/

/-- The date `create_evaluation_project` stores (`routes.py`, lines 884–904). -/
def establishmentDate (k : Clock) : Json → Date
  | .str s => (strptimeDate (if 'T' ∈ s.toList then beforeFirst 'T' s else s)).getD k.localDate
  | _ => k.localDate

/-- The attributes the project handlers answer with (`routes.py`, lines 926–937 and 981–992). -/
def projectFields : List Field :=
  [.id, .projectName, .projectManagerId, .projectType, .projectLevel, .siteProjectManagerId,
   .projectAttribute, .establishmentDate, .establishmentStatus, .establishmentProof]

/-- The object of a project (`routes.py`, lines 861–876): it leaves out the short name, the mnemonic
    and the `project_id`. -/
def renderProject (project : Record) (db : DB) : Except Exn Json :=
  .ok (.dict
    [(.id, shown project .id),
     (.projectName, shown project .projectName),
     (.projectManagerId, shown project .projectManagerId),
     (.projectManagerName, relatedName .user (project.cell .projectManagerId) .name (.str "") db),
     (.projectType, shown project .projectType),
     (.projectTypeName,
       relatedName .evaluationType (project.cell .projectType) .evaluationType (.str "") db),
     (.projectLevel, shown project .projectLevel),
     (.projectLevelName,
       relatedName .evaluationLevel (project.cell .projectLevel) .evaluationLevel (.str "") db),
     (.siteProjectManagerId, shown project .siteProjectManagerId),
     (.siteProjectManagerName,
       relatedName .user (project.cell .siteProjectManagerId) .name (.str "") db),
     (.projectAttribute, shown project .projectAttribute),
     (.establishmentDate, shown project .establishmentDate),
     (.establishmentStatus, shown project .establishmentStatus),
     (.establishmentProof, shown project .establishmentProof)])

/-- `GET /api/evaluation-projects` (`routes.py`, lines 832–853). -/
def getEvaluationProjects (db : DB) : Response :=
  match (db .evaluationProject).mapM fun project => renderProject project db with
  | .ok projects => { status := 200, body := .list projects }
  | .error e => uncaught e

/-- `GET /api/evaluation-projects/<int:project_id>` (`routes.py`, lines 856–876). -/
def getEvaluationProject : ℕ → DB → Response :=
  getHandler .evaluationProject "评审项目不存在" renderProject

/-- The constructor arguments of `create_evaluation_project` (`routes.py`, lines 907–920). -/
def projectSources (date : Date) (shortName mnemonic : Json) : List Source :=
  [.item .projectId, .item .projectName, .get .projectShortName shortName, .get .mnemonic mnemonic,
   .item .projectManagerId, .item .projectType, .item .projectLevel,
   .get .siteProjectManagerId .null, .get .projectAttribute (.str "标准"),
   .put .establishmentDate (.value (.date date)), .get .establishmentStatus (.str "立项"),
   .get .establishmentProof .null]

/-- The attributes of a new project. -/
def projectAttrs (k : Clock) (data : Json) : Except Exn (List (Field × Attr)) := do
  let date ← data.getD .establishmentDate .null
  let projectId ← data.item .projectId
  let projectName ← data.item .projectName
  let shortName ← slice 100 projectName
  let mnemonic ← slice 10 projectId
  construct data (projectSources (establishmentDate k date) shortName mnemonic)

/-- `POST /api/evaluation-projects` (`routes.py`, lines 879–937). -/
def createEvaluationProject (k : Clock) : Body → Handler :=
  createHandler k .evaluationProject (fun data _ => (projectAttrs k data).map .inr)
    (answer projectFields)

/-- `project.f = data.get('f', project.f or data.get('source', '')[:n])` (`routes.py`, lines
    951–952). -/
def keepOrPrefix (data : Json) (project : Record) (f source : Field) (n : ℕ) : Assignment :=
  (f, do
    let default ←
      if (project.cell f).truthy then .ok (.value (project.cell f))
      else (slice n (← data.getD source (.str ""))).map Attr.json
    let j ← data.get f
    .ok (some (j.elim default .json)))

/-- `row.f = d`, where `d` is the date of the body under `f` (`routes.py`, lines 960–974 and
    1336–1349); the stored date is kept where there is none or it cannot be parsed. -/
def assignDate (data : Json) (f : Field) : Assignment :=
  (f, (data.get f).map fun j => (j.bind parseDate).map fun d => .value (.date d))

/-- The assignments of `update_evaluation_project` (`routes.py`, lines 949–977). -/
def projectAssignments (data : Json) (project : Record) : List Assignment :=
  [keep data project .projectId, keep data project .projectName,
   keepOrPrefix data project .projectShortName .projectName 100,
   keepOrPrefix data project .mnemonic .projectId 10, keep data project .projectManagerId,
   keep data project .projectType, keep data project .projectLevel,
   keep data project .siteProjectManagerId, keep data project .projectAttribute,
   assignDate data .establishmentDate, keep data project .establishmentStatus,
   keep data project .establishmentProof]

/-- `PUT /api/evaluation-projects/<int:project_id>` (`routes.py`, lines 940–992). -/
def updateEvaluationProject : ℕ → Body → Handler :=
  updateHandler .evaluationProject "评审项目不存在"
    (fun data project _ => .ok (.inr (projectAssignments data project))) (answer projectFields)

/-- `DELETE /api/evaluation-projects/<int:project_id>` (`routes.py`, lines 995–1003). -/
def deleteEvaluationProject : ℕ → Handler :=
  deleteHandler .evaluationProject "评审项目不存在" "评审项目删除成功" fun _ _ => .ok []

/-! ## Vendor researches -/

/-- `d.isoformat() if d else None`. -/
def isoOrNone : Value → Json
  | .date d => .str d.isoformat
  | _ => .null

/-- The object of a vendor research (`routes.py`, lines 1246–1258). -/
def renderVendorResearch (research : Record) (db : DB) : Except Exn Json :=
  .ok (.dict
    [(.id, shown research .id),
     (.researchDate, isoOrNone (research.cell .researchDate)),
     (.researcherId, shown research .researcherId),
     (.researcherName, relatedName .user (research.cell .researcherId) .name .null db),
     (.projectId, shown research .projectId),
     (.projectName, relatedName .evaluationProject
       (research.cell .projectId) .projectName .null db),
     (.taskName, shown research .taskName),
     (.systemId, shown research .systemId),
     (.systemName, relatedName .systemDictionary (research.cell .systemId) .systemName .null db),
     (.manufacturer, shown research .manufacturer),
     (.remarks, shown research .remarks)])

/-- `GET /api/vendor-researches/<int:research_id>` (`routes.py`, lines 1261–1278). -/
def getVendorResearch : ℕ → DB → Response :=
  getHandler .vendorResearch "厂商调研不存在" renderVendorResearch

/-- The constructor arguments of `create_vendor_research` (`routes.py`, lines 1302–1310). -/
def vendorSources (date : Attr) : List Source :=
  [.put .researchDate date, .item .researcherId, .item .projectId, .get .taskName .null,
   .get .systemId .null, .item .manufacturer, .get .remarks .null]

/-- The attributes of a new vendor research. -/
def vendorAttrs (k : Clock) (data : Json) : Except Exn (List (Field × Attr)) := do
  let date ← data.getD .researchDate .null
  construct data (vendorSources ((parseDate date).elim k.currentDate fun d => .value (.date d)))

/-- `POST /api/vendor-researches` (`routes.py`, lines 1281–1325). -/
def createVendorResearch (k : Clock) : Body → Handler :=
  createHandler k .vendorResearch (fun data _ => (vendorAttrs k data).map .inr) renderVendorResearch

/-- The assignments of `update_vendor_research` (`routes.py`, lines 1336–1356). -/
def vendorAssignments (data : Json) (research : Record) : List Assignment :=
  assignDate data .researchDate ::
    [.researcherId, .projectId, .taskName, .systemId, .manufacturer, .remarks].map
      (keep data research)

/-- `PUT /api/vendor-researches/<int:research_id>` (`routes.py`, lines 1328–1370). -/
def updateVendorResearch : ℕ → Body → Handler :=
  updateHandler .vendorResearch "厂商调研不存在"
    (fun data research _ => .ok (.inr (vendorAssignments data research))) renderVendorResearch

/-- `DELETE /api/vendor-researches/<int:research_id>` (`routes.py`, lines 1373–1380). -/
def deleteVendorResearch : ℕ → Handler :=
  deleteHandler .vendorResearch "厂商调研不存在" "厂商调研删除成功" fun _ _ => .ok []

/-! ## System dictionaries -/

/-- The attributes of a system dictionary entry (`routes.py`, lines 1478–1483). -/
def dictionaryFields : List Field := [.systemName, .remarks, .enabledStatus]

/-- `GET /api/system-dictionaries/<int:dictionary_id>` (`routes.py`, lines 1473–1483). -/
def getSystemDictionary : ℕ → DB → Response :=
  getHandler .systemDictionary "系统字典不存在" (answer (.id :: dictionaryFields))

/-- The constructor arguments of `create_system_dictionary` (`routes.py`, lines 1489–1493). -/
def dictionarySources : List Source :=
  [.item .systemName, .get .remarks .null, .get .enabledStatus (.int 1)]

/-- `POST /api/system-dictionaries` (`routes.py`, lines 1486–1501). -/
def createSystemDictionary (k : Clock) : Body → Handler :=
  createHandler k .systemDictionary (fun data _ => (construct data dictionarySources).map .inr)
    (answer (.id :: dictionaryFields))

/-- `PUT /api/system-dictionaries/<int:dictionary_id>` (`routes.py`, lines 1504–1519). -/
def updateSystemDictionary : ℕ → Body → Handler :=
  updateHandler .systemDictionary "系统字典不存在"
    (fun data dictionary _ => .ok (.inr (dictionaryFields.map (keep data dictionary))))
    (answer (.id :: dictionaryFields))

/-- `DELETE /api/system-dictionaries/<int:dictionary_id>` (`routes.py`, lines 1522–1529). -/
def deleteSystemDictionary : ℕ → Handler :=
  deleteHandler .systemDictionary "系统字典不存在" "系统字典删除成功" fun _ _ => .ok []

/-! ## Research templates -/

/-- The attributes of a research template (`routes.py`, lines 1617–1629). -/
def templateFields : List Field :=
  [.projectCategory, .projectLevel, .systemName, .standardRequirement, .requirementType,
   .inspectionProject, .referenceScreenshot, .remarks, .clauseId, .enabledStatus]

/-- The object of a template in the list (`routes.py`, lines 1540–1576). The lookups of the names do
    not raise, so the `except` of the loop is never reached. -/
def templateObject (db : DB) (template : Record) : Json :=
  .dict
    [(.id, shown template .id),
     (.projectCategory, shown template .projectCategory),
     (.other "project_category_name",
       relatedName .evaluationType (template.cell .projectCategory) .evaluationType (.str "") db),
     (.projectLevel, shown template .projectLevel),
     (.projectLevelName,
       relatedName .evaluationLevel (template.cell .projectLevel) .evaluationLevel (.str "") db),
     (.systemName, shown template .systemName),
     (.other "system_name_name",
       relatedName .systemDictionary (template.cell .systemName) .systemName (.str "") db),
     (.standardRequirement, shown template .standardRequirement),
     (.requirementType, shown template .requirementType),
     (.inspectionProject, shown template .inspectionProject),
     (.referenceScreenshot, shown template .referenceScreenshot),
     (.remarks, shown template .remarks),
     (.clauseId, shown template .clauseId),
     (.other "clause_name",
       relatedName .emrStandardClause (template.cell .clauseId) .businessProject (.str "") db),
     (.enabledStatus, shown template .enabledStatus)]

/-- `GET /api/research-templates` (`routes.py`, lines 1534–1578). -/
def getResearchTemplates (db : DB) : Response :=
  { status := 200, body := .list ((db .researchTemplate).map (templateObject db)) }

/-- `GET /api/research-templates/<int:template_id>` (`routes.py`, lines 1581–1597); it leaves the
    system out. -/
def getResearchTemplate : ℕ → DB → Response :=
  getHandler .researchTemplate "调研模板不存在"
    (answer [.id, .projectCategory, .projectLevel, .standardRequirement, .requirementType,
      .inspectionProject, .referenceScreenshot, .remarks, .clauseId, .enabledStatus])

/-- The constructor arguments of `create_research_template` (`routes.py`, lines 1603–1614). -/
def templateSources : List Source :=
  [.item .projectCategory, .item .projectLevel, .get .systemName .null, .item .standardRequirement,
   .item .requirementType, .item .inspectionProject, .get .referenceScreenshot .null,
   .get .remarks .null, .get .clauseId .null, .get .enabledStatus (.int 1)]

/-- `POST /api/research-templates` (`routes.py`, lines 1600–1629). -/
def createResearchTemplate (k : Clock) : Body → Handler :=
  createHandler k .researchTemplate (fun data _ => (construct data templateSources).map .inr)
    (answer (.id :: templateFields))

/-- `PUT /api/research-templates/<int:template_id>` (`routes.py`, lines 1632–1661). -/
def updateResearchTemplate : ℕ → Body → Handler :=
  updateHandler .researchTemplate "调研模板不存在"
    (fun data template _ => .ok (.inr (templateFields.map (keep data template))))
    (answer (.id :: templateFields))

/-- `DELETE /api/research-templates/<int:template_id>` (`routes.py`, lines 1664–1671). -/
def deleteResearchTemplate : ℕ → Handler :=
  deleteHandler .researchTemplate "调研模板不存在" "调研模板删除成功" fun _ _ => .ok []

/-! ## Research tasks -/

/-- The attributes the task handlers answer with (`routes.py`, lines 1938–1951). -/
def taskFields : List Field :=
  [.id, .projectType, .projectLevel, .projectId, .taskName, .creatorId, .createdAt, .taskStatus,
   .plannedCompletionTime, .researcherId, .completerId, .actualCompletionTime]

/-- The completion times of a task (`routes.py`, lines 1959–1966 and 2007–2023): an ISO text becomes
    its date, and `None` where it cannot be parsed; what is empty stays as it is. -/
def completionTime (j : Json) : Attr :=
  if j.truthy then
    match j with
    | .str s => .value ((fromisoformat (replaceZulu s)).elim .null .date)
    | _ => .value .null
  else .json j

/-- `GET /api/research-tasks/<int:task_id>` (`routes.py`, lines 1933–1951). -/
def getResearchTask : ℕ → DB → Response :=
  getHandler .researchTask "调研任务不存在" (answer taskFields)

/-- The constructor arguments of `create_research_task` (`routes.py`, lines 1968–1979). -/
def taskSources (planned : Attr) : List Source :=
  [.item .projectType, .item .projectLevel, .item .projectId, .item .taskName, .item .creatorId,
   .get .taskStatus (.str "进度中"), .put .plannedCompletionTime planned, .get .researcherId .null,
   .get .completerId .null, .get .actualCompletionTime .null]

/-- The attributes of a new research task. -/
def taskAttrs (data : Json) : Except Exn (List (Field × Attr)) := do
  let planned ← data.getD .plannedCompletionTime .null
  construct data (taskSources (completionTime planned))

/-- `POST /api/research-tasks` (`routes.py`, lines 1954–1995). -/
def createResearchTask (k : Clock) : Body → Handler :=
  createHandler k .researchTask (fun data _ => (taskAttrs data).map .inr) (answer taskFields)

/-- The assignments of `update_research_task` (`routes.py`, lines 2026–2034). The creator and the
    creation date stay. -/
def taskAssignments (data : Json) (task : Record) : Except Exn (List Assignment) := do
  let planned ← data.getD .plannedCompletionTime .null
  let actual ← data.getD .actualCompletionTime .null
  .ok
    [keep data task .projectType, keep data task .projectLevel, keep data task .projectId,
     keep data task .taskName, keep data task .taskStatus,
     (.plannedCompletionTime, .ok (some (completionTime planned))), keep data task .researcherId,
     keep data task .completerId, (.actualCompletionTime, .ok (some (completionTime actual)))]

/-- `PUT /api/research-tasks/<int:task_id>` (`routes.py`, lines 1998–2050). -/
def updateResearchTask : ℕ → Body → Handler :=
  updateHandler .researchTask "调研任务不存在" (fun data task _ => (taskAssignments data task).map .inr)
    (answer taskFields)

/-- `VendorResearch.query.filter_by(task_name=task.task_name).all()` (`routes.py`, line 2061). -/
def researchesOf (task : Record) (db : DB) : Except Exn (List (Table × ℕ)) :=
  (filterBy .vendorResearch .taskName (task.cell .taskName).toJson db).map fun researches =>
    researches.map fun r => (.vendorResearch, r.id)

/-- `DELETE /api/research-tasks/<int:task_id>` (`routes.py`, lines 2053–2068): the vendor researches
    of the task go with it. -/
def deleteResearchTask : ℕ → Handler :=
  deleteHandler .researchTask "调研任务不存在" "调研任务删除成功" researchesOf

end ProjectEvaluation.Backend
