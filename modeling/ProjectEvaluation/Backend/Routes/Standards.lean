import ProjectEvaluation.Backend.Handlers

/-!
# `routes.py`: evaluation standards, EMR clauses, types, levels, catalogs
-/

namespace ProjectEvaluation.Backend

open Python Relational Transaction

/-! ## Evaluation standards -/

/-- The attributes of an evaluation standard (`routes.py`, lines 286–295). -/
def standardFields : List Field :=
  [.standardId, .standardName, .standardShortName, .mnemonic, .content, .status, .version]

/-- `GET /api/evaluation-standards/<int:standard_id>` (`routes.py`, lines 281–295). -/
def getEvaluationStandard : ℕ → DB → Response :=
  getHandler .evaluationStandard "评审标准不存在" (answer (.id :: standardFields))

/-- The constructor arguments of `create_evaluation_standard` (`routes.py`, lines 303–311). -/
def standardSources : List Source :=
  [.item .standardId, .item .standardName, .item .standardShortName, .item .mnemonic,
   .item .content, .get .status (.str "启用"), .get .version (.str "1.0")]

/-- `POST /api/evaluation-standards` (`routes.py`, lines 298–323). -/
def createEvaluationStandard (k : Clock) : Body → Handler :=
  createHandler k .evaluationStandard
    (fun data db =>
      refuseIf (taken .evaluationStandard .standardId data db) "标准ID已存在" <|
        (construct data standardSources).map .inr)
    (answer (.id :: standardFields))

/-- `PUT /api/evaluation-standards/<int:standard_id>` (`routes.py`, lines 326–351). -/
def updateEvaluationStandard : ℕ → Body → Handler :=
  updateHandler .evaluationStandard "评审标准不存在"
    (fun data standard db =>
      refuseIf (takenByOther .evaluationStandard .standardId data standard db) "标准ID已存在" <|
        .ok (.inr (standardFields.map (keep data standard))))
    (answer (.id :: standardFields))

/-- `DELETE /api/evaluation-standards/<int:standard_id>` (`routes.py`, lines 354–361). -/
def deleteEvaluationStandard : ℕ → Handler :=
  deleteHandler .evaluationStandard "评审标准不存在" "评审标准删除成功" fun _ _ => .ok []

/-! ## EMR standard clauses -/

/-- The attributes of a clause (`routes.py`, lines 410–420). -/
def clauseFields : List Field :=
  [.standardId, .projectCode, .workRole, .businessProject, .evaluationCategory,
   .mainEvaluationContent, .functionScore, .dataQualityEvaluationContent]

/-- `GET /api/emr-standard-clauses/<int:clause_id>` (`routes.py`, lines 405–420). -/
def getEmrStandardClause : ℕ → DB → Response :=
  getHandler .emrStandardClause "EMR标准条款不存在" (answer (.id :: clauseFields))

/-- The constructor arguments of `create_emr_standard_clause` (`routes.py`, lines 426–435). -/
def clauseSources : List Source :=
  [.item .standardId, .item .projectCode, .item .workRole, .item .businessProject,
   .get .evaluationCategory (.str "基本"), .item .mainEvaluationContent, .get .functionScore .null,
   .get .dataQualityEvaluationContent .null]

/-- `POST /api/emr-standard-clauses` (`routes.py`, lines 423–448). -/
def createEmrStandardClause (k : Clock) : Body → Handler :=
  createHandler k .emrStandardClause (fun data _ => (construct data clauseSources).map .inr)
    (answer (.id :: clauseFields))

/-- `PUT /api/emr-standard-clauses/<int:clause_id>` (`routes.py`, lines 451–476). -/
def updateEmrStandardClause : ℕ → Body → Handler :=
  updateHandler .emrStandardClause "EMR标准条款不存在"
    (fun data clause _ => .ok (.inr (clauseFields.map (keep data clause))))
    (answer (.id :: clauseFields))

/-- `DELETE /api/emr-standard-clauses/<int:clause_id>` (`routes.py`, lines 479–486). -/
def deleteEmrStandardClause : ℕ → Handler :=
  deleteHandler .emrStandardClause "EMR标准条款不存在" "EMR标准条款删除成功" fun _ _ => .ok []

/-! ## Evaluation types -/

/-- The attributes of an evaluation type (`routes.py`, lines 687–692). -/
def typeFields : List Field := [.evaluationTypeId, .evaluationType, .enabledStatus]

/-- `GET /api/evaluation-types` (`routes.py`, lines 671–679). -/
def getEvaluationTypes (db : DB) : Response :=
  { status := 200, body := .list ((db .evaluationType).map (object (.id :: typeFields))) }

/-- `GET /api/evaluation-types/<int:type_id>` (`routes.py`, lines 682–692). -/
def getEvaluationType : ℕ → DB → Response :=
  getHandler .evaluationType "评审类型不存在" (answer (.id :: typeFields))

/-- The constructor arguments of `create_evaluation_type` (`routes.py`, lines 700–704). -/
def typeSources : List Source :=
  [.item .evaluationTypeId, .item .evaluationType, .get .enabledStatus (.int 1)]

/-- `POST /api/evaluation-types` (`routes.py`, lines 695–712). -/
def createEvaluationType (k : Clock) : Body → Handler :=
  createHandler k .evaluationType
    (fun data db =>
      refuseIf (taken .evaluationType .evaluationTypeId data db) "评审类型ID已存在" <|
        (construct data typeSources).map .inr)
    (answer (.id :: typeFields))

/-- `PUT /api/evaluation-types/<int:type_id>` (`routes.py`, lines 715–732). -/
def updateEvaluationType : ℕ → Body → Handler :=
  updateHandler .evaluationType "评审类型不存在"
    (fun data type_ db =>
      refuseIf (takenByOther .evaluationType .evaluationTypeId data type_ db) "评审类型ID已存在" <|
        .ok (.inr (typeFields.map (keep data type_))))
    (answer (.id :: typeFields))

/-- `DELETE /api/evaluation-types/<int:type_id>` (`routes.py`, lines 735–742). -/
def deleteEvaluationType : ℕ → Handler :=
  deleteHandler .evaluationType "评审类型不存在" "评审类型删除成功" fun _ _ => .ok []

/-! ## Evaluation levels -/

/-- The attributes of an evaluation level (`routes.py`, lines 771–777). -/
def levelFields : List Field := [.evaluationTypeId, .evaluationLevel, .numericLevel, .enabledStatus]

/-- `GET /api/evaluation-levels/<int:level_id>` (`routes.py`, lines 766–777). -/
def getEvaluationLevel : ℕ → DB → Response :=
  getHandler .evaluationLevel "评审级别不存在" (answer (.id :: levelFields))

/-- The constructor arguments of `create_evaluation_level` (`routes.py`, lines 783–788). -/
def levelSources : List Source :=
  [.item .evaluationTypeId, .item .evaluationLevel, .get .numericLevel .null,
   .get .enabledStatus (.int 1)]

/-- `POST /api/evaluation-levels` (`routes.py`, lines 780–797). -/
def createEvaluationLevel (k : Clock) : Body → Handler :=
  createHandler k .evaluationLevel (fun data _ => (construct data levelSources).map .inr)
    (answer (.id :: levelFields))

/-- `PUT /api/evaluation-levels/<int:level_id>` (`routes.py`, lines 800–817). -/
def updateEvaluationLevel : ℕ → Body → Handler :=
  updateHandler .evaluationLevel "评审级别不存在"
    (fun data level _ => .ok (.inr (levelFields.map (keep data level))))
    (answer (.id :: levelFields))

/-- `DELETE /api/evaluation-levels/<int:level_id>` (`routes.py`, lines 820–827). -/
def deleteEvaluationLevel : ℕ → Handler :=
  deleteHandler .evaluationLevel "评审级别不存在" "评审级别删除成功" fun _ _ => .ok []

/-! ## Standard catalogs -/

/-- The attributes of a standard catalog (`routes.py`, lines 1171–1179). -/
def catalogFields : List Field :=
  [.standardName, .standardShortName, .mnemonic, .content, .enabledStatus, .version]

/-- `GET /api/standard-catalogs/<int:catalog_id>` (`routes.py`, lines 1166–1179). -/
def getStandardCatalog : ℕ → DB → Response :=
  getHandler .standardCatalog "规范目录不存在" (answer (.id :: catalogFields))

/-- The constructor arguments of `create_standard_catalog` (`routes.py`, lines 1185–1192). -/
def catalogSources : List Source :=
  [.item .standardName, .item .standardShortName, .item .mnemonic, .item .content,
   .get .enabledStatus (.int 1), .get .version (.str "1.0")]

/-- `POST /api/standard-catalogs` (`routes.py`, lines 1182–1203). -/
def createStandardCatalog (k : Clock) : Body → Handler :=
  createHandler k .standardCatalog (fun data _ => (construct data catalogSources).map .inr)
    (answer (.id :: catalogFields))

/-- `PUT /api/standard-catalogs/<int:catalog_id>` (`routes.py`, lines 1206–1227). -/
def updateStandardCatalog : ℕ → Body → Handler :=
  updateHandler .standardCatalog "规范目录不存在"
    (fun data catalog _ => .ok (.inr (catalogFields.map (keep data catalog))))
    (answer (.id :: catalogFields))

/-- `DELETE /api/standard-catalogs/<int:catalog_id>` (`routes.py`, lines 1230–1237). -/
def deleteStandardCatalog : ℕ → Handler :=
  deleteHandler .standardCatalog "规范目录不存在" "规范目录删除成功" fun _ _ => .ok []

end ProjectEvaluation.Backend
