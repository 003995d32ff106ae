import ProjectEvaluation.JavaScript.Text
import ProjectEvaluation.Python.Json

/-!
# `EMRStandardClause.jsx`: the EMR clauses
-/

namespace ProjectEvaluation.Pages

open Python JavaScript

/-! ## The list of clauses -/

/-- The filters of the page (`EMRStandardClause.jsx`, lines 25–28); a score is the text it has in a
    request. -/
structure ClauseFilters where
  standardId : String
  workRole : Option String
  businessProject : Option String
  functionScore : Option String
  deriving DecidableEq

/-- The filters of the first render (`EMRStandardClause.jsx`, lines 25–28). -/
def ClauseFilters.initial : ClauseFilters where
  standardId := ""
  workRole := some ""
  businessProject := some ""
  functionScore := none

/-- The parameters of the request of `fetchClauses` (`EMRStandardClause.jsx`, lines 76–95). -/
def clauseParams (filters : ClauseFilters) : List (String × String) :=
  (if truthy (some filters.standardId) then [("standard_id", filters.standardId)] else []) ++
  (if truthy filters.workRole then [("work_role", filters.workRole.getD "")] else []) ++
  (if truthy filters.businessProject
    then [("business_project", filters.businessProject.getD "")] else []) ++
  filters.functionScore.toList.map fun score => ("function_score", score)

/-! ## Importing clauses -/

/-- A clause that is POSTed (`EMRStandardClause.jsx`, lines 212–221). -/
structure ClauseData where
  standardId : String
  projectCode : String
  workRole : String
  businessProject : String
  evaluationCategory : String
  mainEvaluationContent : String
  functionScore : Option Binary64.Finite
  dataQualityEvaluationContent : String
  deriving DecidableEq

/-- A score as `JSON.stringify` writes it and Python reads it. -/
def scoreJson : Option Binary64.Finite → Json
  | none => .null
  | some x =>
    if x.value.den = 1 ∧ x.value.num.natAbs < 10 ^ 21 then .int x.value.num else .float (.finite x)

/-- The body as JSON (`EMRStandardClause.jsx`, lines 144 and 227). -/
def ClauseData.json (clause : ClauseData) : Json :=
  .dict [(.standardId, .str clause.standardId), (.projectCode, .str clause.projectCode),
    (.workRole, .str clause.workRole), (.businessProject, .str clause.businessProject),
    (.evaluationCategory, .str clause.evaluationCategory),
    (.mainEvaluationContent, .str clause.mainEvaluationContent),
    (.functionScore, scoreJson clause.functionScore),
    (.dataQualityEvaluationContent, .str clause.dataQualityEvaluationContent)]

/-- The columns of the template of `handleDownloadTemplate` (`EMRStandardClause.jsx`, line 170). -/
def clauseHeaders : List String :=
  ["标准ID", "项目代码", "工作角色", "业务项目", "评价类别", "主要评价内容", "功能评分", "数据质量评价内容"]

/-- The values of the lines with seven or more (`EMRStandardClause.jsx`, lines 203–222); the first
    line is the header. -/
def clauseRows (csvContent : String) : List (List String) :=
  let lines := split '\n' csvContent
  let dataRows := (lines.drop 1).filter fun line => trim line ≠ ""
  (dataRows.map (split ',')).filter fun values => 7 ≤ values.length

/-- The clause of a row (`EMRStandardClause.jsx`, lines 212–221). -/
def clauseData (standardId : String) (values : List String) : ClauseData where
  standardId := orText (values.getD 0 "") standardId
  projectCode := values.getD 1 ""
  workRole := values.getD 2 ""
  businessProject := values.getD 3 ""
  evaluationCategory := orText (values.getD 4 "") "基本"
  mainEvaluationContent := values.getD 5 ""
  functionScore := if values.getD 6 "" = "" then none else parseFloat (values.getD 6 "")
  dataQualityEvaluationContent := values.getD 7 ""

/-- `handleFileUpload` (`EMRStandardClause.jsx`, lines 197–244): the clauses it POSTs, one after the
    other. -/
def handleFileUpload (standardId csvContent : String) : List ClauseData :=
  (clauseRows csvContent).map (clauseData standardId)

end ProjectEvaluation.Pages
