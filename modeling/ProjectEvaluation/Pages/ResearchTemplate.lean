import ProjectEvaluation.Pages.EvaluationProject

/-!
# `ResearchTemplate.jsx`: the form of a research template

The select of the project category offers the evaluation types; the value of an option is the
code of the type.

Results:
* `templateData_category`: the body of a submission has the category that was chosen.
-/

namespace ProjectEvaluation.Pages.ResearchTemplate

open Python
open Backend (Request)

/-! ## The options -/

/-- An option of a select: `<Option value={value}>{label}</Option>`. -/
structure SelectOption where
  value : Json
  label : Json

/-- The option of an evaluation type (`ResearchTemplate.jsx`, line 511). -/
def typeOption (type : Json) : SelectOption where
  value := member type .evaluationTypeId
  label := member type .evaluationType

/-- The options of the project category, for the answer `evaluationTypes` was set to
    (`ResearchTemplate.jsx`, lines 510–512). -/
def categoryOptions : Json → List SelectOption
  | .list evaluationTypes => evaluationTypes.map typeOption
  | _ => []

/-- The column `project_category_name` in the row of a template (`ResearchTemplate.jsx`, line 292).
    -/
def categoryCell (id : ℕ) (templates : Json) : Option Json :=
  (entryOf id templates).map fun template => member template (.other "project_category_name")

/-! ## Submitting the form -/

/-- The named items of the form, and whether a rule requires them (`ResearchTemplate.jsx`, lines
    495–672). -/
def formItems : List (Field × Bool) :=
  [(.projectCategory, true), (.projectLevel, true), (.systemName, false), (.requirementType, true),
   (.inspectionProject, true), (.clauseId, false), (.enabledStatus, true),
   (.standardRequirement, true), (.remarks, false)]

/-- The values of the form (`ResearchTemplate.jsx`, line 182); `none` is `undefined`. -/
abbrev FormValues := Field → Option Json

/-- What the rule `required` accepts. -/
def filled : Option Json → Bool
  | none | some .null | some (.str "") | some (.list []) => false
  | _ => true

/-- `form.validateFields()` resolves (`ResearchTemplate.jsx`, line 182). -/
def validateFields (values : FormValues) : Bool :=
  formItems.all fun item => !item.2 || filled (values item.1)

/-- `modalType`, with the id of `selectedTemplate` (`ResearchTemplate.jsx`, lines 161–177). -/
inductive Modal
  | add
  | edit (id : ℕ)

/-- The body of a submission (`ResearchTemplate.jsx`, lines 185–188); what is `undefined` is left
    out. -/
def templateData (values : FormValues) (uploadFile : Json) : Json :=
  .dict ((formItems.filterMap fun item => (values item.1).map fun j => (item.1, j)) ++
    [(.referenceScreenshot, uploadFile)])

/-- The request of `handleSubmit` (`ResearchTemplate.jsx`, lines 180–207); `none` where the form is
    not accepted. -/
def handleSubmit (values : FormValues) (uploadFile : Json) (modal : Modal) : Option Request :=
  if validateFields values then
    match modal with
    | .add => some (.create .template (.json (templateData values uploadFile)))
    | .edit id => some (.update .template id (.json (templateData values uploadFile)))
  else none

/-- **The body has the category** that was chosen. -/
theorem templateData_category {values : FormValues} (uploadFile : Json) {code : Json}
    (h : values .projectCategory = some code) :
    (templateData values uploadFile).get .projectCategory = .ok (some code) := by
  simp [templateData, formItems, h, Json.get]

end ProjectEvaluation.Pages.ResearchTemplate
